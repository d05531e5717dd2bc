import Applicability.Main
import Applicability.Proofs.Text.CharClass
import Applicability.Proofs.Text.Pattern
import Applicability.Proofs.Text.Keyword
import Applicability.Proofs.Capability.Id
import Applicability.Proofs.Text.Blank
import Applicability.Proofs.Text.Spacing
import Applicability.Proofs.Text.Replacing
import Applicability.Proofs.Boolean.Grammar
import Applicability.Proofs.Boolean.Lexing
import Applicability.Proofs.KeyMap
import Applicability.Proofs.Capability.Profile
import Applicability.Proofs.Condition.Written
import Applicability.Proofs.Condition.Repair
import Applicability.Proofs.Condition.Rule
import Applicability.Proofs.Condition.References
import Applicability.Proofs.Condition.Substitution
import Applicability.Proofs.Condition.Operators
import Applicability.Proofs.Condition.Evaluation
import Applicability.Proofs.Fallback.Parses
import Applicability.Proofs.Run.Step
import Applicability.Proofs.Run.Outcomes
import Applicability.Proofs.Run.History
import Applicability.Proofs.Run.Refinement
import Applicability.Proofs.Condition.Authored
import Applicability.Proofs.Run.Completeness
import Applicability.Proofs.Run.Accounting
import Applicability.Proofs.Run.Agreement
import Applicability.Proofs.Run.Residence
import Applicability.Proofs.Run.Secrecy
import Applicability.Proofs.Catalog.Database
import Applicability.Proofs.Boolean.Language
import Applicability.Proofs.Condition.Mending
import Applicability.Proofs.Condition.WholeIds
import Applicability.Proofs.Condition.Simultaneous
import Applicability.Proofs.Command.Filter
import Applicability.Proofs.Text.Cased
import Applicability.Proofs.Text.Collapsed
import Applicability.Proofs.Condition.Gluing
import Applicability.Proofs.Condition.Repaired
import Applicability.Proofs.Catalog.Shapes
import Applicability.Proofs.Condition.NormalForm
import Applicability.Proofs.Fallback.Invalidation
import Applicability.Proofs.Text.Pieces
import Applicability.Proofs.Condition.Visible
import Applicability.Proofs.Run.Batches
import Applicability.Proofs.Condition.WholeTokens
import Applicability.Proofs.Json.Checking
import Applicability.Proofs.Command.Capabilities
import Applicability.Proofs.Http.Retries
import Applicability.Proofs.Catalog.Resolution
import Applicability.Proofs.Json.Encoding
import Applicability.Proofs.Catalog.Encoding
import Applicability.Proofs.Request
import Applicability.Proofs.Catalog.Tables
import Applicability.Proofs.Selection
import Applicability.Proofs.Text.Regex
import Applicability.Proofs.Capability.Grammar
import Applicability.Proofs.Condition.ReferenceOrder
import Applicability.Proofs.Condition.Unbordered
