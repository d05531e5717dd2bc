import Applicability.Boolean.Parser
import Applicability.Capability.Profile
import Applicability.Condition.References
import Applicability.Condition.Rule
import Applicability.Condition.Substitution
import Applicability.Outcome

namespace Applicability

namespace Rule

open Condition

def boolText (b : Bool) : String :=
  if b then "true" else "false"

def references (rule : Rule) (extra : List String) : List String :=
  (Condition.references rule.antecedent.toList (extra.map String.toList)).map String.ofList

def valueStep (profile : Profile) (id : String) : String :=
  match profile.get? id with
  | some b => id ++ " = " ++ boolText b
  | none => id ++ " = false (missing from PICS)"

def substitute (profile : Profile) (ids : List String) (antecedent : List Char) : List Char :=
  ids.foldl
    (fun text id => replaceWhole id.toList (boolText (profile.supports id)).toList text)
    antecedent

def expression (profile : Profile) (rule : Rule) (extra : List String) :
    List String × List Char :=
  let ids := rule.references extra
  let missing := ids.filter fun id => (profile.get? id).isNone
  let (balanced, padded) :=
    balance (writeOperators (substitute profile ids rule.antecedent.toList))
  let steps :=
    ["Antecedent: " ++ rule.antecedent] ++ ids.map (valueStep profile) ++
      (if missing.isEmpty then []
        else ["Missing PICS references: " ++ ", ".intercalate missing]) ++
      (if padded then ["Balanced parentheses after substitution"] else []) ++
      ["Substituted: " ++ String.ofList balanced]
  (steps, balanced)

def evaluate (profile : Profile) (logic : String) (rule : Rule) (extra : List String) : Outcome :=
  let (steps, text) := rule.expression profile extra
  match Boolean.evaluate text with
  | .ok value =>
    let status := if value then rule.onTrue else rule.onFalse
    .of status logic
      (steps ++ ["Antecedent evaluates to " ++ boolText value, "Result: " ++ status.token])
  | .error e =>
    .of .notApplicable logic
      (steps ++ ["Evaluation failed: " ++ e.message ++ "; defaulting to N/A"])

end Rule

namespace Condition

inductive Evaluation where
  | resolved (o : Outcome)
  | deferred (key : String)
  deriving DecidableEq, Repr

def literalLogic (text : String) (s : Status) : String :=
  let t := Text.trimmed text
  if t.isEmpty then s.token else t

def evaluate (profile : Profile) (text : String) : Evaluation :=
  match classify text with
  | .literal s => .resolved (.of s (literalLogic text s) [])
  | .rule r => .resolved (r.evaluate profile (cacheKey text) [])
  | .freeform key => .deferred key

end Condition

end Applicability
