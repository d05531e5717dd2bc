import Applicability.Proofs.Run.History
import Applicability.Proofs.Run.Result

namespace Applicability.Engine

open Catalog

variable {σ : Type} (engine : Engine σ) (items : List Capability.Item) (catalog : Loaded) (f : Fallback σ)

end Applicability.Engine
