import Applicability.Proofs.Run.History
import Applicability.Proofs.Run.Result

namespace Applicability

variable {σ τ : Type}

namespace Engine

variable {g : String → Service.Parsed} {engine : Engine σ} {items : List Capability.Item}

end Engine

end Applicability
