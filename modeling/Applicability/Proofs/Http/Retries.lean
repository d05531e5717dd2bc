import Applicability.Http.Client
import Applicability.Proofs.Http.Waiting
import Mathlib.Data.ENat.Lattice

namespace Applicability.Http

section Replies

variable {script : Nat → Reply} {n : Nat}

end Replies

namespace Client

section Calls

variable {α : Type} (script : Nat → Reply) (retries : Nat) (request : Request)
  (Means : Reply → Except Service.Error α → Prop) (sent : List Request) (result : Except Service.Error α × List Request)

end Calls

variable {client : Client} {address? : String → Option Address} {scheme authority target : String}

end Client

end Applicability.Http
