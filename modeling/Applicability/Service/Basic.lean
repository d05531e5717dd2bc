import Applicability.Service.Parsed

namespace Applicability

/-- A service with states in `σ`. The answers to a batch belong to its expressions by position, and there
may be fewer or more of them. -/
structure Service (σ : Type) where
  name : String
  one : String → σ → Except Service.Error Service.Parsed × σ
  batch : List String → σ → Except Service.Error (List Service.Parsed) × σ

namespace Service

inductive Call where
  | one (expression : String)
  | batch (expressions : List String)
  deriving DecidableEq, Repr

def offline (σ : Type) : Service σ where
  name := "offline"
  one _ s := (.error (.unavailable "no condition parser configured"), s)
  batch _ s := (.error (.unavailable "no condition parser configured"), s)

end Service

end Applicability
