import Applicability.Json.Decoder
import Applicability.Status

namespace Applicability

structure Outcome where
  status : Status
  logic : String
  steps : List String
  applicable : Bool
  deriving DecidableEq, Repr

namespace Outcome

def of (status : Status) (logic : String) (steps : List String) : Outcome :=
  ⟨status, logic, steps, status.isApplicable⟩

structure Draft where
  status : Option Status
  logic : Option String
  steps : Option (List String)
  applicable : Option Bool

def tokens : List String :=
  [Status.required, .mandatory, .optional, .notApplicable, .error].map Status.token

def fields : List (Json.Field Draft) :=
  [.of "result" [] true (.variant Status.ofToken? tokens) (·.status)
      fun d v => { d with status := some v },
    .of "logic" [] true .string (·.logic) fun d v => { d with logic := some v },
    .of "steps" [] true (.list .string) (·.steps) fun d v => { d with steps := some v },
    .of "applicable" [] true .bool (·.applicable) fun d v => { d with applicable := some v }]

def decoder : Json.Decoder Outcome := fun levels n => do
  let d ← Json.Field.record "EvaluationOutcome" fields ⟨none, none, none, none⟩ levels n
  return ⟨d.status.getD .error, d.logic.getD "", d.steps.getD [], d.applicable.getD false⟩

def toValue (o : Outcome) : Json.Value :=
  .object
    [("result", .string o.status.token), ("logic", .string o.logic), ("steps", .strings o.steps),
      ("applicable", .bool o.applicable)]

end Outcome

end Applicability
