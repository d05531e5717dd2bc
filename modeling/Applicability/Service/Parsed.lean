import Applicability.Json.Decoder

namespace Applicability.Service

structure Parsed where
  antecedent : String
  thenToken : String
  elseToken : String
  references : List String
  deriving DecidableEq, Repr

namespace Parsed

structure Draft where
  antecedent : Option String
  thenToken : Option String
  elseToken : Option String
  references : Option (List String)

def fields : List (Json.Field Draft) :=
  [.of "antecedent" [] true .string (·.antecedent) fun d v => { d with antecedent := some v },
    .of "then" ["then_value"] true .string (·.thenToken) fun d v => { d with thenToken := some v },
    .of "else" ["else_value"] false .string (·.elseToken) fun d v => { d with elseToken := some v },
    .of "references" [] false (.list .string) (·.references)
      fun d v => { d with references := some v }]

def decoder : Json.Decoder Parsed := fun levels n => do
  let d ← Json.Field.record "ParsedCondition" fields ⟨none, none, none, none⟩ levels n
  return ⟨d.antecedent.getD "", d.thenToken.getD "", d.elseToken.getD "N/A", d.references.getD []⟩

def toValue (p : Parsed) : Json.Value :=
  .object
    [("antecedent", .string p.antecedent), ("then", .string p.thenToken),
      ("else", .string p.elseToken), ("references", .strings p.references)]

end Parsed

inductive Error where
  | network (message : String)
  | rateLimited (retryAfter : Option Nat)
  | invalidResponse (message : String)
  | unavailable (message : String)
  deriving DecidableEq, Repr

namespace Error

def spanText : Option Nat → String
  | none => "None"
  | some 0 => "Some(0ns)"
  | some n => "Some(" ++ toString n ++ "s)"

def message : Error → String
  | network m => "network error: " ++ m
  | rateLimited t => "rate limited: retry after " ++ spanText t
  | invalidResponse m => "invalid response: " ++ m
  | unavailable m => "parser unavailable: " ++ m

def isRetryable : Error → Bool
  | network _ | rateLimited _ => true
  | invalidResponse _ | unavailable _ => false

end Error

end Applicability.Service
