import Applicability.KeyMap
import Applicability.Status

namespace Applicability.Catalog

abbrev Conditions := KeyMap String

def normalId (id : String) : String :=
  String.ofList (Text.upper (Text.trim id.toList))

namespace Conditions

def collect (pairs : List (String × String)) : Conditions :=
  .ofList (pairs.filterMap fun p =>
    let id := normalId p.1
    if id.isEmpty then none else some (id, p.2))

end Conditions

def expressionFor (reference : String) (conditions : Conditions) : String :=
  let r := Text.trim reference.toList
  if r.isEmpty || (Status.ofLiteral? r).isSome then String.ofList r
  else (conditions.get? (normalId (String.ofList r))).getD (String.ofList r)

end Applicability.Catalog
