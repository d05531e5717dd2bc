import Applicability.Capability.Id
import Applicability.Capability.Profile
import Applicability.Json.Decoder
import Applicability.Text.Blank

namespace Applicability.Capability

inductive Declared where
  | flag (b : Bool)
  | text (s : String)
  | count (n : Int)
  | other (v : Json.Value)

namespace Declared

def isYes (s : String) : Bool :=
  let word := String.ofList (Text.upper (Text.trim s.toList))
  word == "TRUE" || word == "1" || word == "YES" || word == "Y"

def supported : Declared → Bool
  | flag b => b
  | text s => isYes s
  | count n => n != 0
  | other _ => false

def isCount (n : Int) : Bool :=
  -0x8000000000000000 ≤ n && n < 0x8000000000000000

def ofValue : Json.Value → Declared
  | .bool b => flag b
  | .string s => text s
  | .number (.int n) => if isCount n then count n else other (.number (.int n))
  | v => other v

def toValue : Declared → Json.Value
  | flag b => .bool b
  | text s => .string s
  | count n => .number (.int n)
  | other v => v

def decoder : Json.Decoder Declared := fun levels n =>
  (Json.Decoder.value levels n).map ofValue

end Declared

structure Item where
  id : String
  declared : Declared

namespace Item

structure Draft where
  id : Option String
  declared : Option Declared

def fields : List (Json.Field Draft) :=
  [.of "item_id" ["id", "pics_id"] true .string (·.id) fun d v => { d with id := some v },
    .of "value" ["supported"] true Declared.decoder (·.declared)
      fun d v => { d with declared := some v }]

def decoder : Json.Decoder Item := fun levels n => do
  let draft ← Json.Field.record "PicsItem" fields ⟨none, none⟩ levels n
  return ⟨draft.id.getD "", draft.declared.getD (.flag false)⟩

def toValue (item : Item) : Json.Value :=
  .object [("item_id", .string item.id), ("value", item.declared.toValue)]

end Item

def profile (items : List Item) : Profile :=
  KeyMap.ofList (items.filterMap fun item =>
    let id := Text.trim item.id.toList
    if isId id then some (String.ofList id, item.declared.supported) else none)

end Applicability.Capability
