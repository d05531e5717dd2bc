import Applicability.Yaml.Plain
import Applicability.Yaml.Reader

namespace Applicability.Yaml

abbrev Place := String

namespace Place

def root : Place := "."

def item (p : Place) (index : Nat) : Place :=
  p ++ "[" ++ toString index ++ "]"

def entry (p : Place) (key : String) : Place :=
  if p == root then key else p ++ "." ++ key

end Place

inductive DecodeError where
  | fault (f : Fault)
  | severalDocuments
  | unexpected (place : Place) (found expected : String)
  | outOfRange (place : Place) (n : Nat) (expected : String)
  | duplicateField (place : Place) (name : String)
  | surplus (place : Place) (length count : Nat)
  deriving DecidableEq, Repr

namespace DecodeError

def located (place : Place) (text : String) : String :=
  if place == Place.root then text else place ++ ": " ++ text

def message : DecodeError → String
  | fault f => f.message
  | severalDocuments => "deserializing from YAML containing more than one document is not supported"
  | unexpected place found expected =>
    located place ("invalid type: " ++ found ++ ", expected " ++ expected)
  | outOfRange place n expected =>
    located place ("invalid value: integer `" ++ toString n ++ "`, expected " ++ expected)
  | duplicateField place name => located place ("duplicate field `" ++ name ++ "`")
  | surplus place length count =>
    located place ("invalid length " ++ toString length ++ ", expected sequence of " ++
      toString count ++ (if count = 1 then " element" else " elements"))

end DecodeError

abbrev Decoder (α : Type) := Place → Node → Except DecodeError α

def Node.mismatch (n : Node) (place : Place) (expected : String) : DecodeError :=
  .unexpected place n.describe expected

namespace Decoder

def text (expected : String) : Decoder String := fun place n =>
  match n with
  | .scalar s _ => .ok s
  | n => .error (n.mismatch place expected)

def unsigned (bound : Nat) (expected : String) : Decoder Nat := fun place n =>
  match n with
  | .scalar s true =>
    match Plain.unsigned? s with
    | some m =>
      if m < bound then .ok m
      else if m < Decimal.bound64 then .error (.outOfRange place m expected)
      else .error (n.mismatch place expected)
    | none => .error (n.mismatch place expected)
  | n => .error (n.mismatch place expected)

def optional {α : Type} (d : Decoder α) : Decoder (Option α) := fun place n =>
  match n with
  | .scalar s true => if s.isEmpty || Plain.isNull s then .ok none else (d place n).map some
  | n => (d place n).map some

end Decoder

structure Field (σ : Type) where
  name : String
  isSet : σ → Bool
  read : Place → Node → σ → Except DecodeError σ

namespace Field

variable {σ : Type}

def of {α : Type} (name : String) (d : Decoder α) (get : σ → Option α) (set : σ → α → σ) :
    Field σ where
  name := name
  isSet s := (get s).isSome
  read place n s := (d place n).map (set s)

def readEntries (fields : List (Field σ)) (place : Place) :
    List (Node × Node) → σ → Except DecodeError σ
  | [], s => .ok s
  | (key, n) :: rest, s => do
    let k ← Decoder.text "field identifier" place key
    match fields.find? (·.name == k) with
    | none => readEntries fields place rest s
    | some f =>
      if f.isSet s then throw (.duplicateField place f.name)
      else readEntries fields place rest (← f.read (place.entry k) n s)

def readItems (place : Place) (index : Nat) : List (Field σ) → List Node → σ → Except DecodeError σ
  | f :: fs, n :: ns, s => do
    readItems place (index + 1) fs ns (← f.read (place.item index) n s)
  | [], n :: ns, _ => .error (.surplus place (index + (n :: ns).length) index)
  | _, [], s => .ok s

def record (type : String) (fields : List (Field σ)) (start : σ) : Decoder σ := fun place n =>
  match n with
  | .mapping entries => readEntries fields place entries start
  | .sequence items => readItems place 0 fields items start
  | .scalar "" true => .ok start
  | n => .error (n.mismatch place ("struct " ++ type))

end Field

def decodeText {α : Type} (d : Decoder α) (text : String) : Except DecodeError α :=
  match Document.ofText text with
  | .error f => .error (.fault f)
  | .ok document =>
    match d .root document.root with
    | .error e => .error e
    | .ok v => if document.isFollowed then .error .severalDocuments else .ok v

end Applicability.Yaml
