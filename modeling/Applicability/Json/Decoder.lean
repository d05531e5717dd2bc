import Applicability.Json.Reader
import Applicability.KeyMap
import Applicability.Text.Shown

namespace Applicability.Json

inductive DecodeError where
  | fault (f : Fault)
  | unexpected (found expected : String)
  | missingField (name : String)
  | duplicateField (name : String)
  | tooShort (length : Nat) (expected : String)
  | surplus (length : Nat)
  | noVariant (type : String)
  | unknownVariant (name : String) (known : List String)
  deriving DecidableEq, Repr

def DecodeError.message : DecodeError → String
  | fault f => f.message
  | unexpected found expected => "invalid type: " ++ found ++ ", expected " ++ expected
  | missingField name => "missing field `" ++ name ++ "`"
  | duplicateField name => "duplicate field `" ++ name ++ "`"
  | tooShort length expected => "invalid length " ++ toString length ++ ", expected " ++ expected
  | surplus length =>
    "invalid length " ++ toString length ++ ", expected fewer elements in array"
  | noVariant type => "data did not match any variant of untagged enum " ++ type
  | unknownVariant name known =>
    "unknown variant `" ++ name ++ "`, expected one of " ++
      ", ".intercalate (known.map fun k => "`" ++ k ++ "`")

abbrev Levels := Option Nat

def textLevels : Levels := some 128

def Levels.enter : Levels → Except DecodeError Levels
  | none => .ok none
  | some (n + 2) => .ok (some (n + 1))
  | some _ => .error (.fault .tooDeep)

abbrev Decoder (α : Type) := Levels → Node → Except DecodeError α

namespace Node

def describe : Node → Except Fault String
  | .null => .ok "null"
  | .bool b => .ok ("boolean `" ++ (if b then "true" else "false") ++ "`")
  | .number (.int n) => .ok ("integer `" ++ toString n ++ "`")
  | .number (.float x) => .ok ("floating point `" ++ (Number.float x).text ++ "`")
  | .string s => .ok ("string " ++ Text.showQuoted s)
  | .unreadable f => .error f
  | .broken b => .error b.read
  | .list .. => .ok "sequence"
  | .object .. => .ok "map"

def mismatch (n : Node) (expected : String) : DecodeError :=
  match n.describe with
  | .ok found => .unexpected found expected
  | .error f => .fault f

mutual

def check (levels : Levels) : Node → Except DecodeError Unit
  | .unreadable f => .error (.fault f)
  | .broken b => .error (.fault b.read)
  | .list items breach => do
    let inner ← levels.enter
    checkItems inner items
    breach.elim (.ok ()) fun b => .error (.fault b.read)
  | .object members breach => do
    let inner ← levels.enter
    checkMembers inner members
    breach.elim (.ok ()) fun b => .error (.fault b.read)
  | _ => .ok ()

def checkItems (levels : Levels) : List Node → Except DecodeError Unit
  | [] => .ok ()
  | n :: ns => do
    check levels n
    checkItems levels ns

def checkMembers (levels : Levels) :
    List (Except Fault String × Node) → Except DecodeError Unit
  | [] => .ok ()
  | (.error f, _) :: _ => .error (.fault f)
  | (.ok _, n) :: rest => do
    check levels n
    checkMembers levels rest

end

mutual

def toValue : Node → Value
  | .null => .null
  | .bool b => .bool b
  | .number n => .number n
  | .string s => .string s
  | .unreadable _ | .broken _ => .null
  | .list items _ => .array (toValues items)
  | .object members _ => .object (KeyMap.ofList (toMembers members)).toList

def toValues : List Node → List Value
  | [] => []
  | n :: ns => toValue n :: toValues ns

def toMembers : List (Except Fault String × Node) → List (String × Value)
  | [] => []
  | (.error _, _) :: rest => toMembers rest
  | (.ok k, n) :: rest => (k, toValue n) :: toMembers rest

end

end Node

namespace Decoder

def string : Decoder String := fun _ n =>
  match n with
  | .string s => .ok s
  | n => .error (n.mismatch "a string")

def bool : Decoder Bool := fun _ n =>
  match n with
  | .bool b => .ok b
  | n => .error (n.mismatch "a boolean")

def optional {α : Type} (d : Decoder α) : Decoder (Option α) := fun levels n =>
  match n with
  | .null => .ok none
  | n => (d levels n).map some

def value : Decoder Value := fun levels n => do
  n.check levels
  return n.toValue

def list {α : Type} (d : Decoder α) : Decoder (List α) := fun levels n =>
  match n with
  | .list items breach => do
    let inner ← levels.enter
    let values ← items.mapM (d inner)
    breach.elim (.ok values) fun b => .error (.fault b.read)
  | n => .error (n.mismatch "a sequence")

def pairs {α : Type} (d : Decoder α) (levels : Levels) :
    List (Except Fault String × Node) → Except DecodeError (List (String × α))
  | [] => .ok []
  | (.error f, _) :: _ => .error (.fault f)
  | (.ok k, n) :: rest => do
    let v ← d levels n
    return (k, v) :: (← pairs d levels rest)

def keyMap {α : Type} (d : Decoder α) : Decoder (KeyMap α) := fun levels n =>
  match n with
  | .object members breach => do
    let inner ← levels.enter
    let found ← pairs d inner members
    breach.elim (.ok (.ofList found)) fun b => .error (.fault b.read)
  | n => .error (n.mismatch "a map")

def oneOf {α : Type} (type : String) (forms : List (Decoder α)) : Decoder α := fun levels n => do
  n.check levels
  match forms.findSome? fun d => (d levels n).toOption with
  | some v => .ok v
  | none => .error (.noVariant type)

def variant {α : Type} (ofName? : String → Option α) (known : List String) : Decoder α :=
  fun _ n =>
    match n with
    | .string s => (ofName? s).elim (.error (.unknownVariant s known)) .ok
    | .object [(.ok s, .null)] none => (ofName? s).elim (.error (.unknownVariant s known)) .ok
    | n => .error (n.mismatch "string or map")

end Decoder

structure Field (σ : Type) where
  name : String
  aliases : List String
  required : Bool
  isSet : σ → Bool
  read : Levels → Node → σ → Except DecodeError σ

namespace Field

variable {σ : Type}

def of {α : Type} (name : String) (aliases : List String) (required : Bool) (d : Decoder α)
    (get : σ → Option α) (set : σ → α → σ) : Field σ where
  name := name
  aliases := aliases
  required := required
  isSet s := (get s).isSome
  read levels n s := (d levels n).map (set s)

def hasName (f : Field σ) (name : String) : Bool :=
  f.name == name || f.aliases.contains name

def readMembers (fields : List (Field σ)) (levels : Levels) :
    List (Except Fault String × Node) → σ → Except DecodeError σ
  | [], s => .ok s
  | (.error f, _) :: _, _ => .error (.fault f)
  | (.ok k, n) :: rest, s =>
    match fields.find? (·.hasName k) with
    | none =>
      match n.skip with
      | .ok _ => readMembers fields levels rest s
      | .error f => .error (.fault f)
    | some f =>
      if f.isSet s then .error (.duplicateField f.name)
      else do readMembers fields levels rest (← f.read levels n s)

def surplusFault (breach : Option Breach) : Option Fault :=
  breach.map fun b =>
    match b.read with
    | .trailingComma => .trailingComma
    | .endInList => .endInList
    | _ => .trailingCharacters

def readItems (levels : Levels) (index total : Nat) (short : String) (breach : Option Breach) :
    List (Field σ) → List Node → σ → Except DecodeError σ
  | [], [], s => (surplusFault breach).elim (.ok s) fun f => .error (.fault f)
  | [], _ :: _, _ =>
    match levels with
    | some _ => .error (.fault .trailingCharacters)
    | none => .error (.surplus total)
  | f :: fs, [], s =>
    match breach with
    | some b => .error (.fault b.read)
    | none =>
      if f.required then .error (.tooShort index short)
      else readItems levels (index + 1) total short none fs [] s
  | f :: fs, n :: ns, s => do
    readItems levels (index + 1) total short breach fs ns (← f.read levels n s)

def missing? (fields : List (Field σ)) (s : σ) : Option String :=
  (fields.find? fun f => f.required && !f.isSet s).map (·.name)

def ofObject (type : String) (fields : List (Field σ)) (start : σ) : Decoder σ :=
  fun levels n =>
    match n with
    | .object members breach => do
      let inner ← levels.enter
      let s ← readMembers fields inner members start
      match breach with
      | some b => .error (.fault b.read)
      | none => (missing? fields s).elim (.ok s) fun name => .error (.missingField name)
    | n => .error (n.mismatch ("struct " ++ type))

def record (type : String) (fields : List (Field σ)) (start : σ) : Decoder σ :=
  fun levels n =>
    match n with
    | .list items breach => do
      let inner ← levels.enter
      let count := fields.length
      let short := "struct " ++ type ++ " with " ++ toString count ++
        (if count = 1 then " element" else " elements")
      readItems inner 0 items.length short breach fields items start
    | n => ofObject type fields start levels n

end Field

def decodeText {α : Type} (d : Decoder α) (text : String) : Except DecodeError α := do
  let document := Document.ofText text
  let v ← d textLevels document.root
  if document.trailing then .error (.fault .trailingCharacters) else .ok v

def decodeValue {α : Type} (d : Decoder α) (v : Value) : Except DecodeError α :=
  d none (.ofValue v)

end Applicability.Json
