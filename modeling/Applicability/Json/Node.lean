import Applicability.Json.Value

/-!
JSON text as a tree that keeps what is wrong with the text at the place where it stands.

Reading stops at the first thing that is wrong, and what comes first depends on what is asked for: a member
that nobody wants is skipped, and skipping is more lenient than reading. So a text is cut into nodes once,
and the records decide on the nodes.
-/

namespace Applicability.Json

inductive Fault where
  | endInValue
  | endInObject
  | endInList
  | endInString
  | expectedValue
  | expectedIdent
  | expectedColon
  | expectedObjectCommaOrEnd
  | expectedListCommaOrEnd
  | trailingComma
  | trailingCharacters
  | keyNotString
  | invalidNumber
  | outOfRange
  | invalidEscape
  | controlCharacter
  | loneSurrogate
  | endOfSurrogate
  | tooDeep
  deriving DecidableEq, Repr

def Fault.message : Fault → String
  | endInValue => "EOF while parsing a value"
  | endInObject => "EOF while parsing an object"
  | endInList => "EOF while parsing a list"
  | endInString => "EOF while parsing a string"
  | expectedValue => "expected value"
  | expectedIdent => "expected ident"
  | expectedColon => "expected `:`"
  | expectedObjectCommaOrEnd => "expected `,` or `\x7d`"
  | expectedListCommaOrEnd => "expected `,` or `]`"
  | trailingComma => "trailing comma"
  | trailingCharacters => "trailing characters"
  | keyNotString => "key must be a string"
  | invalidNumber => "invalid number"
  | outOfRange => "number out of range"
  | invalidEscape => "invalid escape"
  | controlCharacter => "control character (\\u0000-\\u001F) found while parsing a string"
  | loneSurrogate => "lone leading surrogate in hex escape"
  | endOfSurrogate => "unexpected end of hex escape"
  | tooDeep => "recursion limit exceeded"

/-- The place where a text breaks off: what is wrong there for a reader, and for one who only skips. -/
structure Breach where
  read : Fault
  skip : Fault
  deriving DecidableEq, Repr

def Fault.always (f : Fault) : Breach := ⟨f, f⟩

inductive Node where
  | null
  | bool (b : Bool)
  | number (n : Number)
  | string (s : String)
  | unreadable (f : Fault)
  | broken (b : Breach)
  | list (items : List Node) (breach : Option Breach)
  | object (members : List (Except Fault String × Node)) (breach : Option Breach)

structure Document where
  root : Node
  trailing : Bool

namespace Node

mutual

def ofValue : Value → Node
  | .null => .null
  | .bool b => .bool b
  | .number n => .number n
  | .string s => .string s
  | .array items => .list (ofValues items) none
  | .object members => .object (ofMembers members) none

def ofValues : List Value → List Node
  | [] => []
  | v :: vs => ofValue v :: ofValues vs

def ofMembers : List (String × Value) → List (Except Fault String × Node)
  | [] => []
  | (k, v) :: rest => (.ok k, ofValue v) :: ofMembers rest

end

mutual

def skip : Node → Except Fault Unit
  | .broken b => .error b.skip
  | .list items breach => do
    skipItems items
    breach.elim (.ok ()) (.error ·.skip)
  | .object members breach => do
    skipMembers members
    breach.elim (.ok ()) (.error ·.skip)
  | _ => .ok ()

def skipItems : List Node → Except Fault Unit
  | [] => .ok ()
  | n :: ns => do
    skip n
    skipItems ns

def skipMembers : List (Except Fault String × Node) → Except Fault Unit
  | [] => .ok ()
  | (_, n) :: rest => do
    skip n
    skipMembers rest

end

end Node

end Applicability.Json
