import Applicability.Yaml.Node

namespace Applicability.Yaml

structure Cursor where
  line : Nat
  column : Nat
  rest : List Char
  deriving DecidableEq, Repr

def isBlank (c : Char) : Bool :=
  c == ' ' || c == '\t'

def endsToken : List Char → Bool
  | [] => true
  | c :: _ => isBlank c || c == '\n'

def isMarker : List Char → Bool
  | '-' :: '-' :: '-' :: rest => endsToken rest
  | '.' :: '.' :: '.' :: rest => endsToken rest
  | _ => false

namespace Cursor

def forward (c : Cursor) (n : Nat) : Cursor :=
  ⟨c.line, c.column + n, c.rest.drop n⟩

def isAtEnd (c : Cursor) : Bool :=
  c.rest.isEmpty || c.column == 0 && isMarker c.rest

def isAtDash (c : Cursor) : Bool :=
  match c.rest with
  | '-' :: rest => endsToken rest
  | _ => false

def isAtColon (c : Cursor) : Bool :=
  match c.rest with
  | ':' :: rest => endsToken rest
  | _ => false

def skipFrom (inFlow tabs comment : Bool) (line column : Nat) : List Char → Cursor
  | [] => ⟨line, column, []⟩
  | '\n' :: rest => skipFrom inFlow inFlow false (line + 1) 0 rest
  | c :: rest =>
    if comment || c == ' ' || c == '\t' && tabs then
      skipFrom inFlow tabs comment line (column + 1) rest
    else if c == '#' then skipFrom inFlow tabs true line (column + 1) rest
    else ⟨line, column, c :: rest⟩

def skip (tabs : Bool) (c : Cursor) : Cursor :=
  skipFrom false tabs false c.line c.column c.rest

def skipInFlow (c : Cursor) : Cursor :=
  skipFrom true true false c.line c.column c.rest

end Cursor

end Applicability.Yaml
