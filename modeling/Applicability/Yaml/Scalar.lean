import Applicability.Json.Quoted
import Applicability.Yaml.Cursor

namespace Applicability.Yaml

structure Gap where
  blanks : List Char
  breaks : Nat
  escaped : Bool

namespace Gap

def empty : Gap := ⟨[], 0, false⟩

def isFolded (g : Gap) : Bool :=
  g.escaped || g.breaks != 0

def isEmpty (g : Gap) : Bool :=
  !g.isFolded && g.blanks.isEmpty

def addBlank (g : Gap) (c : Char) : Gap :=
  if g.isFolded then g else { g with blanks := c :: g.blanks }

def addBreak (g : Gap) : Gap :=
  ⟨[], g.breaks + 1, g.escaped⟩

def fill (g : Gap) (seen : List Char) : List Char :=
  if g.escaped then List.replicate g.breaks '\n' ++ seen
  else match g.breaks with
    | 0 => g.blanks ++ seen
    | 1 => ' ' :: seen
    | n + 2 => List.replicate (n + 1) '\n' ++ seen

end Gap

structure Scalar where
  text : List Char
  isPlain : Bool
  lastLine : Nat
  after : Cursor

namespace Scalar

def node (s : Scalar) : Node :=
  .scalar (String.ofList s.text) s.isPlain

def single (seen : List Char) (g : Gap) (line column : Nat) :
    List Char → Except Fault Scalar
  | [] => .error .unexpectedEnd
  | '\'' :: '\'' :: rest => single ('\'' :: g.fill seen) .empty line (column + 2) rest
  | '\'' :: rest => .ok ⟨(g.fill seen).reverse, false, line, ⟨line, column + 1, rest⟩⟩
  | '\n' :: rest => single seen g.addBreak (line + 1) 0 rest
  | c :: rest =>
    if column = 0 && isMarker (c :: rest) then .error .unexpectedCharacter
    else if isBlank c then single seen (g.addBlank c) line (column + 1) rest
    else single (c :: g.fill seen) .empty line (column + 1) rest

def ofLetter? : Char → Option Char
  | '0' => some '\x00'
  | 'a' => some '\x07'
  | 'b' => some '\x08'
  | 't' | '\t' => some '\t'
  | 'n' => some '\n'
  | 'v' => some '\x0b'
  | 'f' => some '\x0c'
  | 'r' => some '\r'
  | 'e' => some '\x1b'
  | ' ' => some ' '
  | '"' => some '"'
  | '/' => some '/'
  | '\\' => some '\\'
  | 'N' => some '\u0085'
  | '_' => some '\u00a0'
  | 'L' => some '\u2028'
  | 'P' => some '\u2029'
  | _ => none

def codeLength? : Char → Option Nat
  | 'x' => some 2
  | 'u' => some 4
  | 'U' => some 8
  | _ => none

inductive Escape where
  | outside
  | opened
  | code (left value : Nat)

def ofCode? (n : Nat) : Option Char :=
  if n.isValidChar then some (Char.ofNat n) else none

def double (e : Escape) (seen : List Char) (g : Gap) (line column : Nat) :
    List Char → Except Fault Scalar
  | [] => .error .unexpectedEnd
  | c :: rest =>
    match e with
    | .outside =>
      if column = 0 && isMarker (c :: rest) then .error .unexpectedCharacter
      else if c == '"' then
        .ok ⟨(g.fill seen).reverse, false, line, ⟨line, column + 1, rest⟩⟩
      else if c == '\n' then double .outside seen g.addBreak (line + 1) 0 rest
      else if isBlank c then double .outside seen (g.addBlank c) line (column + 1) rest
      else if c == '\\' then double .opened (g.fill seen) .empty line (column + 1) rest
      else double .outside (c :: g.fill seen) .empty line (column + 1) rest
    | .opened =>
      if c == '\n' then double .outside seen ⟨[], 0, true⟩ (line + 1) 0 rest
      else match ofLetter? c, codeLength? c with
        | some d, _ => double .outside (d :: seen) .empty line (column + 1) rest
        | none, some n => double (.code n 0) seen .empty line (column + 1) rest
        | none, none => .error .unknownEscape
    | .code left value =>
      match Json.Quoted.hexValue? c with
      | none => .error .unknownEscape
      | some d =>
        let value := value * 16 + d
        if left ≤ 1 then
          match ofCode? value with
          | some d => double .outside (d :: seen) .empty line (column + 1) rest
          | none => .error .unknownEscape
        else double (.code (left - 1) value) seen .empty line (column + 1) rest

def isFlowMark (c : Char) : Bool :=
  c == ',' || c == '[' || c == ']' || c == '\x7b' || c == '\x7d'

def isStrayColon : List Char → Bool
  | ':' :: c :: _ => isFlowMark c || c == '?'
  | _ => false

def endsPlain (inFlow fresh : Bool) : List Char → Bool
  | [] => true
  | c :: rest =>
    fresh && c == '#' || c == ':' && endsToken rest || inFlow && isFlowMark c

def plain (inFlow : Bool) (indent : Nat) (seen : List Char) (g : Gap) (lastLine line column : Nat) :
    List Char → Except Fault Scalar
  | [] => .ok ⟨seen.reverse, true, lastLine, ⟨line, column, []⟩⟩
  | '\n' :: rest => plain inFlow indent seen g.addBreak lastLine (line + 1) 0 rest
  | c :: rest =>
    if isBlank c then
      if g.isFolded && column < indent && c == '\t' then .error .tabIndentation
      else plain inFlow indent seen (g.addBlank c) lastLine line (column + 1) rest
    else if g.isFolded && !inFlow && column < indent || column = 0 && isMarker (c :: rest) ||
        endsPlain inFlow (!g.isEmpty) (c :: rest) then
      .ok ⟨seen.reverse, true, lastLine, ⟨line, column, c :: rest⟩⟩
    else if inFlow && isStrayColon (c :: rest) then .error .unexpectedCharacter
    else plain inFlow indent (c :: g.fill seen) .empty line line (column + 1) rest

def isIndicator (c : Char) : Bool :=
  "-?:,[]\x7b\x7d#&*!|>'\"%@\x60".toList.contains c

def startsPlain (inFlow : Bool) : List Char → Bool
  | [] => false
  | '-' :: rest => !endsToken rest
  | c :: rest =>
    if c == '?' || c == ':' then !inFlow && !endsToken rest
    else !isBlank c && c != '\n' && !isIndicator c

def scan (inFlow : Bool) (indent : Nat) (c : Cursor) : Except Fault Scalar :=
  match c.rest with
  | '\'' :: rest => single [] .empty c.line (c.column + 1) rest
  | '"' :: rest => double .outside [] .empty c.line (c.column + 1) rest
  | rest =>
    if startsPlain inFlow rest then plain inFlow indent [] .empty c.line c.line c.column rest
    else .error .unexpectedCharacter

end Scalar

end Applicability.Yaml
