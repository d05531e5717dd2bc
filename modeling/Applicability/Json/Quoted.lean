import Applicability.Json.Node

namespace Applicability.Json.Quoted

inductive Scan where
  | closed (value : Except Fault String) (rest : List Char)
  | broken (b : Breach)

def hexValue? (c : Char) : Option Nat :=
  if c.isDigit then some (c.toNat - '0'.toNat)
  else if 'a' ≤ c && c ≤ 'f' then some (c.toNat - 'a'.toNat + 10)
  else if 'A' ≤ c && c ≤ 'F' then some (c.toNat - 'A'.toNat + 10)
  else none

def unit? (a b c d : Char) : Option Nat := do
  return (((← hexValue? a) * 16 + (← hexValue? b)) * 16 + (← hexValue? c)) * 16 + (← hexValue? d)

def isLeading (n : Nat) : Bool :=
  0xD800 ≤ n && n ≤ 0xDBFF

def isTrailing (n : Nat) : Bool :=
  0xDC00 ≤ n && n ≤ 0xDFFF

def ofPair (leading trailing : Nat) : Char :=
  Char.ofNat ((leading - 0xD800) * 0x400 + (trailing - 0xDC00) + 0x10000)

def ofLetter? : Char → Option Char
  | '"' => some '"'
  | '\\' => some '\\'
  | '/' => some '/'
  | 'b' => some '\x08'
  | 'f' => some '\x0c'
  | 'n' => some '\n'
  | 'r' => some '\r'
  | 't' => some '\t'
  | _ => none

def breakOff (wrong : Option Fault) (f : Fault) : Scan :=
  .broken ⟨wrong.getD f, f⟩

def unpaired (wrong : Option Fault) (leading : Option Nat) : Option Fault :=
  wrong <|> leading.map fun _ => .endOfSurrogate

def scan (wrong : Option Fault) (leading : Option Nat) (seen : List Char) : List Char → Scan
  | [] => breakOff wrong .endInString
  | '"' :: rest =>
    match unpaired wrong leading with
    | some f => .closed (.error f) rest
    | none => .closed (.ok (String.ofList seen.reverse)) rest
  | '\\' :: 'u' :: a :: b :: c :: d :: rest =>
    match unit? a b c d, leading with
    | none, _ => breakOff wrong .invalidEscape
    | some n, some m =>
      if isTrailing n then scan wrong none (ofPair m n :: seen) rest
      else scan (wrong <|> some .loneSurrogate) none seen rest
    | some n, none =>
      if isTrailing n then scan (wrong <|> some .loneSurrogate) none seen rest
      else if isLeading n then scan wrong (some n) seen rest
      else scan wrong none (Char.ofNat n :: seen) rest
  | ['\\'] => breakOff wrong .endInString
  | '\\' :: 'u' :: rest =>
    breakOff wrong
      (if 4 ≤ (rest.map Char.utf8Size).sum then .invalidEscape else .endInString)
  | '\\' :: c :: rest =>
    match ofLetter? c with
    | some x => scan (unpaired wrong leading) none (x :: seen) rest
    | none => breakOff (unpaired wrong leading) .invalidEscape
  | c :: rest =>
    if c.toNat < 0x20 then breakOff (unpaired wrong leading) .controlCharacter
    else scan (unpaired wrong leading) none (c :: seen) rest

def node (s : List Char) : Node × List Char :=
  match scan none none [] s with
  | .closed (.ok text) rest => (.string text, rest)
  | .closed (.error f) rest => (.unreadable f, rest)
  | .broken b => (.broken b, [])

end Applicability.Json.Quoted
