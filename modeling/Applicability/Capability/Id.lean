import Applicability.Text.Blank
import Applicability.Text.DecimalDigit
import Applicability.Text.Pattern
import Applicability.Text.WordChar

namespace Applicability.Capability

open Text

inductive Zone where
  | number
  | branch
  | letters
  deriving DecidableEq, Repr

def startsWithDigit : List Char → Bool
  | [] => false
  | c :: _ => isDigit c

def numbersWidth : Zone → List Char → Nat
  | _, [] => 0
  | zone, c :: cs =>
    if isDigit c && zone != .letters then 1 + numbersWidth zone cs
    else if c.isLower && zone != .number then 1 + numbersWidth .letters cs
    else if c == '.' && zone == .number && startsWithDigit cs then 1 + numbersWidth .number cs
    else if (c == '-' || c == '/') && startsWithDigit cs then 1 + numbersWidth .branch cs
    else 0

def idPattern : Pattern := fun _ s =>
  match s with
  | 'A' :: '.' :: cs => if startsWithDigit cs then 2 + numbersWidth .number cs else 0
  | 'P' :: 'C' :: '_' :: cs =>
    match (cs.takeWhile isWordChar).length with
    | 0 => 0
    | n + 1 => 3 + (n + 1)
  | _ => 0

def isId (s : List Char) : Bool :=
  s != [] && idPattern none s == s.length

end Applicability.Capability
