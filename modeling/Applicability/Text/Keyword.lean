import Applicability.Text.Pattern
import Applicability.Text.WordChar

namespace Applicability.Text

def isLetter (k c : Char) : Bool :=
  c.toUpper == k || (k == 'S' && c == '\u017f') || (k == 'K' && c == '\u212a')

def afterLetters? : List Char → List Char → Option (List Char)
  | [], s => some s
  | _ :: _, [] => none
  | k :: ks, c :: cs => if isLetter k c then afterLetters? ks cs else none

def word (keyword : String) : Pattern := fun before s =>
  if isOpenSide before then
    match afterLetters? keyword.toList s with
    | some rest => if isOpenSide rest.head? then keyword.length else 0
    | none => 0
  else 0

def wordAtParen (keyword : String) : Pattern := fun before s =>
  if isOpenSide before then
    match afterLetters? keyword.toList s with
    | some ('(' :: _) => keyword.length + 1
    | _ => 0
  else 0

end Applicability.Text
