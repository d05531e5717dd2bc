import Applicability.Text.DecimalDigit
import Applicability.Text.Pattern
import Applicability.Text.WordChar

namespace Applicability.Selection

open Text

def code (letter : Char) : Pattern := fun before s =>
  match s with
  | [] => 0
  | c :: cs =>
    if c == letter && isOpenSide before then
      match (cs.takeWhile isDigit).length with
      | 0 => 0
      | n + 1 => if isOpenSide (cs.drop (n + 1)).head? then n + 2 else 0
    else 0

def firsts [BEq α] : List α → List α
  | [] => []
  | x :: xs => x :: (firsts xs).filter (· != x)

def codes (letter : Char) (comment : String) : List String :=
  (firsts ((code letter).allIn comment.toList)).map String.ofList

def dSelections (comment : String) : List String :=
  codes 'D' comment

def eSelections (comment : String) : List String :=
  codes 'E' comment

end Applicability.Selection
