import Applicability.Text.Blank
import Applicability.Text.Keyword

/-!
Repair of the text of a condition. Authors break lines, end with a full stop, write `AND(`, and leave out
the parentheses that should close before `THEN`. The repaired text is what the other tiers read, and the
key under which an answer for it is kept.
-/

namespace Applicability.Condition

open Text

def unclosed : List Char → Nat → Nat
  | [], open' => open'
  | c :: cs, open' =>
    if c == '(' then unclosed cs (open' + 1)
    else if c == ')' then unclosed cs (open' - 1)
    else unclosed cs open'

def isStop (c : Char) : Bool :=
  c == '.' || c == ';'

def tidy (s : List Char) : List Char :=
  trimEnd (dropEndWhile isStop (collapse s))

def gluedOperator : Pattern :=
  ((wordAtParen "AND").orElse (wordAtParen "OR")).orElse (wordAtParen "NOT")

def spaceOperators (s : List Char) : List Char :=
  gluedOperator.replaceIn (fun _ text _ => text.dropLast ++ [' ', '(']) s

def closeBeforeThen (s : List Char) : List Char :=
  match (word "THEN").cut? s with
  | none => s
  | some (before, rest) =>
    let before := trimEnd before
    match unclosed before 0 with
    | 0 => s
    | n + 1 => before ++ List.replicate (n + 1) ')' ++ ' ' :: rest

def repairChars (s : List Char) : List Char :=
  closeBeforeThen (spaceOperators (tidy s))

def repair (s : String) : String :=
  String.ofList (repairChars s.toList)

def cacheKey (s : String) : String :=
  repair (trimmed s)

end Applicability.Condition
