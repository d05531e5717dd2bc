import Applicability.Text.Keyword
import Applicability.Text.Pattern

namespace Applicability.Condition

open Text

def extendsBefore (c : Char) : Bool :=
  c.isAlphanum || c == '_' || c == '.'

def extendsAfter : List Char → Bool
  | [] => false
  | c :: cs =>
    c.isAlphanum || c == '_' ||
      ((c == '.' || c == '-' || c == '/') && cs.head?.any Char.isDigit)

def occurrence (token : List Char) : Pattern := fun _ s =>
  if token.isPrefixOf s then token.length else 0

def replaceWhole (token replacement haystack : List Char) : List Char :=
  (occurrence token).replaceIn
    (fun before text after =>
      if before.any extendsBefore || extendsAfter after then text else replacement)
    haystack

def replaceWord (keyword : String) (operator : String) (s : List Char) : List Char :=
  (word keyword).replaceIn (fun _ _ _ => operator.toList) s

def writeOperators (s : List Char) : List Char :=
  replaceWord "NOT" "!" (replaceWord "OR" "||" (replaceWord "AND" "&&" s))

def balance (s : List Char) : List Char × Bool :=
  let opens := s.count '('
  let closes := s.count ')'
  if closes < opens then (s ++ List.replicate (opens - closes) ')', true)
  else if opens < closes then (List.replicate (closes - opens) '(' ++ s, true)
  else (s, false)

end Applicability.Condition
