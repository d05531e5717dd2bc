import Applicability.Condition.Repair
import Applicability.Status

namespace Applicability

structure Rule where
  antecedent : String
  onTrue : Status
  onFalse : Status
  deriving DecidableEq, Repr

inductive Condition where
  | literal (s : Status)
  | rule (r : Rule)
  | freeform (key : String)
  deriving DecidableEq, Repr

namespace Rule

open Text Condition

def afterBlanks? : List Char → Option (List Char)
  | [] => none
  | c :: cs => if isBlank c then some (trimStart cs) else none

def statusAt? (s : List Char) : Option (Status × List Char) :=
  match afterLetters? ['N', '/', 'A'] s, s with
  | some rest, _ => some (.notApplicable, rest)
  | none, [] => none
  | none, c :: cs =>
    if isLetter 'R' c then some (.required, cs)
    else if isLetter 'M' c then some (.mandatory, cs)
    else if isLetter 'O' c then some (.optional, cs)
    else none

def branch? (keyword : String) (s : List Char) : Option (Status × List Char) := do
  let rest ← afterLetters? keyword.toList s
  statusAt? (← afterBlanks? rest)

def branches? (s : List Char) : Option (Status × Status) := do
  let (onTrue, rest) ← branch? "THEN" s
  if (trim rest).isEmpty then return (onTrue, .notApplicable)
  let (onFalse, rest) ← branch? "ELSE" (← afterBlanks? rest)
  if (trim rest).isEmpty then return (onTrue, onFalse)
  none

def splitFrom? : Option Char → List Char → Option (List Char × Status × Status)
  | _, [] => none
  | before, c :: cs =>
    match isOpenSide before, branches? (c :: cs) with
    | true, some (onTrue, onFalse) => some ([], onTrue, onFalse)
    | _, _ => (splitFrom? (some c) cs).map fun r => (c :: r.1, r.2)

def keyword : Pattern :=
  ((word "IF").orElse (word "THEN")).orElse (word "ELSE")

def ofChars? (s : List Char) : Option Rule := do
  let rest ← afterLetters? ['I', 'F'] s
  if !isOpenSide rest.head? then none
  let (antecedent, onTrue, onFalse) ← splitFrom? none rest
  let antecedent := trim antecedent
  if keyword.occursIn antecedent then none
  return ⟨String.ofList antecedent, onTrue, onFalse⟩

end Rule

namespace Condition

open Text

def classify (text : String) : Condition :=
  let s := trim text.toList
  if s.isEmpty then .literal .required
  else match Status.ofLiteral? s with
    | some status => .literal status
    | none =>
      let s := repairChars s
      match Rule.ofChars? s with
      | some r => .rule r
      | none => .freeform (String.ofList s)

end Condition

end Applicability
