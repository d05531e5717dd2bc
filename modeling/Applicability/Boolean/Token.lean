import Applicability.Text.Blank

namespace Applicability.Boolean

inductive Token where
  | value (b : Bool)
  | conj
  | disj
  | neg
  | opening
  | closing
  deriving DecidableEq, Repr

def Token.name : Token → String
  | value true => "True"
  | value false => "False"
  | conj => "And"
  | disj => "Or"
  | neg => "Not"
  | opening => "Open"
  | closing => "Close"

def maxDepth : Nat := 256

inductive Error where
  | empty
  | unexpectedInput (shown : String)
  | unexpectedEnd
  | unexpectedToken (t : Token)
  | tooDeep
  deriving DecidableEq, Repr

def Error.message : Error → String
  | empty => "empty expression"
  | unexpectedInput shown => "unexpected input '" ++ shown ++ "'"
  | unexpectedEnd => "unexpected end of expression"
  | unexpectedToken t => "unexpected token " ++ t.name
  | tooDeep => "expression nested deeper than " ++ toString maxDepth ++ " levels"

def isWordPart (c : Char) : Bool :=
  c.isAlphanum || c == '_' || c == '.'

def tokenAt? (s : List Char) : Option (Token × Nat) :=
  match s with
  | '&' :: '&' :: _ => some (.conj, 1)
  | '|' :: '|' :: _ => some (.disj, 1)
  | '!' :: _ => some (.neg, 0)
  | '(' :: _ => some (.opening, 0)
  | ')' :: _ => some (.closing, 0)
  | _ =>
    match Text.upper (s.takeWhile isWordPart) with
    | ['T', 'R', 'U', 'E'] => some (.value true, 3)
    | ['F', 'A', 'L', 'S', 'E'] => some (.value false, 4)
    | _ => none

def shownLength : Nat := 24

def tokensFrom : Nat → List Char → Except Error (List Token)
  | _, [] => .ok []
  | skip + 1, _ :: cs => tokensFrom skip cs
  | 0, c :: cs =>
    if Text.isBlank c then tokensFrom 0 cs
    else match tokenAt? (c :: cs) with
      | some (t, n) =>
        match tokensFrom n cs with
        | .ok ts => .ok (t :: ts)
        | .error e => .error e
      | none => .error (.unexpectedInput (String.ofList ((c :: cs).take shownLength)))

def tokens (s : List Char) : Except Error (List Token) :=
  tokensFrom 0 s

end Applicability.Boolean
