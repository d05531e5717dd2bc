/-!
Patterns and the non-overlapping matches of a pattern in a text, found from left to right.

A pattern is asked at each place how many characters its match takes there. `Pattern.pieces` cuts a
text at the matches; listing, testing and replacing matches are folds over these pieces.
-/

namespace Applicability.Text

/-- The width of the match at the head of a text, given the character before it. Zero is no match. -/
abbrev Pattern := Option Char → List Char → Nat

inductive Piece where
  | plain (c : Char)
  | found (before : Option Char) (text after : List Char)
  deriving DecidableEq, Repr

namespace Piece

def text : Piece → List Char
  | plain c => [c]
  | found _ t _ => t

def isFound : Piece → Bool
  | plain _ => false
  | found .. => true

def match? : Piece → Option (List Char)
  | plain _ => none
  | found _ t _ => some t

end Piece

namespace Pattern

def piecesFrom (p : Pattern) : Option Char → Nat → List Char → List Piece
  | _, _, [] => []
  | _, skip + 1, c :: cs => piecesFrom p (some c) skip cs
  | before, 0, c :: cs =>
    match p before (c :: cs) with
    | 0 => .plain c :: piecesFrom p (some c) 0 cs
    | n + 1 => .found before (c :: cs.take n) (cs.drop n) :: piecesFrom p (some c) n cs

def pieces (p : Pattern) (s : List Char) : List Piece :=
  piecesFrom p none 0 s

def allIn (p : Pattern) (s : List Char) : List (List Char) :=
  (pieces p s).filterMap Piece.match?

def occursIn (p : Pattern) (s : List Char) : Bool :=
  (pieces p s).any Piece.isFound

def replaceIn (p : Pattern) (f : Option Char → List Char → List Char → List Char) (s : List Char) :
    List Char :=
  (pieces p s).flatMap fun
    | .plain c => [c]
    | .found before text after => f before text after

def cutFrom? (p : Pattern) : Option Char → List Char → Option (List Char × List Char)
  | _, [] => none
  | before, c :: cs =>
    if p before (c :: cs) = 0 then
      (cutFrom? p (some c) cs).map fun r => (c :: r.1, r.2)
    else some ([], c :: cs)

def cut? (p : Pattern) (s : List Char) : Option (List Char × List Char) :=
  cutFrom? p none s

def orElse (p q : Pattern) : Pattern := fun before s =>
  match p before s with
  | 0 => q before s
  | n + 1 => n + 1

end Pattern

end Applicability.Text
