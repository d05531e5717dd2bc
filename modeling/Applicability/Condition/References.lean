import Applicability.Capability.Id

namespace Applicability.Condition

open Text Capability

def byteLength (s : List Char) : Nat :=
  s.foldr (fun c n => c.utf8Size + n) 0

def precedes (a b : List Char) : Bool :=
  byteLength b < byteLength a || (byteLength a == byteLength b && decide (a < b))

def insertReference (id : List Char) : List (List Char) → List (List Char)
  | [] => [id]
  | x :: xs =>
    if id == x then x :: xs
    else if precedes id x then id :: x :: xs
    else x :: insertReference id xs

def references (text : List Char) (extra : List (List Char)) : List (List Char) :=
  (idPattern.allIn text ++ (extra.map trim).filter isId).foldr insertReference []

end Applicability.Condition
