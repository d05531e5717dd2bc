import Applicability.Decimal.Digits
import Applicability.KeyMap

namespace Applicability.Json

inductive Number where
  | int (n : Int)
  | float (x : Binary64)
  deriving DecidableEq, Repr

inductive Value where
  | null
  | bool (b : Bool)
  | number (n : Number)
  | string (s : String)
  | array (items : List Value)
  | object (members : List (String × Value))
  deriving Repr

namespace Number

def exponentText (e : Int) : List Char :=
  'e' :: (if 0 ≤ e then '+' else '-') :: Nat.toDigits 10 e.natAbs

def format : Decimal.Format where
  signedZero := true
  leastPoint := some (-4)
  greatestPoint := some 16
  scientific
    | [d], e => d :: exponentText e
    | d :: ds, e => d :: '.' :: ds ++ exponentText e
    | [], _ => []

def text : Number → String
  | int n => toString n
  | float x => format.write Decimal.shortest x

end Number

namespace Value

def nat (n : Nat) : Value :=
  .number (.int n)

def float (x : Float) : Value :=
  .number (.float (.ofFloat x))

def strings (ss : List String) : Value :=
  .array (ss.map .string)

def optional : Option String → Value
  | some s => .string s
  | none => .null

mutual

def sorted : Value → Value
  | .null => .null
  | .bool b => .bool b
  | .number n => .number n
  | .string s => .string s
  | .array items => .array (sortedItems items)
  | .object members => .object (KeyMap.ofList (sortedMembers members)).toList

def sortedItems : List Value → List Value
  | [] => []
  | v :: vs => sorted v :: sortedItems vs

def sortedMembers : List (String × Value) → List (String × Value)
  | [] => []
  | (k, v) :: rest => (k, sorted v) :: sortedMembers rest

end

end Value

end Applicability.Json
