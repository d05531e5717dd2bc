namespace Applicability.Decimal

def bound32 : Nat := 0x100000000

def bound64 : Nat := 0x10000000000000000

def bound128 : Nat := bound64 * bound64

def digitValue (c : Char) : Nat :=
  c.toNat - '0'.toNat

def ofDigits (s : List Char) : Nat :=
  s.foldl (fun n c => n * 10 + digitValue c) 0

def unsign : List Char → List Char
  | '+' :: rest => rest
  | s => s

def readBelow? (bound : Nat) (s : List Char) : Option Nat :=
  let digits := unsign s
  if digits.isEmpty || !digits.all Char.isDigit then none
  else
    let n := ofDigits digits
    if n < bound then some n else none

end Applicability.Decimal
