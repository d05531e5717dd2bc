import Applicability.Decimal.Binary64

namespace Applicability.Decimal

structure Ratio where
  num : Nat
  den : Nat

def Ratio.scaled (n base : Nat) (e : Int) : Ratio :=
  if 0 ≤ e then ⟨n * Nat.pow base e.toNat, 1⟩ else ⟨n, Nat.pow base (-e).toNat⟩

def Ratio.mul (a b : Ratio) : Ratio :=
  ⟨a.num * b.num, a.den * b.den⟩

def Ratio.lt (a b : Ratio) : Bool :=
  a.num * b.den < b.num * a.den

def Ratio.le (a b : Ratio) : Bool :=
  a.num * b.den ≤ b.num * a.den

def Ratio.floor (a : Ratio) : Nat :=
  a.num / a.den

structure Digits where
  digits : List Char
  point : Int

def leadingZeros (a : Ratio) : Nat → Nat → Nat
  | 0, places => places
  | bound + 1, places =>
    if a.den ≤ a.num * Nat.pow 10 places then places else leadingZeros a bound (places + 1)

def magnitude (a : Ratio) : Int :=
  if a.den ≤ a.num then (Nat.toDigits 10 a.floor).length
  else 1 - (leadingZeros a 400 1 : Nat)

def Digits.ofNat (n : Nat) (e : Int) : Digits :=
  let all := Nat.toDigits 10 n
  ⟨(all.reverse.dropWhile (· == '0')).reverse, all.length + e⟩

structure Neighbourhood where
  low : Ratio
  value : Ratio
  high : Ratio
  closed : Bool

def neighbourhood (x : Binary64) : Neighbourhood :=
  let m := 4 * x.significand
  let unit := fun n => Ratio.scaled n 2 (x.exponent - 2)
  ⟨unit (m - if x.isPowerBoundary then 1 else 2), unit m, unit (m + 2), x.significand % 2 == 0⟩

def Neighbourhood.contains (i : Neighbourhood) (a : Ratio) : Bool :=
  if i.closed then i.low.le a && a.le i.high else i.low.lt a && a.lt i.high

def Neighbourhood.onGrid? (i : Neighbourhood) (e : Int) : Option Nat :=
  let c := (i.value.mul (.scaled 1 10 (-e))).floor
  let at' := fun n => Ratio.scaled n 10 e
  match i.contains (at' c), i.contains (at' (c + 1)) with
  | true, true =>
    let twice := i.value.mul ⟨2, 1⟩
    let middle := at' (2 * c + 1)
    if twice.lt middle || (twice.le middle && c % 2 == 0) then some c else some (c + 1)
  | true, false => some c
  | false, true => some (c + 1)
  | false, false => none

def searchGrids (i : Neighbourhood) (point : Int) : Nat → Nat → Digits
  | 0, count => .ofNat (i.value.mul (.scaled 1 10 (count - point))).floor (point - count)
  | bound + 1, count =>
    match i.onGrid? (point - count) with
    | some n => .ofNat n (point - count)
    | none => searchGrids i point bound (count + 1)

def shortest (x : Binary64) : Digits :=
  let i := neighbourhood x
  searchGrids i (magnitude i.value) 17 1

def rounded (count : Nat) (x : Binary64) : Digits :=
  let value := (neighbourhood x).value
  let e := magnitude value - count
  let doubled := (value.mul (.scaled 2 10 (-e))).floor
  .ofNat ((doubled + 1) / 2) e

def Digits.positional (d : Digits) : List Char :=
  let n : Int := d.digits.length
  if n ≤ d.point then d.digits ++ List.replicate (d.point - n).toNat '0' ++ ['.', '0']
  else if 0 < d.point then d.digits.take d.point.toNat ++ '.' :: d.digits.drop d.point.toNat
  else ['0', '.'] ++ List.replicate (-d.point).toNat '0' ++ d.digits

structure Format where
  signedZero : Bool
  leastPoint : Option Int
  greatestPoint : Option Int
  scientific : List Char → Int → List Char

def Format.write (f : Format) (digits : Binary64 → Digits) (x : Binary64) : String :=
  let sign := if x.isNegative then ['-'] else []
  if x.significand = 0 then
    String.ofList ((if f.signedZero then sign else []) ++ ['0', '.', '0'])
  else
    let d := digits x
    let positional := f.leastPoint.all (· ≤ d.point) && f.greatestPoint.all (d.point ≤ ·)
    String.ofList (sign ++
      if positional then d.positional else f.scientific d.digits (d.point - 1))

end Applicability.Decimal
