import Applicability.Decimal.Unsigned
import Applicability.Json.Node

namespace Applicability.Json.Numeral

open Decimal (digitValue ofDigits bound64)

def maxSignificand : Nat := bound64 - 1

def maxExponent : Nat := 0x7FFFFFFF

structure Scaled where
  significand : Nat
  exponent : Int

def takeInteger : Nat → List Char → Scaled × Bool
  | n, [] => (⟨n, 0⟩, false)
  | n, c :: cs =>
    let m := n * 10 + digitValue c
    if maxSignificand < m then (⟨n, (c :: cs).length⟩, true) else takeInteger m cs

def takeFraction : Scaled → List Char → Scaled
  | s, [] => s
  | s, c :: cs =>
    let m := s.significand * 10 + digitValue c
    if maxSignificand < m then s else takeFraction ⟨m, s.exponent - 1⟩ cs

def largestPower : Nat := 308

def scale : Nat → Float → Int → Option Float
  | 0, x, _ => some x
  | bound + 1, x, e =>
    if e.natAbs ≤ largestPower then
      let power := Float.ofScientific 1 false e.natAbs
      if 0 ≤ e then
        let y := x * power
        if y.isInf then none else some y
      else some (x / power)
    else if x == 0 then some x
    else if 0 ≤ e then none
    else scale bound (x / Float.ofScientific 1 false largestPower) (e + largestPower)

def ofScaled (negative : Bool) (s : Scaled) : Except Fault Number :=
  match scale 8 (Float.ofNat s.significand) s.exponent with
  | none => .error .outOfRange
  | some x => .ok (.float (.ofFloat (if negative then -x else x)))

structure Parts where
  negative : Bool
  integer : List Char
  fraction : Option (List Char)
  exponent : Option (Bool × List Char)

def Parts.value (p : Parts) : Except Fault Number :=
  let (whole, overflow) := takeInteger 0 p.integer
  match p.fraction, p.exponent, overflow with
  | none, none, false =>
    let n := whole.significand
    if !p.negative then .ok (.int n)
    else if n != 0 && 2 * n ≤ bound64 then .ok (.int (-n))
    else .ok (.float (.ofFloat (-Float.ofNat n)))
  | _, _, _ =>
    let s := takeFraction whole (p.fraction.getD [])
    match p.exponent with
    | none => ofScaled p.negative s
    | some (down, digits) =>
      let e := ofDigits digits
      if maxExponent < e then
        if s.significand != 0 && !down then .error .outOfRange
        else ofScaled p.negative ⟨0, 0⟩
      else ofScaled p.negative ⟨s.significand, if down then s.exponent - e else s.exponent + e⟩

def missingDigit (rest : List Char) : Breach :=
  match rest with
  | [] => ⟨.endInValue, .invalidNumber⟩
  | _ => Fault.always .invalidNumber

def exponent? (s : List Char) : Except Breach (Option (Bool × List Char) × List Char) :=
  match s with
  | 'e' :: rest | 'E' :: rest =>
    let (down, rest) := match rest with
      | '+' :: rest => (false, rest)
      | '-' :: rest => (true, rest)
      | rest => (false, rest)
    let digits := rest.takeWhile Char.isDigit
    if digits.isEmpty then .error (missingDigit rest)
    else .ok (some (down, digits), rest.dropWhile Char.isDigit)
  | _ => .ok (none, s)

def fraction? (s : List Char) : Except Breach (Option (List Char) × List Char) :=
  match s with
  | '.' :: rest =>
    let digits := rest.takeWhile Char.isDigit
    if digits.isEmpty then .error (missingDigit rest)
    else .ok (some digits, rest.dropWhile Char.isDigit)
  | _ => .ok (none, s)

def parts (negative : Bool) (s : List Char) : Except Breach (Parts × List Char) := do
  let digits := s.takeWhile Char.isDigit
  let rest := s.dropWhile Char.isDigit
  match digits with
  | [] => .error (missingDigit s)
  | '0' :: _ :: _ => .error (Fault.always .invalidNumber)
  | _ =>
    let (fraction, rest) ← fraction? rest
    let (exponent, rest) ← exponent? rest
    return (⟨negative, digits, fraction, exponent⟩, rest)

def node (negative : Bool) (s : List Char) : Node × List Char :=
  match parts negative s with
  | .error b => (.broken b, [])
  | .ok (p, rest) =>
    match p.value with
    | .ok n => (.number n, rest)
    | .error f => (.unreadable f, rest)

end Applicability.Json.Numeral
