import Applicability.Decimal.Digits
import Applicability.Decimal.Unsigned
import Applicability.Json.Quoted
import Applicability.Text.Shown
import Applicability.Yaml.Node

namespace Applicability.Yaml

namespace Plain

open Decimal (unsign ofDigits bound64 bound128)

def isNull (s : String) : Bool :=
  ["null", "Null", "NULL", "~"].contains s

def bool? (s : String) : Option Bool :=
  if ["true", "True", "TRUE"].contains s then some true
  else if ["false", "False", "FALSE"].contains s then some false
  else none

def inBase? (base : Nat) (s : List Char) : Option Nat :=
  if s.isEmpty then none
  else s.foldlM (fun n c => (Json.Quoted.hexValue? c).bind fun d =>
    if d < base then some (n * base + d) else none) 0

def magnitude? : List Char → Option Nat
  | '0' :: 'x' :: digits => inBase? 16 digits
  | '0' :: 'o' :: digits => inBase? 8 digits
  | '0' :: 'b' :: digits => inBase? 2 digits
  | '0' :: _ :: _ => none
  | digits => inBase? 10 digits

def unsigned? (s : String) : Option Nat :=
  magnitude? (unsign s.toList)

def negated? (s : String) : Option Nat :=
  match s.toList with
  | '-' :: rest => magnitude? rest
  | _ => none

def isPadded (s : List Char) : Bool :=
  let digits := match s with
    | '-' :: rest | '+' :: rest => rest
    | _ => s
  2 ≤ digits.length && digits.head? == some '0' && digits.all Char.isDigit

def exponent? : List Char → Option Int
  | [] => some 0
  | c :: rest =>
    if c == 'e' || c == 'E' then
      match rest with
      | '-' :: digits => (inBase? 10 digits).map fun n => -(n : Int)
      | digits => (inBase? 10 (unsign digits)).map Int.ofNat
    else none

def exponentLimit : Nat := 100000

def finite? (negative : Bool) (n : Nat) (e : Int) : Option Binary64 :=
  let magnitude :=
    if n = 0 then 0
    else Float.ofScientific n (e < 0) (min e.natAbs exponentLimit)
  if magnitude.isInf then none
  else some (.ofFloat (if negative then -magnitude else magnitude))

def decimal? (s : List Char) : Option Binary64 :=
  let (negative, s) := match s with
    | '-' :: rest => (true, rest)
    | '+' :: rest => (false, rest)
    | s => (false, s)
  let whole := s.takeWhile Char.isDigit
  let (fraction, rest) := match s.dropWhile Char.isDigit with
    | '.' :: rest => (rest.takeWhile Char.isDigit, rest.dropWhile Char.isDigit)
    | rest => ([], rest)
  if whole.isEmpty && fraction.isEmpty then none
  else (exponent? rest).bind fun e =>
    finite? negative (ofDigits (whole ++ fraction)) (e - fraction.length)

def floatFormat : Decimal.Format where
  signedZero := true
  leastPoint := none
  greatestPoint := none
  scientific digits _ := digits

def float? (s : String) : Option String :=
  if [".inf", ".Inf", ".INF", "+.inf", "+.Inf", "+.INF"].contains s then some "inf"
  else if ["-.inf", "-.Inf", "-.INF"].contains s then some "-inf"
  else if [".nan", ".NaN", ".NAN"].contains s then some "NaN"
  else if isPadded s.toList then none
  else (decimal? s.toList).map (floatFormat.write Decimal.shortest)

def integer? (s : String) : Option (Int × String) :=
  match unsigned? s, negated? s with
  | some n, _ =>
    if n < bound64 then some (n, "") else if n < bound128 then some (n, " as u128") else none
  | none, some n =>
    if 2 * n ≤ bound64 then some (-n, "") else if 2 * n ≤ bound128 then some (-n, " as i128") else none
  | none, none => none

def describe (s : String) : String :=
  if s.isEmpty || isNull s then "unit value"
  else match bool? s, integer? s, float? s with
    | some b, _, _ => "boolean `" ++ (if b then "true" else "false") ++ "`"
    | none, some (n, note), _ => "integer `" ++ toString n ++ "`" ++ note
    | none, none, some x => "floating point `" ++ x ++ "`"
    | none, none, none => "string " ++ Text.showQuoted s

end Plain

def Node.describe : Node → String
  | scalar s true => Plain.describe s
  | scalar s false => "string " ++ Text.showQuoted s
  | sequence _ => "sequence"
  | mapping _ => "map"

end Applicability.Yaml
