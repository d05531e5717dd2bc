import Applicability.Json.Numeral
import Applicability.Json.Quoted

namespace Applicability.Json

namespace Reader

def isSpace (c : Char) : Bool :=
  c == ' ' || c == '\n' || c == '\t' || c == '\r'

def skipSpace (s : List Char) : List Char :=
  s.dropWhile isSpace

def ident (node : Node) : List Char → List Char → Node × List Char
  | [], rest => (node, rest)
  | _ :: _, [] => (.broken (Fault.always .endInValue), [])
  | k :: ks, c :: cs =>
    if k == c then ident node ks cs else (.broken (Fault.always .expectedIdent), [])

abbrev Items := List Node × Option Breach

abbrev Members := List (Except Fault String × Node) × Option Breach

def stop {α : Type} (b : Breach) : (List α × Option Breach) × List Char :=
  (([], some b), [])

mutual

def value : Nat → List Char → Node × List Char
  | 0, _ => (.broken (Fault.always .endInValue), [])
  | bound + 1, s =>
    match skipSpace s with
    | [] => (.broken (Fault.always .endInValue), [])
    | 'n' :: rest => ident .null ['u', 'l', 'l'] rest
    | 't' :: rest => ident (.bool true) ['r', 'u', 'e'] rest
    | 'f' :: rest => ident (.bool false) ['a', 'l', 's', 'e'] rest
    | '"' :: rest => Quoted.node rest
    | '-' :: rest => Numeral.node true rest
    | '[' :: rest =>
      let (items, rest) := items bound true rest
      (.list items.1 items.2, rest)
    | '\x7b' :: rest =>
      let (members, rest) := members bound true rest
      (.object members.1 members.2, rest)
    | c :: rest =>
      if c.isDigit then Numeral.node false (c :: rest)
      else (.broken (Fault.always .expectedValue), [])

def items : Nat → Bool → List Char → Items × List Char
  | 0, _, _ => stop (Fault.always .endInList)
  | bound + 1, first, s =>
    match skipSpace s, first with
    | ']' :: rest, _ => (([], none), rest)
    | [], _ => stop (Fault.always .endInList)
    | ',' :: rest, false =>
      match skipSpace rest with
      | ']' :: _ => stop ⟨.trailingComma, .expectedValue⟩
      | [] => stop (Fault.always .endInValue)
      | rest => item bound rest
    | _ :: _, false => stop (Fault.always .expectedListCommaOrEnd)
    | rest, true => item bound rest

def item : Nat → List Char → Items × List Char
  | 0, _ => stop (Fault.always .endInList)
  | bound + 1, s =>
    let (v, rest) := value bound s
    let (more, rest) := items bound false rest
    ((v :: more.1, more.2), rest)

def members : Nat → Bool → List Char → Members × List Char
  | 0, _, _ => stop (Fault.always .endInObject)
  | bound + 1, first, s =>
    match skipSpace s, first with
    | '\x7d' :: rest, _ => (([], none), rest)
    | [], _ => stop (Fault.always .endInObject)
    | ',' :: rest, false =>
      match skipSpace rest with
      | '"' :: rest => member bound rest
      | '\x7d' :: _ => stop ⟨.trailingComma, .keyNotString⟩
      | [] => stop ⟨.endInValue, .endInObject⟩
      | _ => stop (Fault.always .keyNotString)
    | _ :: _, false => stop (Fault.always .expectedObjectCommaOrEnd)
    | '"' :: rest, true => member bound rest
    | _ :: _, true => stop (Fault.always .keyNotString)

def member : Nat → List Char → Members × List Char
  | 0, _ => stop (Fault.always .endInObject)
  | bound + 1, s =>
    match Quoted.scan none none [] s with
    | .broken b => stop b
    | .closed key rest =>
      match skipSpace rest with
      | ':' :: rest =>
        let (v, rest) := value bound rest
        let (more, rest) := members bound false rest
        (((key, v) :: more.1, more.2), rest)
      | [] => (([(key, .broken (Fault.always .endInObject))], none), [])
      | _ => (([(key, .broken (Fault.always .expectedColon))], none), [])

end

end Reader

def Document.ofText (text : String) : Document :=
  let s := text.toList
  let (root, rest) := Reader.value (3 * s.length + 3) s
  ⟨root, !(Reader.skipSpace rest).isEmpty⟩

end Applicability.Json
