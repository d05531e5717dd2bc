import Applicability.Text.Blank

namespace Applicability.Http

inductive Address where
  | web (scheme authority target : String)
  | other (text : String)
  deriving DecidableEq, Repr

namespace Address

def text : Address → String
  | web scheme authority target => scheme ++ "://" ++ authority ++ target
  | other text => text

def encodeByte (b : UInt8) : List Char :=
  ['%', (Nat.digitChar (b.toNat / 16)).toUpper, (Nat.digitChar (b.toNat % 16)).toUpper]

def encodeChar (reserved : List Char) (c : Char) : List Char :=
  if c.toNat < 0x20 || 0x7E < c.toNat || reserved.contains c then
    (String.singleton c).toUTF8.toList.flatMap encodeByte
  else [c]

def reservedInPath : List Char :=
  [' ', '"', '#', '<', '>', '?', '\x60', '\x7b', '\x7d']

def reservedInQuery : List Char :=
  [' ', '"', '#', '<', '>', '\'']

def isStep (steps : List String) (segment : List Char) : Bool :=
  steps.contains (String.ofList (segment.map Char.toLower))

def isStay (segment : List Char) : Bool :=
  isStep [".", "%2e"] segment

def isUp (segment : List Char) : Bool :=
  isStep ["..", ".%2e", "%2e.", "%2e%2e"] segment

def steps : List Char → List (List Char)
  | [] => [[]]
  | c :: rest =>
    if c == '/' || c == '\\' then [] :: steps rest
    else match steps rest with
      | s :: more => (c :: s) :: more
      | [] => [[c]]

def resolve (taken : List (List Char)) : List (List Char) → List (List Char)
  | [] => taken.reverse
  | s :: rest =>
    let taken := if isUp s then taken.tail else taken
    if isUp s || isStay s then resolve (if rest.isEmpty then [] :: taken else taken) rest
    else resolve (s.flatMap (encodeChar reservedInPath) :: taken) rest

def path (s : List Char) : List Char :=
  let inner := match s with
    | '/' :: rest | '\\' :: rest => rest
    | s => s
  (resolve [] (steps inner)).flatMap ('/' :: ·)

def target (s : List Char) : String :=
  let s := s.takeWhile (· != '#')
  let query := match s.dropWhile (· != '?') with
    | '?' :: rest => '?' :: rest.flatMap (encodeChar reservedInQuery)
    | _ => []
  String.ofList (path (s.takeWhile (· != '?')) ++ query)

def isForbiddenInHost (c : Char) : Bool :=
  c.toNat ≤ 0x20 || c.toNat == 0x7F || " #/<>?@[\\]^|%".toList.contains c

def socket? (usual : Nat) (digits : List Char) : Option (List Char) :=
  if digits.isEmpty then some []
  else if digits.all Char.isDigit then
    let n := digits.foldl (fun n c => n * 10 + (c.toNat - '0'.toNat)) 0
    if 65535 < n then none
    else if n = usual then some []
    else some (':' :: Nat.toDigits 10 n)
  else none

def authority? (usual : Nat) (s : List Char) : Option String :=
  let place := (s.reverse.takeWhile (· != '@')).reverse
  let host := place.takeWhile (· != ':')
  if host.isEmpty || host.any isForbiddenInHost then none
  else (socket? usual ((place.dropWhile (· != ':')).drop 1)).map fun socket =>
    String.ofList (host.map Char.toLower ++ socket)

def usualSocket? : String → Option Nat
  | "http" | "ws" => some 80
  | "https" | "wss" => some 443
  | "ftp" => some 21
  | _ => none

def isSchemeChar (c : Char) : Bool :=
  c.isAlphanum || c == '+' || c == '-' || c == '.'

def scheme? (s : List Char) : Option (String × List Char) :=
  match s.dropWhile isSchemeChar with
  | ':' :: rest =>
    let name := s.takeWhile isSchemeChar
    if (name.head?.map Char.isAlpha).getD false then
      some (String.ofList (name.map Char.toLower), rest)
    else none
  | _ => none

def clean (s : List Char) : List Char :=
  let isEdge := fun c : Char => c.toNat ≤ 0x20
  let s := Text.dropEndWhile isEdge (s.dropWhile isEdge)
  s.filter fun c => c != '\t' && c != '\n' && c != '\r'

def ofText? (text : String) : Option Address :=
  match scheme? (clean text.toList) with
  | none => none
  | some (scheme, rest) =>
    match usualSocket? scheme with
    | none => some (.other (scheme ++ ":" ++ String.ofList rest))
    | some usual =>
      let rest := rest.dropWhile fun c => c == '/' || c == '\\'
      let isEnd := fun c : Char => c == '/' || c == '\\' || c == '?' || c == '#'
      match authority? usual (rest.takeWhile (!isEnd ·)) with
      | none => none
      | some authority =>
        let a := web scheme authority (target (rest.dropWhile (!isEnd ·)))
        some (if scheme == "http" || scheme == "https" then a else other a.text)

end Address

end Applicability.Http
