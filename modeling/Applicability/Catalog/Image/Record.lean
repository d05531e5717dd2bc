import Applicability.Catalog.Database

namespace Applicability.Catalog.Image

def bigEndian (bytes : List UInt8) : Nat :=
  bytes.foldl (fun n b => n * 256 + b.toNat) 0

def signedBigEndian (bytes : List UInt8) : Int :=
  let n := bigEndian bytes
  let bound := Nat.pow 256 bytes.length
  if 2 * n < bound then n else n - bound

def readNumberFrom : Nat → Nat → List UInt8 → Nat × List UInt8
  | _, n, [] => (n, [])
  | 0, n, b :: rest => (n * 256 + b.toNat, rest)
  | left + 1, n, b :: rest =>
    if b.toNat < 128 then (n * 128 + b.toNat, rest)
    else readNumberFrom left (n * 128 + (b.toNat - 128)) rest

def readNumber (bytes : List UInt8) : Nat × List UInt8 :=
  readNumberFrom 8 0 bytes

def readNumbers : Nat → List UInt8 → List Nat
  | 0, _ => []
  | _ + 1, [] => []
  | bound + 1, bytes =>
    let (n, rest) := readNumber bytes
    n :: readNumbers bound rest

def textCell (bytes : List UInt8) : Cell :=
  match String.fromUTF8? ⟨bytes.toArray⟩ with
  | some s => .text s
  | none => .blob ""

def integerWidth (kind : Nat) : Nat :=
  if kind ≤ 4 then kind else if kind = 5 then 6 else 8

def cellWidth (kind : Nat) : Nat :=
  if 12 ≤ kind then (kind - 12) / 2
  else if kind ≤ 6 then integerWidth kind
  else if kind = 7 then 8
  else 0

def cellOf (kind : Nat) (bytes : List UInt8) : Cell :=
  match kind with
  | 0 => .null
  | 7 => .real ⟨(bigEndian bytes).toUInt64⟩
  | 8 => .integer 0
  | 9 => .integer 1
  | n =>
    if n ≤ 6 then .integer (signedBigEndian bytes)
    else if n % 2 = 1 then textCell bytes
    else .blob ""

def cells : List Nat → List UInt8 → List Cell
  | [], _ => []
  | kind :: kinds, bytes =>
    cellOf kind (bytes.take (cellWidth kind)) :: cells kinds (bytes.drop (cellWidth kind))

def record (bytes : List UInt8) : List Cell :=
  let (length, _) := readNumber bytes
  cells ((readNumbers length (bytes.take length)).drop 1) (bytes.drop length)

end Applicability.Catalog.Image
