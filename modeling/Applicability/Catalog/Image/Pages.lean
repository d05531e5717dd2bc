import Applicability.Catalog.Image.Record

namespace Applicability.Catalog.Image

structure Pages where
  bytes : ByteArray
  pageSize : Nat
  reserved : Nat

namespace Pages

def slice (p : Pages) (start length : Nat) : List UInt8 :=
  (p.bytes.extract start (start + length)).toList

def number (p : Pages) (start width : Nat) : Nat :=
  bigEndian (p.slice start width)

def place (p : Pages) (page : Nat) : Nat :=
  (page - 1) * p.pageSize

def usable (p : Pages) : Nat :=
  p.pageSize - p.reserved

def count (p : Pages) : Nat :=
  p.bytes.size / p.pageSize

def chain (p : Pages) : Nat → Nat → Nat → List UInt8
  | 0, _, _ => []
  | bound + 1, page, length =>
    if page = 0 || length = 0 then []
    else
      let here := min length (p.usable - 4)
      p.slice (p.place page + 4) here ++
        p.chain bound (p.number (p.place page) 4) (length - here)

def localLength (p : Pages) (length : Nat) : Nat :=
  let most := p.usable - 35
  if length ≤ most then length
  else
    let least := (p.usable - 12) * 32 / 255 - 23
    let fitting := least + (length - least) % (p.usable - 4)
    if fitting ≤ most then fitting else least

def row (p : Pages) (start : Nat) : List Cell :=
  let (length, rest) := readNumber (p.slice start p.pageSize)
  let (_, rest) := readNumber rest
  let here := p.localLength length
  let next := bigEndian ((rest.drop here).take 4)
  record (rest.take here ++ p.chain p.count next (length - here))

def maxDepth : Nat := 20

def rowsBelow (p : Pages) : Nat → Nat → List (List Cell)
  | 0, _ => []
  | depth + 1, page =>
    let start := p.place page
    let head := if page = 1 then start + 100 else start
    let entries := List.range (p.number (head + 3) 2)
    match p.number head 1 with
    | 13 => entries.map fun i => p.row (start + p.number (head + 8 + 2 * i) 2)
    | 5 =>
      let children := entries.map fun i => p.number (start + p.number (head + 12 + 2 * i) 2) 4
      (children ++ [p.number (head + 8) 4]).flatMap (p.rowsBelow depth)
    | _ => []

def rows (p : Pages) (root : Nat) : List (List Cell) :=
  p.rowsBelow maxDepth root

def magic : List UInt8 :=
  "SQLite format 3".toUTF8.toList ++ [0]

def sizeOf (n : Nat) : Nat :=
  if n = 1 then 65536 else n

def ofBytes? (bytes : ByteArray) : Option Pages :=
  let p : Pages := ⟨bytes, 512, 0⟩
  let size := sizeOf (p.number 16 2)
  if p.slice 0 magic.length = magic && 512 ≤ size && p.number 56 4 ≤ 1 then
    some ⟨bytes, size, p.number 20 1⟩
  else none

end Pages

end Applicability.Catalog.Image
