namespace Applicability

structure Binary64 where
  bits : UInt64
  deriving DecidableEq, Repr

namespace Binary64

def ofFloat (x : Float) : Binary64 :=
  ⟨x.toBits⟩

def isNegative (x : Binary64) : Bool :=
  0x8000000000000000 ≤ x.bits.toNat

def unit : Nat := 0x10000000000000

def biased (x : Binary64) : Nat :=
  x.bits.toNat / unit % 0x800

def fraction (x : Binary64) : Nat :=
  x.bits.toNat % unit

def significand (x : Binary64) : Nat :=
  if x.biased = 0 then x.fraction else x.fraction + unit

def exponent (x : Binary64) : Int :=
  if x.biased = 0 then -1074 else x.biased - 1075

def isPowerBoundary (x : Binary64) : Bool :=
  x.fraction == 0 && 1 < x.biased

end Binary64

end Applicability
