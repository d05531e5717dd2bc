namespace Applicability

structure FallbackStats where
  parserCalls : Nat
  cacheHits : Nat
  cacheMisses : Nat
  failures : Nat
  deriving DecidableEq, Repr

def FallbackStats.zero : FallbackStats :=
  ⟨0, 0, 0, 0⟩

def defaultBatchSize : Nat := 10

structure BatchQueue where
  pending : List String
  seen : List String
  batchSize : Nat
  stats : FallbackStats
  deriving DecidableEq, Repr

namespace BatchQueue

def new (batchSize : Nat) : BatchQueue :=
  ⟨[], [], max batchSize 1, .zero⟩

def enqueue (q : BatchQueue) (key : String) : BatchQueue :=
  if q.seen.contains key then q
  else { q with
    pending := q.pending ++ [key]
    seen := key :: q.seen
    stats := { q.stats with cacheMisses := q.stats.cacheMisses + 1 } }

def isFull (q : BatchQueue) : Bool :=
  q.batchSize ≤ q.pending.length

def size (q : BatchQueue) : Nat :=
  q.pending.length

def isEmpty (q : BatchQueue) : Bool :=
  q.pending.isEmpty

def recordHit (q : BatchQueue) : BatchQueue :=
  { q with stats := { q.stats with cacheHits := q.stats.cacheHits + 1 } }

def flushed (q : BatchQueue) (failures : Nat) : BatchQueue :=
  { q with
    pending := []
    seen := []
    stats := { q.stats with
      parserCalls := q.stats.parserCalls + 1
      failures := q.stats.failures + failures } }

end BatchQueue

end Applicability
