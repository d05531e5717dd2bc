import Applicability.Proofs.Fallback.Parses

namespace Applicability.BatchQueue

/-- The keys that have been seen since the last call are those that wait, each of them once. -/
structure Consistent (q : BatchQueue) : Prop where
  nodup : q.pending.Nodup
  mem_seen_iff : ∀ key, key ∈ q.seen ↔ key ∈ q.pending

theorem consistent_new (batchSize : Nat) : (new batchSize).Consistent :=
  ⟨List.nodup_nil, fun _ => Iff.rfl⟩

theorem consistent_flushed (q : BatchQueue) (failures : Nat) : (q.flushed failures).Consistent :=
  ⟨List.nodup_nil, fun _ => Iff.rfl⟩

theorem enqueue_batchSize (q : BatchQueue) (key : String) : (q.enqueue key).batchSize = q.batchSize := by
  rw [enqueue]
  split <;> rfl

theorem enqueue_cacheHits (q : BatchQueue) (key : String) :
    (q.enqueue key).stats.cacheHits = q.stats.cacheHits := by
  rw [enqueue]
  split <;> rfl

namespace Consistent

variable {q : BatchQueue} {key key' : String}

theorem enqueue_of_mem (h : q.Consistent) (hk : key ∈ q.pending) : q.enqueue key = q := by
  have hseen : key ∈ q.seen := (h.mem_seen_iff key).mpr hk
  simp [BatchQueue.enqueue, hseen]

theorem enqueue_of_not_mem (h : q.Consistent) (hk : key ∉ q.pending) :
    q.enqueue key = { q with
      pending := q.pending ++ [key]
      seen := key :: q.seen
      stats := { q.stats with cacheMisses := q.stats.cacheMisses + 1 } } := by
  have hseen : key ∉ q.seen := fun hmem => hk ((h.mem_seen_iff key).mp hmem)
  simp [BatchQueue.enqueue, hseen]

theorem enqueue_pending (h : q.Consistent) (hk : key ∉ q.pending) :
    (q.enqueue key).pending = q.pending ++ [key] := by
  rw [h.enqueue_of_not_mem hk]

theorem mem_enqueue (h : q.Consistent) : key' ∈ (q.enqueue key).pending ↔ key' ∈ q.pending ∨ key' = key := by
  by_cases hk : key ∈ q.pending
  · rw [h.enqueue_of_mem hk]
    constructor
    · exact .inl
    · rintro (hmem | rfl)
      · exact hmem
      · exact hk
  · rw [h.enqueue_pending hk, List.mem_append, List.mem_singleton]

theorem enqueue (h : q.Consistent) (key : String) : (q.enqueue key).Consistent := by
  by_cases hk : key ∈ q.pending
  · rwa [h.enqueue_of_mem hk]
  · rw [h.enqueue_of_not_mem hk]
    constructor
    · apply List.nodup_append.mpr
      refine ⟨h.nodup, by simp, fun a ha b hb hab => hk ?_⟩
      rw [List.mem_singleton] at hb
      rwa [← hb, ← hab]
    · intro key'
      rw [List.mem_cons, List.mem_append, List.mem_singleton, h.mem_seen_iff, or_comm]

theorem recordHit (h : q.Consistent) : q.recordHit.Consistent :=
  ⟨h.nodup, h.mem_seen_iff⟩

theorem flush {σ : Type} (h : q.Consistent) (service : Service σ) (f : Fallback σ) :
    (f.flush service q).1.Consistent := by
  by_cases hq : q.pending = []
  · rwa [Fallback.flush_of_nil hq]
  · rw [Fallback.flush_of_ne_nil hq]
    exact consistent_flushed q _

theorem foldl_enqueue {keys : List String} (h : q.Consistent) (hkeys : keys.Nodup)
    (hnew : ∀ key ∈ keys, key ∉ q.pending) :
    (keys.foldl .enqueue q).pending = q.pending ++ keys ∧
      (keys.foldl .enqueue q).stats.cacheMisses = q.stats.cacheMisses + keys.length := by
  induction keys generalizing q with
  | nil => simp
  | cons key keys ih =>
    obtain ⟨hkey, hkeys⟩ := List.nodup_cons.mp hkeys
    obtain ⟨hhead, hnew⟩ := List.forall_mem_cons.mp hnew
    have hstep := h.enqueue_of_not_mem hhead
    have hrest : ∀ key' ∈ keys, key' ∉ (q.enqueue key).pending := by
      intro key' hkey'
      rw [h.enqueue_pending hhead, List.mem_append, List.mem_singleton]
      rintro (hmem | rfl)
      · exact hnew key' hkey' hmem
      · exact hkey hkey'
    obtain ⟨hpending, hmisses⟩ := ih (h.enqueue key) hkeys hrest
    rw [hstep] at hpending hmisses
    rw [List.foldl_cons, hstep, hpending, hmisses, List.append_assoc, List.singleton_append, List.length_cons]
    exact ⟨rfl, by rw [Nat.add_assoc, Nat.add_comm 1]⟩

end Consistent

end Applicability.BatchQueue
