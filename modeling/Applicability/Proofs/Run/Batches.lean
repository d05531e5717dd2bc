import Applicability.Proofs.Run.Outcomes

namespace Applicability.Fallback

def answerAt : Except Service.Error (List Service.Parsed) → Nat → CachedParse
  | .ok results, i =>
    match results[i]? with
    | some p => .ofParsed p
    | none => .failed "parser returned no result for expression"
  | .error e, _ => .failed e.message

inductive Queued (batchSize : Nat) : BatchQueue → List String → Prop where
  | new : Queued batchSize (.new batchSize) []
  | enqueue {q : BatchQueue} {sent : List String} (h : Queued batchSize q sent) (key : String) :
      Queued batchSize (q.enqueue key) sent
  | hit {q : BatchQueue} {sent : List String} (h : Queued batchSize q sent) :
      Queued batchSize q.recordHit sent
  | flush {σ : Type} {q : BatchQueue} {sent : List String} (h : Queued batchSize q sent) (service : Service σ)
      (f : Fallback σ) : Queued batchSize (f.flush service q).1 (sent ++ q.pending)

section Queues

variable {batchSize : Nat} {q : BatchQueue} {sent : List String}

theorem Queued.consistent (h : Queued batchSize q sent) : q.Consistent := by
  induction h with
  | new => exact BatchQueue.consistent_new batchSize
  | enqueue _ key ih => exact ih.enqueue key
  | hit _ ih => exact ih.recordHit
  | flush _ service f ih => exact ih.flush service f

theorem flush_cacheMisses {σ : Type} (service : Service σ) (q : BatchQueue) (f : Fallback σ) :
    (f.flush service q).1.stats.cacheMisses = q.stats.cacheMisses := by
  by_cases hq : q.pending = []
  · rw [flush_of_nil hq]
  · rw [flush_of_ne_nil hq]
    rfl

theorem Queued.cacheMisses_eq (h : Queued batchSize q sent) :
    q.stats.cacheMisses = sent.length + q.pending.length := by
  -- A miss is counted when a key begins to wait, and a call moves the keys that wait to those sent.
  induction h with
  | new => rfl
  | @enqueue q sent hq key ih =>
    by_cases hkey : key ∈ q.pending
    · rw [hq.consistent.enqueue_of_mem hkey, ih]
    · rw [hq.consistent.enqueue_of_not_mem hkey, List.length_append, List.length_singleton, ih, Nat.add_assoc]
  | hit _ ih => exact ih
  | flush _ service f ih =>
    rw [flush_cacheMisses, flush_pending, ih, List.length_append, List.length_nil, Nat.add_zero]

end Queues

section Responses

variable {keys : List String} (response : Except Service.Error (List Service.Parsed))

theorem entries_eq_mapIdx (keys : List String) :
    entries keys response = keys.mapIdx fun i key => (key, answerAt response i) := by
  cases response with
  | ok results => rfl
  | error e => apply List.ext_getElem <;> simp [entries, answerAt]

theorem mem_entries_getElem {i : Nat} (h : i < keys.length) : (keys[i], answerAt response i) ∈ entries keys response := by
  rw [entries_eq_mapIdx, List.mem_mapIdx]
  exact ⟨i, h, rfl⟩

theorem entries_take (keys : List String) :
    entries keys (response.map (List.take keys.length)) = entries keys response := by
  cases response with
  | error e => rfl
  | ok results =>
    rw [entries_eq_mapIdx, entries_eq_mapIdx]
    apply List.ext_getElem
    · simp
    · intro i hi hi'
      rw [List.length_mapIdx] at hi
      simp [Except.map, answerAt, hi]

theorem countP_entries (keys : List String) :
    (entries keys response).countP (fun e => e.2.isFailure) =
      (List.range keys.length).countP fun i => (answerAt response i).isFailure := by
  have hmap : (entries keys response).map (·.2) = (List.range keys.length).map (answerAt response) := by
    rw [entries_eq_mapIdx]
    apply List.ext_getElem
    · simp
    · intro i hi hi'
      simp
  have hcount := congrArg (List.countP CachedParse.isFailure) hmap
  rwa [List.countP_map, List.countP_map] at hcount

end Responses

variable {σ : Type}

/-- What a call for the keys of a queue leaves behind, given the response to it. -/
structure Answered (q : BatchQueue) (response : Except Service.Error (List Service.Parsed)) (f : Fallback σ)
    (q' : BatchQueue) (f' : Fallback σ) : Prop where
  written : ∀ (i : Nat) (h : i < q.pending.length),
    f'.cache.get? q.pending[i] = some ⟨answerAt response i, none⟩
  surplus : f'.cache = f.cache.insertParses (entries q.pending (response.map (List.take q.pending.length)))
  untouched : ∀ key, key ∉ q.pending → f'.cache.get? key = f.cache.get? key
  calls : f'.calls = f.calls ++ [.batch q.pending]
  emptied : q'.pending = []
  batchSize : q'.batchSize = q.batchSize
  accepts : (q.pending.foldl .enqueue q').pending = q.pending ∧
    (q.pending.foldl .enqueue q').stats.cacheMisses = q'.stats.cacheMisses + q.pending.length
  parserCalls : q'.stats.parserCalls = q.stats.parserCalls + 1
  failures : q'.stats.failures =
    q.stats.failures + (List.range q.pending.length).countP fun i => (answerAt response i).isFailure
  cacheHits : q'.stats.cacheHits = q.stats.cacheHits
  cacheMisses : q'.stats.cacheMisses = q.stats.cacheMisses

theorem answered_flush {q : BatchQueue} (hnodup : q.pending.Nodup) (hne : q.pending ≠ []) (service : Service σ)
    (f : Fallback σ) :
    Answered q (service.batch q.pending f.service).1 f (f.flush service q).1 (f.flush service q).2 := by
  have hkeys : (batchEntries service q f).map (·.1) = q.pending := entries_keys _ _
  have hcount := countP_entries (service.batch q.pending f.service).1 q.pending
  have haccepts := (q.consistent_flushed ((batchEntries service q f).countP fun e => e.2.isFailure)).foldl_enqueue
    hnodup fun _ _ => List.not_mem_nil
  rw [flush_of_ne_nil hne]
  refine ⟨?_, ?_, ?_, rfl, rfl, rfl, haccepts, rfl, ?_, rfl, rfl⟩
  · intro i h
    exact get?_insertParses_of_mem (by rwa [hkeys]) (mem_entries_getElem _ h)
  · rw [entries_take]
    rfl
  · intro key hkey
    exact get?_insertParses_of_not_mem (by rwa [hkeys])
  · rw [← hcount]
    rfl

/-- The keys that wait are distinct and just those that count as seen. Whatever a service answers to them, each answer
is kept for the key at its position and for no other, and the misses are the keys that have left the queue and those
that wait in it. -/
theorem flush_by_position {batchSize : Nat} {q : BatchQueue} {sent : List String} (h : Queued batchSize q sent)
    (service : Service σ) (f : Fallback σ) :
    q.pending.Nodup ∧
      (∀ key, key ∈ q.seen ↔ key ∈ q.pending) ∧
      q.stats.cacheMisses = sent.length + q.pending.length ∧
      (q.pending = [] → f.flush service q = (q, f)) ∧
      (q.pending ≠ [] →
        Answered q (service.batch q.pending f.service).1 f (f.flush service q).1 (f.flush service q).2) :=
  ⟨h.consistent.nodup, h.consistent.mem_seen_iff, h.cacheMisses_eq, flush_of_nil,
    fun hne => answered_flush h.consistent.nodup hne service f⟩

theorem flush_by_position_short :
    let service : Service Unit :=
      { name := "parser"
        one := fun _ s => (.error (.unavailable "late"), s)
        batch := fun _ s => (.ok [⟨"A.1", "perhaps", "", []⟩], s) }
    let first := (((BatchQueue.new 2).enqueue "rain").enqueue "rain").recordHit.enqueue "fog"
    let f := ((start ()).flush service first).2
    let q := (((start ()).flush service first).1.enqueue "snow").enqueue "rain"
    Queued 2 q ["rain", "fog"] ∧ q.pending = ["snow", "rain"] ∧ q.stats.cacheMisses = 4 ∧
      (f.flush service q).2.cache.get? "snow" =
        some ⟨.failed "parser returned invalid THEN value 'perhaps'", none⟩ ∧
      (f.flush service q).2.cache.get? "rain" =
        some ⟨.failed "parser returned no result for expression", none⟩ := by
  intro service first f q
  -- After a batch of two keys, `rain` waits again, behind `snow`, and the one answer to their batch is not usable.
  have hfirst : Queued 2 first [] := (((Queued.new.enqueue "rain").enqueue "rain").hit).enqueue "fog"
  have hq : Queued 2 q ["rain", "fog"] := ((hfirst.flush service (start ())).enqueue "snow").enqueue "rain"
  have hpending : q.pending = ["snow", "rain"] := by decide +kernel
  have hlength : q.pending.length = 2 := by rw [hpending]; rfl
  obtain ⟨-, -, hmisses, -, hflush⟩ := flush_by_position hq service f
  have hanswered := hflush (by rw [hpending]; exact List.cons_ne_nil _ _)
  have hsnow := hanswered.written 0 (by omega)
  have hrain := hanswered.written 1 (by omega)
  have hunusable : answerAt (service.batch q.pending f.service).1 0 =
      .failed "parser returned invalid THEN value 'perhaps'" := by decide +kernel
  rw [hunusable] at hsnow
  simp only [hpending, List.getElem_cons_zero, List.getElem_cons_succ] at hsnow hrain
  exact ⟨hq, hpending, hmisses.trans (by rw [hlength]; rfl), hsnow, hrain⟩

end Applicability.Fallback
