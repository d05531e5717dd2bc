import Applicability.Proofs.Lists
import Applicability.Proofs.Run.History

namespace Applicability

variable {σ : Type}

def Condition.Evaluation.key? : Condition.Evaluation → Option String
  | .resolved _ => none
  | .deferred key => some key

namespace Fallback

def fails (f : Fallback σ) (key : String) : Bool :=
  (f.parse? key).any (·.isFailure)

def absent (f : Fallback σ) (keys : List String) : List String :=
  (keys.filter fun key => !f.cache.contains key).eraseDups

variable {f : Fallback σ} {keys : List String} {key : String}

theorem absent_concat_of_known (h : f.cache.contains key = true ∨ key ∈ f.absent keys) :
    f.absent (keys ++ [key]) = f.absent keys := by
  rw [absent, List.filter_append]
  by_cases hc : f.cache.contains key = true
  · simp [hc, absent]
  · have hmem : key ∈ keys.filter fun key => !f.cache.contains key := by
      rcases h with h | h
      · exact absurd h hc
      · rwa [absent, List.mem_eraseDups] at h
    have hnew : [key].filter (fun key => !f.cache.contains key) = [key] := by simp [hc]
    rw [hnew, Lists.eraseDups_concat_of_mem hmem, absent]

theorem absent_concat_of_new (hc : f.cache.contains key = false) (h : key ∉ f.absent keys) :
    f.absent (keys ++ [key]) = f.absent keys ++ [key] := by
  have hmem : key ∉ keys.filter fun key => !f.cache.contains key := by
    rwa [absent, List.mem_eraseDups] at h
  have hnew : [key].filter (fun key => !f.cache.contains key) = [key] := by simp [hc]
  rw [absent, List.filter_append, hnew, Lists.eraseDups_concat_of_not_mem hmem, absent]

theorem countP_batchEntries (service : Service σ) {q : BatchQueue} (hq : q.pending.Nodup) :
    (batchEntries service q f).countP (fun e => e.2.isFailure) =
      q.pending.countP (f.flush service q).2.fails := by
  have hkeys : (batchEntries service q f).map (·.1) = q.pending := entries_keys _ _
  have hcount : ((batchEntries service q f).map (·.1)).countP (f.flush service q).2.fails =
      (batchEntries service q f).countP fun e => e.2.isFailure := by
    rw [List.countP_map]
    apply List.countP_congr
    intro e he
    have hp : (f.flush service q).2.parse? e.1 = some e.2 := flush_parse?_of_mem hq he
    simp [fails, hp]
  rw [← hcount, hkeys]

end Fallback

namespace Run

open Catalog Condition

/-- What has been sent and counted since the run started with `start`, where `keys` were to be asked for. -/
structure Tally (start : Fallback σ) (keys : List String) (q : BatchQueue) (f : Fallback σ)
    (sent : List (List String)) : Prop where
  calls_eq : f.calls = start.calls ++ sent.map .batch
  keys_eq : sent.flatten ++ q.pending = keys
  known : ∀ key, (f.parse? key).isSome ↔ (start.parse? key).isSome ∨ key ∈ sent.flatten
  parserCalls_eq : q.stats.parserCalls = sent.length
  cacheMisses_eq : q.stats.cacheMisses = keys.length
  failures_eq : q.stats.failures = sent.flatten.countP f.fails

section Tallies

variable {service : Service σ} {profile : Profile} {start f f' : Fallback σ} {keys : List String}
  {q q' : BatchQueue} {sent : List (List String)} {evaluation : Evaluation} {state : CaseState}

theorem tally_start (batchSize : Nat) (f : Fallback σ) : Tally f [] (.new batchSize) f [] := by
  constructor <;> simp [BatchQueue.new, FallbackStats.zero]

theorem Tally.enqueue {key : String} (h : Tally start keys q f sent) (hc : q.Consistent) (hk : key ∉ q.pending) :
    Tally start (keys ++ [key]) (q.enqueue key) f sent := by
  have hkeys := h.keys_eq
  have hmisses := h.cacheMisses_eq
  rw [hc.enqueue_of_not_mem hk]
  refine ⟨h.calls_eq, ?_, h.known, h.parserCalls_eq, ?_, h.failures_eq⟩
  · rw [← hkeys, List.append_assoc]
  · rw [List.length_append, List.length_singleton, hmisses]

theorem Tally.flush (h : Tally start keys q f sent) (hnodup : q.pending.Nodup)
    (hopen : ∀ key ∈ q.pending, f.parse? key = none) (hne : q.pending ≠ []) :
    Tally start keys (f.flush service q).1 (f.flush service q).2 (sent ++ [q.pending]) := by
  have hflatten : (sent ++ [q.pending]).flatten = sent.flatten ++ q.pending := by simp
  have hfails : ∀ key ∈ sent.flatten, (f.flush service q).2.fails key = f.fails key := by
    intro key hkey
    have hsome := (h.known key).mpr (.inr hkey)
    have hnot : key ∉ q.pending := by
      intro hmem
      rw [hopen key hmem] at hsome
      cases hsome
    rw [Fallback.fails, Fallback.flush_parse?_of_not_mem hnot, Fallback.fails]
  have hcount := Fallback.countP_batchEntries (f := f) service hnodup
  constructor
  · rw [Fallback.flush_of_ne_nil hne, List.map_append, ← List.append_assoc, ← h.calls_eq]
    rfl
  · rw [Fallback.flush_pending, List.append_nil, hflatten, h.keys_eq]
  · intro key
    rw [hflatten, List.mem_append]
    by_cases hk : key ∈ q.pending
    · obtain ⟨p, -, hp⟩ := Fallback.exists_flush_parse? service f hnodup hk
      simp [hp, hk]
    · rw [Fallback.flush_parse?_of_not_mem hk, h.known key]
      simp [hk]
  · rw [Fallback.flush_of_ne_nil hne, List.length_append, ← h.parserCalls_eq]
    rfl
  · rw [← h.cacheMisses_eq, Fallback.flush_of_ne_nil hne]
    rfl
  · rw [hflatten, List.countP_append, List.countP_congr (fun key hk => by rw [hfails key hk]),
      ← h.failures_eq, ← hcount, Fallback.flush_of_ne_nil hne]
    rfl

theorem Tally.hit (h : Tally start keys q f sent) (name : String) (key : String) :
    Tally start keys q.recordHit (f.resolveCached name profile key).2 sent := by
  have hparse := f.resolveCached_parse? name profile key
  have hfails : (f.resolveCached name profile key).2.fails = f.fails := by
    funext key'
    rw [Fallback.fails, hparse, Fallback.fails]
  constructor
  · rw [Fallback.resolveCached_calls, h.calls_eq]
  · exact h.keys_eq
  · rw [hparse]
    exact h.known
  · exact h.parserCalls_eq
  · exact h.cacheMisses_eq
  · rw [hfails]
    exact h.failures_eq

theorem Tally.old_of_hit {key : String} {p : CachedParse} (h : Tally start keys q f sent)
    (hp : f.parse? key = some p) : start.cache.contains key = true ∨ key ∈ keys := by
  have hsome : (f.parse? key).isSome := by simp [hp]
  rcases (h.known key).mp hsome with hstart | hsent
  · left
    rwa [Fallback.contains_eq]
  · right
    rw [← h.keys_eq]
    exact List.mem_append_left _ hsent

theorem Tally.new_of_miss {key : String} (h : Tally start keys q f sent) (hp : f.parse? key = none)
    (hk : key ∉ q.pending) : start.cache.contains key = false ∧ key ∉ keys := by
  have hnot : ¬ ((start.parse? key).isSome ∨ key ∈ sent.flatten) := by
    intro hor
    have hsome := (h.known key).mpr hor
    rw [hp] at hsome
    cases hsome
  constructor
  · rw [Fallback.contains_eq]
    by_contra hstart
    exact hnot (.inl (by rwa [Bool.not_eq_false] at hstart))
  · rw [← h.keys_eq, List.mem_append]
    rintro (hsent | hpending)
    · exact hnot (.inr hsent)
    · exact hk hpending

theorem Tally.step {asked : List String} (h : Tally start (start.absent asked) q f sent) (hr : Ready q f)
    (hfull : ∀ keys ∈ sent, keys.length = q.batchSize)
    (hs : Step service profile q f evaluation state q' f') :
    ∃ sent', Tally start (start.absent (asked ++ evaluation.key?.toList)) q' f' sent' ∧
      q'.batchSize = q.batchSize ∧ ∀ keys ∈ sent', keys.length = q.batchSize := by
  cases hs with
  | resolved o =>
    rw [Evaluation.key?, Option.toList_none, List.append_nil]
    exact ⟨sent, h, rfl, hfull⟩
  | @hit key p hp =>
    have hold := h.old_of_hit hp
    rw [Evaluation.key?, Option.toList_some, Fallback.absent_concat_of_known hold]
    exact ⟨sent, h.hit _ _, rfl, hfull⟩
  | @waiting key hp hk =>
    have hold : key ∈ start.absent asked := by
      rw [← h.keys_eq]
      exact List.mem_append_right _ hk
    rw [Evaluation.key?, Option.toList_some, Fallback.absent_concat_of_known (.inr hold)]
    exact ⟨sent, h, rfl, hfull⟩
  | @queued key hp hk hl =>
    obtain ⟨hstart, hnew⟩ := h.new_of_miss hp hk
    rw [Evaluation.key?, Option.toList_some, Fallback.absent_concat_of_new hstart hnew]
    exact ⟨sent, h.enqueue hr.consistent hk, q.enqueue_batchSize key, hfull⟩
  | @sent key hp hk hl =>
    obtain ⟨hstart, hnew⟩ := h.new_of_miss hp hk
    have hpending := hr.consistent.enqueue_pending hk
    have hne : (q.enqueue key).pending ≠ [] := by simp [hpending]
    rw [Evaluation.key?, Option.toList_some, Fallback.absent_concat_of_new hstart hnew]
    have henqueue := h.enqueue hr.consistent hk
    refine ⟨_, henqueue.flush (hr.consistent.enqueue key).nodup (hr.unanswered_enqueue hp) hne, ?_, ?_⟩
    · rw [Fallback.flush_batchSize, BatchQueue.enqueue_batchSize]
    · intro keys hkeys
      rcases List.mem_append.mp hkeys with hkeys | hkeys
      · exact hfull keys hkeys
      · rw [List.mem_singleton.mp hkeys, hpending, List.length_append, List.length_singleton, hl]

end Tallies

section FirstPass

variable (service : Service σ) (profile : Profile) (conditions : Conditions)

def askedKeys (ts : List TestCase) : List String :=
  ts.filterMap fun t => (Condition.evaluate profile (expressionFor t.condition conditions)).key?

theorem askedKeys_concat (ts : List TestCase) (t : TestCase) :
    askedKeys profile conditions (ts ++ [t]) = askedKeys profile conditions ts ++
      (Condition.evaluate profile (expressionFor t.condition conditions)).key?.toList := by
  rw [askedKeys, List.filterMap_append, askedKeys]
  cases he : (Condition.evaluate profile (expressionFor t.condition conditions)).key? with
  | none => simp [he]
  | some key => simp [he]

theorem tally_firstPass (batchSize : Nat) (f : Fallback σ) (ts : List TestCase) :
    ∃ sent, Tally f (f.absent (askedKeys profile conditions ts))
        (firstPass service profile conditions ts (.new batchSize) f).2.1
        (firstPass service profile conditions ts (.new batchSize) f).2.2 sent ∧
      (firstPass service profile conditions ts (.new batchSize) f).2.1.batchSize = max batchSize 1 ∧
      ∀ keys ∈ sent, keys.length = max batchSize 1 := by
  apply (firstPass_invariant service profile conditions (I := fun ts _ q f' =>
    ∃ sent, Tally f (f.absent (askedKeys profile conditions ts)) q f' sent ∧
      q.batchSize = max batchSize 1 ∧ ∀ keys ∈ sent, keys.length = max batchSize 1)
    (ready_new batchSize f) ?_ ?_ ts).2
  · exact ⟨[], tally_start batchSize f, rfl, by simp⟩
  · rintro ts t states state q₁ f₁ q₂ f₂ - hready ⟨sent, htally, hsize, hfull⟩ hs
    obtain ⟨sent', htally', hsize', hfull'⟩ := htally.step hready (by rwa [hsize]) hs
    rw [askedKeys_concat]
    exact ⟨sent', htally', hsize'.trans hsize, by rwa [hsize] at hfull'⟩

def isHit (q : BatchQueue) (f : Fallback σ) (before : List TestCase) (t : TestCase) : Bool :=
  (Condition.evaluate profile (expressionFor t.condition conditions)).key?.any
    (firstPass service profile conditions before q f).2.2.cache.contains

def hits (q : BatchQueue) (f : Fallback σ) (ts : List TestCase) : Nat :=
  ts.zipIdx.countP fun p => isHit service profile conditions q f (ts.take p.2) p.1

theorem hits_concat (q : BatchQueue) (f : Fallback σ) (ts : List TestCase) (t : TestCase) :
    hits service profile conditions q f (ts ++ [t]) = hits service profile conditions q f ts +
      if isHit service profile conditions q f ts t then 1 else 0 :=
  Lists.countP_zipIdx_concat (isHit service profile conditions q f) ts t

theorem flush_cacheHits (q : BatchQueue) (f : Fallback σ) :
    (f.flush service q).1.stats.cacheHits = q.stats.cacheHits := by
  by_cases h : q.pending = []
  · rw [Fallback.flush_of_nil h]
  · rw [Fallback.flush_of_ne_nil h]
    rfl

variable {service profile} in
theorem Step.cacheHits {q q' : BatchQueue} {f f' : Fallback σ} {evaluation : Evaluation} {state : CaseState}
    (hs : Step service profile q f evaluation state q' f') :
    q'.stats.cacheHits = q.stats.cacheHits +
      if evaluation.key?.any f.cache.contains then 1 else 0 := by
  cases hs with
  | resolved o => rfl
  | hit hp => simp [Evaluation.key?, Fallback.contains_of_some hp, BatchQueue.recordHit]
  | waiting hp hk => simp [Evaluation.key?, Fallback.contains_of_none hp]
  | queued hp hk hl => simp [Evaluation.key?, Fallback.contains_of_none hp, BatchQueue.enqueue_cacheHits]
  | sent hp hk hl => simp [Evaluation.key?, Fallback.contains_of_none hp, flush_cacheHits, BatchQueue.enqueue_cacheHits]

theorem firstPass_cacheHits (batchSize : Nat) (f : Fallback σ) (ts : List TestCase) :
    (firstPass service profile conditions ts (.new batchSize) f).2.1.stats.cacheHits =
      hits service profile conditions (.new batchSize) f ts := by
  apply (firstPass_invariant service profile conditions (I := fun ts _ q _ =>
    q.stats.cacheHits = hits service profile conditions (.new batchSize) f ts)
    (ready_new batchSize f) rfl ?_ ts).2
  intro ts t states state q₁ f₁ q₂ f₂ heq _ hi hs
  rw [hits_concat, isHit, heq, ← hi]
  exact hs.cacheHits

end FirstPass

end Run

namespace Engine

open Catalog

variable (engine : Engine σ) (items : List Capability.Item) (catalog : Loaded) (f : Fallback σ)

def newKeys : List String :=
  f.absent (Run.askedKeys (Capability.profile items) catalog.conditions catalog.cases)

theorem tally_flushed :
    Run.Tally f (newKeys items catalog f) (engine.flushed items catalog f).1 (engine.flushed items catalog f).2
      (Lists.chunks (max engine.batchSize 1) (newKeys items catalog f)) := by
  obtain ⟨sent, htally, hsize, hfull⟩ := Run.tally_firstPass engine.service (Capability.profile items)
    catalog.conditions engine.batchSize f catalog.cases
  change Run.Tally f (newKeys items catalog f) (engine.passed items catalog f).2.1
    (engine.passed items catalog f).2.2 sent at htally
  change (engine.passed items catalog f).2.1.batchSize = _ at hsize
  have hready := engine.ready_passed items catalog f
  have hpos : 0 < max engine.batchSize 1 := by omega
  have hchunks : Lists.chunks (max engine.batchSize 1) (newKeys items catalog f) =
      sent ++ Lists.chunks (max engine.batchSize 1) (engine.passed items catalog f).2.1.pending := by
    rw [← htally.keys_eq, Lists.chunks_flatten_append hpos hfull]
  rw [hchunks, flushed]
  by_cases hnil : (engine.passed items catalog f).2.1.pending = []
  · rw [hnil, Lists.chunks_nil hpos, List.append_nil, Fallback.flush_of_nil hnil]
    exact htally
  · have hle : (engine.passed items catalog f).2.1.pending.length ≤ max engine.batchSize 1 := by
      have hroom := hready.room
      omega
    rw [Lists.chunks_of_length_le hnil hle]
    exact htally.flush hready.consistent.nodup hready.unanswered hnil

/-- The calls and the counters of a run, whatever the service answers and whatever is in the cache. -/
theorem filter_accounting {r : Request} {catalog : Loaded} (hload : engine.load r = .ok catalog) :
    let b := max engine.batchSize 1
    let keys := newKeys r.items catalog f
    ∃ result, (engine.filter r f).1 = .ok result ∧
      (engine.filter r f).2.calls = f.calls ++ (Lists.chunks b keys).map .batch ∧
      result.summary.stats.parserCalls = (keys.length + b - 1) / b ∧
      result.summary.stats.cacheMisses = keys.length ∧
      result.summary.stats.failures = keys.countP (engine.filter r f).2.fails ∧
      result.summary.stats.cacheHits = Run.hits engine.service (Capability.profile r.items)
        catalog.conditions (.new engine.batchSize) f catalog.cases := by
  intro b keys
  have htally := engine.tally_flushed r.items catalog f
  have hflatten : (Lists.chunks b keys).flatten = keys := by
    have hkeys := htally.keys_eq
    rwa [flushed, Fallback.flush_pending, List.append_nil] at hkeys
  have hfails : (engine.run r.items catalog f).2.fails = (engine.flushed r.items catalog f).2.fails := by
    funext key
    rw [Fallback.fails, run_parse?, Fallback.fails]
  rw [filter_of_load hload]
  refine ⟨_, rfl, ?_, ?_, ?_, ?_, ?_⟩
  · rw [run_calls]
    exact htally.calls_eq
  · rw [run_result, ← Lists.length_chunks]
    exact htally.parserCalls_eq
  · rw [run_result]
    exact htally.cacheMisses_eq
  · rw [run_result, hfails]
    exact htally.failures_eq.trans (by rw [hflatten])
  · rw [run_result]
    exact (Run.flush_cacheHits engine.service _ _).trans (Run.firstPass_cacheHits _ _ _ _ f _)

theorem filter_accounting_two_batches :
    let service : Service Nat :=
      { name := "parser"
        one := fun _ n => (.error (.unavailable "late"), n + 1)
        batch := fun keys n =>
          (if n = 1 then .ok (keys.map fun _ => ⟨"A.1", "M", "O", []⟩) else .error (.unavailable "busy"), n + 1) }
    let engine : Engine Nat := ⟨2, service, none⟩
    let cases : List TestCase :=
      [.of "1" "rain", .of "2" "wind", .of "3" "snow", .of "4" "rain", .of "5" "fog", .of "6" "fog"]
    let r : Request := ⟨[], none, some ⟨.records cases, .records []⟩⟩
    let f := engine.after 0 [.evaluate "wind" []]
    ∃ result, (engine.filter r f).1 = .ok result ∧
      (engine.filter r f).2.calls = f.calls ++ [.batch ["rain", "snow"], .batch ["fog"]] ∧
      result.summary.stats = ⟨2, 2, 3, 1⟩ := by
  intro service engine cases r f
  have hload : engine.load r = .ok ⟨.empty, cases, none⟩ := rfl
  obtain ⟨result, hresult, hcalls, hparser, hmisses, hfailures, hhits⟩ := filter_accounting engine f hload
  have hkeys : newKeys r.items ⟨.empty, cases, none⟩ f = ["rain", "snow", "fog"] := by decide +kernel
  have hfails : ["rain", "snow", "fog"].countP (engine.filter r f).2.fails = 1 := by decide +kernel
  have hcount : Run.hits engine.service (Capability.profile r.items) .empty (.new engine.batchSize) f cases =
      2 := by decide +kernel
  have hsize : max engine.batchSize 1 = 2 := rfl
  have hchunks : Lists.chunks 2 ["rain", "snow", "fog"] = [["rain", "snow"], ["fog"]] := by decide
  have hstats : result.summary.stats = ⟨result.summary.stats.parserCalls, result.summary.stats.cacheHits,
      result.summary.stats.cacheMisses, result.summary.stats.failures⟩ := rfl
  rw [hkeys] at hcalls hparser hmisses hfailures
  refine ⟨result, hresult, ?_, ?_⟩
  · rw [hcalls, hsize, hchunks]
    rfl
  · rw [hstats, hparser, hsize, hmisses, hfailures, hhits.trans hcount, hfails]
    rfl

end Engine

end Applicability
