import Applicability.Fallback.Basic
import Applicability.Proofs.KeyMap

namespace Applicability.Fallback

variable {σ : Type}

def parse? (f : Fallback σ) (key : String) : Option CachedParse :=
  (f.cache.get? key).map (·.parse)

theorem contains_eq (f : Fallback σ) (key : String) : f.cache.contains key = (f.parse? key).isSome := by
  rw [parse?, Option.isSome_map, KeyMap.contains]

theorem contains_of_some {f : Fallback σ} {key : String} {p : CachedParse} (h : f.parse? key = some p) :
    f.cache.contains key = true := by
  rw [contains_eq, h]
  rfl

theorem contains_of_none {f : Fallback σ} {key : String} (h : f.parse? key = none) :
    f.cache.contains key = false := by
  rw [contains_eq, h]
  rfl

theorem parse?_start (s : σ) (key : String) : (start s).parse? key = none := rfl

theorem parse?_recordOutcome (f : Fallback σ) (key key' : String) (o : Outcome) :
    ({ f with cache := f.cache.recordOutcome key o } : Fallback σ).parse? key' = f.parse? key' := by
  rw [parse?, parse?, Cache.recordOutcome, KeyMap.get?_modify]
  split
  · cases f.cache.get? key' <;> rfl
  · rfl

section Resolving

variable (name : String) (profile : Profile) (key : String) (f : Fallback σ)

theorem resolveCached_fst :
    (f.resolveCached name profile key).1 = (f.parse? key).map (outcomeOf name profile key) := by
  rw [resolveCached, parse?]
  cases f.cache.get? key <;> rfl

theorem resolveCached_parse? : (f.resolveCached name profile key).2.parse? = f.parse? := by
  funext key'
  rw [resolveCached]
  cases f.cache.get? key with
  | none => rfl
  | some entry => exact parse?_recordOutcome f key key' _

theorem resolveCached_calls : (f.resolveCached name profile key).2.calls = f.calls := by
  rw [resolveCached]
  cases f.cache.get? key <;> rfl

end Resolving

theorem entries_keys (keys : List String) (response : Except Service.Error (List Service.Parsed)) :
    (entries keys response).map (·.1) = keys := by
  apply List.ext_getElem
  · cases response <;> simp [entries]
  · intro i hi hi'
    cases response <;> simp [entries]

theorem exists_entry {keys : List String} {key : String} (h : key ∈ keys)
    (response : Except Service.Error (List Service.Parsed)) : ∃ p, (key, p) ∈ entries keys response := by
  rw [← entries_keys keys response] at h
  obtain ⟨⟨k, p⟩, hmem, rfl⟩ := List.mem_map.mp h
  exact ⟨p, hmem⟩

section Insertion

variable {cache : Cache} {es : List (String × CachedParse)} {key : String}

theorem get?_insertParses_of_mem {p : CachedParse} (hnodup : (es.map (·.1)).Nodup) (h : (key, p) ∈ es) :
    (cache.insertParses es).get? key = some ⟨p, none⟩ := by
  refine KeyMap.get?_insertAll_of_mem ?_ (List.mem_map_of_mem h)
  simpa [List.map_map, Function.comp_def] using hnodup

theorem get?_insertParses_of_not_mem (h : key ∉ es.map (·.1)) :
    (cache.insertParses es).get? key = cache.get? key := by
  refine KeyMap.get?_insertAll_of_not_mem ?_
  simpa [List.map_map, Function.comp_def] using h

end Insertion

section Flushing

variable {service : Service σ} {q : BatchQueue} {f : Fallback σ}

def batchEntries (service : Service σ) (q : BatchQueue) (f : Fallback σ) : List (String × CachedParse) :=
  entries q.pending (service.batch q.pending f.service).1

theorem flush_of_nil (h : q.pending = []) : f.flush service q = (q, f) := by
  simp [flush, BatchQueue.isEmpty, h]

theorem flush_of_ne_nil (h : q.pending ≠ []) :
    f.flush service q = (q.flushed ((batchEntries service q f).countP fun e => e.2.isFailure),
      ⟨f.cache.insertParses (batchEntries service q f), (service.batch q.pending f.service).2,
        f.calls ++ [.batch q.pending]⟩) := by
  simp [flush, BatchQueue.isEmpty, h, batchEntries]

theorem flush_pending : (f.flush service q).1.pending = [] := by
  by_cases h : q.pending = []
  · rw [flush_of_nil h, h]
  · rw [flush_of_ne_nil h]
    rfl

theorem flush_batchSize : (f.flush service q).1.batchSize = q.batchSize := by
  by_cases h : q.pending = []
  · rw [flush_of_nil h]
  · rw [flush_of_ne_nil h]
    rfl

theorem flush_parse?_of_not_mem {key : String} (h : key ∉ q.pending) :
    (f.flush service q).2.parse? key = f.parse? key := by
  by_cases hq : q.pending = []
  · rw [flush_of_nil hq]
  · rw [flush_of_ne_nil hq, parse?, parse?]
    have hkey : key ∉ (batchEntries service q f).map (·.1) := by rwa [batchEntries, entries_keys]
    rw [get?_insertParses_of_not_mem hkey]

theorem flush_parse?_of_mem {key : String} {p : CachedParse} (hq : q.pending.Nodup)
    (h : (key, p) ∈ batchEntries service q f) : (f.flush service q).2.parse? key = some p := by
  have hkeys : (batchEntries service q f).map (·.1) = q.pending := entries_keys _ _
  have hne : q.pending ≠ [] := by
    intro hnil
    rw [hnil, List.map_eq_nil_iff] at hkeys
    rw [hkeys] at h
    cases h
  rw [flush_of_ne_nil hne, parse?, get?_insertParses_of_mem (by rwa [hkeys]) h]
  rfl

theorem exists_flush_parse? (service : Service σ) (f : Fallback σ) {key : String} (hq : q.pending.Nodup)
    (h : key ∈ q.pending) :
    ∃ p, (key, p) ∈ batchEntries service q f ∧ (f.flush service q).2.parse? key = some p := by
  obtain ⟨p, hp⟩ := exists_entry h (service.batch q.pending f.service).1
  exact ⟨p, hp, flush_parse?_of_mem hq hp⟩

end Flushing

end Applicability.Fallback
