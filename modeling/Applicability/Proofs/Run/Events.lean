import Applicability.Proofs.Run.History
import Mathlib.Data.List.Nodup
import Mathlib.Data.Set.Insert

namespace Applicability

open Condition

variable {σ : Type}

def Service.Call.keys : Service.Call → List String
  | .one key => [key]
  | .batch keys => keys

inductive Event where
  | sent (key : String)
  | invalidated (expression : String) (found : Bool)
  | cleared
  deriving DecidableEq, Repr

namespace Event

def sentKey? : Event → Option String
  | sent key => some key
  | invalidated _ _ | cleared => none

def residents (keys : Set String) : Event → Set String
  | sent key => insert key keys
  | invalidated expression _ => keys \ {cacheKey expression}
  | cleared => ∅

def Fits (keys : Set String) : Event → Prop
  | sent key => key ∉ keys
  | invalidated expression found => found = true ↔ cacheKey expression ∈ keys
  | cleared => True

def Drops (key : String) : Event → Prop
  | sent _ => False
  | invalidated expression found => cacheKey expression = key ∧ found = true
  | cleared => True

/-- Each event fits the keys that are in the cache after those before it. -/
def Lawful : Set String → List Event → Prop
  | _, [] => True
  | keys, e :: es => e.Fits keys ∧ Lawful (e.residents keys) es

variable {keys : Set String} {es es' : List Event}

theorem lawful_append :
    Lawful keys (es ++ es') ↔ Lawful keys es ∧ Lawful (es.foldl residents keys) es' := by
  induction es generalizing keys with
  | nil => simp [Lawful]
  | cons e es ih => simp only [List.cons_append, Lawful, ih, List.foldl_cons, and_assoc]

theorem foldl_residents_sent (new : List String) :
    (new.map sent).foldl residents keys = keys ∪ {key | key ∈ new} := by
  induction new generalizing keys with
  | nil => simp
  | cons key new ih =>
    rw [List.map_cons, List.foldl_cons, ih, residents]
    ext key'
    simp only [Set.mem_union, Set.mem_insert_iff, Set.mem_ofPred_eq, List.mem_cons]
    tauto

theorem lawful_sent {new : List String} (hnodup : new.Nodup) (hnew : ∀ key ∈ new, key ∉ keys) :
    Lawful keys (new.map sent) := by
  induction new generalizing keys with
  | nil => trivial
  | cons key new ih =>
    obtain ⟨hkey, hnodup⟩ := List.nodup_cons.mp hnodup
    obtain ⟨habsent, hnew⟩ := List.forall_mem_cons.mp hnew
    refine ⟨habsent, ih hnodup fun key' hkey' => ?_⟩
    rw [residents, Set.mem_insert_iff]
    rintro (rfl | hmem)
    · exact hkey hkey'
    · exact hnew key' hkey' hmem

theorem drops_or_resident {key : String} {e : Event} (hkey : key ∈ keys) (h : e.Fits keys) :
    e.Drops key ∨ key ∈ e.residents keys := by
  cases e with
  | sent key' => exact .inr (Set.mem_insert_of_mem _ hkey)
  | cleared => exact .inl trivial
  | invalidated expression found =>
    by_cases hexpression : cacheKey expression = key
    · exact .inl ⟨hexpression, h.mpr (by rwa [hexpression])⟩
    · exact .inr ⟨hkey, Ne.symm hexpression⟩

theorem exists_drops {key : String} {between later : List Event} (hkey : key ∈ keys)
    (h : Lawful keys (between ++ sent key :: later)) : ∃ e ∈ between, e.Drops key := by
  -- Each event in between drops the key or leaves it in the cache, where it must not be at the end.
  induction between generalizing keys with
  | nil => exact absurd hkey h.1
  | cons e between ih =>
    obtain ⟨hfits, hrest⟩ := h
    rcases drops_or_resident hkey hfits with hdrops | hkey
    · exact ⟨e, List.mem_cons_self, hdrops⟩
    · obtain ⟨e', hmem, hdrops⟩ := ih hkey hrest
      exact ⟨e', List.mem_cons_of_mem _ hmem, hdrops⟩

end Event

namespace Fallback

variable {f f' : Fallback σ}

def residents (f : Fallback σ) : Set String :=
  {key | f.cache.contains key = true}

def sentUntil (f f' : Fallback σ) : List String :=
  (f'.calls.drop f.calls.length).flatMap (·.keys)

theorem sentUntil_of_append (calls : List Service.Call) (h : f'.calls = f.calls ++ calls) :
    f.sentUntil f' = calls.flatMap (·.keys) := by
  rw [sentUntil, h, List.drop_left]

theorem sentUntil_of_eq (h : f'.calls = f.calls) : f.sentUntil f' = [] :=
  sentUntil_of_append [] (by rw [h, List.append_nil])

theorem sentUntil_trans {f'' : Fallback σ} (h : f.calls <+: f'.calls) (h' : f'.calls <+: f''.calls) :
    f.sentUntil f'' = f.sentUntil f' ++ f'.sentUntil f'' := by
  obtain ⟨calls, hcalls⟩ := h
  obtain ⟨calls', hcalls'⟩ := h'
  rw [sentUntil_of_append calls hcalls.symm, sentUntil_of_append calls' hcalls'.symm, ← List.flatMap_append]
  apply sentUntil_of_append
  rw [← hcalls', ← hcalls, List.append_assoc]

theorem residents_eq_of_parse? (h : f'.parse? = f.parse?) : f'.residents = f.residents := by
  ext key
  simp only [residents, Set.mem_ofPred_eq, contains_eq, h]

structure Asks (f f' : Fallback σ) : Prop where
  calls : f.calls <+: f'.calls
  nodup : (f.sentUntil f').Nodup
  new : ∀ key ∈ f.sentUntil f', key ∉ f.residents
  residents_eq : f'.residents = f.residents ∪ {key | key ∈ f.sentUntil f'}

theorem asks_refl (f : Fallback σ) : f.Asks f := by
  have hsent : f.sentUntil f = [] := sentUntil_of_eq rfl
  refine ⟨List.prefix_rfl, ?_, ?_, ?_⟩
  · rw [hsent]
    exact List.nodup_nil
  · rw [hsent]
    exact fun key hkey => absurd hkey List.not_mem_nil
  · rw [hsent]
    simp

theorem Asks.of_frame {f'' : Fallback σ} (h : f.Asks f') (hcalls : f''.calls = f'.calls)
    (hparse : f''.parse? = f'.parse?) : f.Asks f'' := by
  have hsent : f.sentUntil f'' = f.sentUntil f' := by rw [sentUntil, hcalls, sentUntil]
  refine ⟨?_, ?_, ?_, ?_⟩
  · rw [hcalls]
    exact h.calls
  · rw [hsent]
    exact h.nodup
  · rw [hsent]
    exact h.new
  · rw [hsent, residents_eq_of_parse? hparse]
    exact h.residents_eq

theorem asks_fetch (service : Service σ) {key : String} (h : f.cache.contains key = false) :
    f.Asks (fetch service key f).2 := by
  have hsent : f.sentUntil (fetch service key f).2 = [key] := sentUntil_of_append [.one key] rfl
  refine ⟨List.prefix_append f.calls [.one key], ?_, ?_, ?_⟩
  · rw [hsent]
    exact List.nodup_singleton key
  · rw [hsent]
    intro key' hkey'
    rw [List.mem_singleton.mp hkey', residents, Set.mem_ofPred_eq, h]
    exact Bool.false_ne_true
  · rw [hsent]
    ext key'
    simp only [residents, Set.mem_ofPred_eq, Set.mem_union, List.mem_singleton, contains_eq, fetch_parse?]
    by_cases hkey : key = key'
    · simp [hkey]
    · simp [hkey, Ne.symm hkey]

theorem asks_resolveOne (service : Service σ) (profile : Profile) (expression : String) (f : Fallback σ) :
    f.Asks (f.resolveOne service profile expression).2 := by
  rw [resolveOne]
  cases Condition.evaluate profile expression with
  | resolved o => exact asks_refl f
  | deferred key =>
    by_cases hc : f.cache.contains key = true
    · simp only [hc, if_true]
      exact (asks_refl f).of_frame (f.resolveCached_calls service.name profile key)
        (f.resolveCached_parse? service.name profile key)
    · rw [Bool.not_eq_true] at hc
      simp only [hc]
      exact (asks_fetch service hc).of_frame (resolveCached_calls service.name profile key _)
        (resolveCached_parse? service.name profile key _)

theorem Asks.lawful (h : f.Asks f') :
    Event.Lawful f.residents ((f.sentUntil f').map .sent) ∧
      ((f.sentUntil f').map .sent).foldl Event.residents f.residents = f'.residents :=
  ⟨Event.lawful_sent h.nodup h.new, (Event.foldl_residents_sent _).trans h.residents_eq.symm⟩

end Fallback

end Applicability
