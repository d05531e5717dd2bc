import Applicability.Proofs.Run.Outcomes

namespace Applicability

variable {σ : Type}

/-- The property holds of all answers of the service, in any of its states. -/
structure Service.Gives (service : Service σ) (Q : String → CachedParse → Prop) : Prop where
  one : ∀ key f, Q key (Fallback.fetch service key f).1
  batch : ∀ keys s, ∀ e ∈ Fallback.entries keys (service.batch keys s).1, Q e.1 e.2

namespace Fallback

def Holds (Q : String → CachedParse → Prop) (f : Fallback σ) : Prop :=
  ∀ key p, f.parse? key = some p → Q key p

variable {service : Service σ} {Q : String → CachedParse → Prop} {f f' : Fallback σ}

theorem Holds.of_parse? (h : Holds Q f) (heq : f'.parse? = f.parse?) : Holds Q f' := by
  intro key p hp
  rw [heq] at hp
  exact h key p hp

theorem holds_start (s : σ) : Holds Q (start s) := by
  intro key p hp
  rw [parse?_start] at hp
  cases hp

theorem Holds.flush (h : Holds Q f) (hQ : service.Gives Q) {q : BatchQueue} (hq : q.pending.Nodup) :
    Holds Q (f.flush service q).2 := by
  intro key p hp
  by_cases hk : key ∈ q.pending
  · obtain ⟨p', hmem, hp'⟩ := exists_flush_parse? service f hq hk
    rw [hp'] at hp
    obtain rfl := Option.some.inj hp
    exact hQ.batch _ _ _ hmem
  · rw [flush_parse?_of_not_mem hk] at hp
    exact h key p hp

theorem fetch_parse? (service : Service σ) (f : Fallback σ) (key key' : String) :
    (fetch service key f).2.parse? key' =
      if key = key' then some (fetch service key f).1 else f.parse? key' := by
  have hsnd : (fetch service key f).2.cache = f.cache.insertParses [(key, (fetch service key f).1)] := rfl
  rw [parse?, hsnd]
  split
  · rename_i heq
    subst heq
    rw [get?_insertParses_of_mem (by simp) List.mem_cons_self]
    rfl
  · rename_i hne
    rw [get?_insertParses_of_not_mem (by simpa using Ne.symm hne)]
    rfl

theorem Holds.fetch (h : Holds Q f) (hQ : service.Gives Q) (key : String) :
    Holds Q (fetch service key f).2 := by
  intro key' p hp
  rw [fetch_parse?] at hp
  split at hp
  · rename_i heq
    subst heq
    obtain rfl := Option.some.inj hp
    exact hQ.one key f
  · exact h key' p hp

theorem Holds.resolveOne (h : Holds Q f) (hQ : service.Gives Q) (profile : Profile) (expression : String) :
    Holds Q (f.resolveOne service profile expression).2 := by
  rw [Fallback.resolveOne]
  cases Condition.evaluate profile expression with
  | resolved o => exact h
  | deferred key =>
    by_cases hc : f.cache.contains key = true
    · simp only [hc, if_true]
      exact h.of_parse? (f.resolveCached_parse? service.name profile key)
    · simp only [hc]
      exact (h.fetch hQ key).of_parse? (resolveCached_parse? service.name profile key _)

theorem Holds.invalidate (h : Holds Q f) (expression : String) : Holds Q (f.invalidate expression).2 := by
  intro key p hp
  rw [parse?, Fallback.invalidate, invalidateKey, KeyMap.get?_erase] at hp
  split at hp
  · cases hp
  · exact h key p hp

theorem Holds.clear (_ : Holds Q f) : Holds Q f.clear := by
  intro key p hp
  cases hp

end Fallback

namespace Run

variable {service : Service σ} {profile : Profile} {q q' : BatchQueue} {f f' : Fallback σ}
  {evaluation : Condition.Evaluation} {state : CaseState} {Q : String → CachedParse → Prop}

theorem Step.holds (hs : Step service profile q f evaluation state q' f') (hr : Ready q f)
    (hQ : service.Gives Q) (h : f.Holds Q) : f'.Holds Q := by
  cases hs with
  | resolved | waiting | queued => exact h
  | hit => exact h.of_parse? (f.resolveCached_parse? service.name profile _)
  | sent => exact h.flush hQ (hr.consistent.enqueue _).nodup

end Run

namespace Engine

variable {engine : Engine σ} {Q : String → CachedParse → Prop} {f : Fallback σ}

theorem holds_run (hQ : engine.service.Gives Q) (h : f.Holds Q) (items : List Capability.Item)
    (catalog : Loaded) : (engine.run items catalog f).2.Holds Q := by
  have hpassed : (engine.passed items catalog f).2.2.Holds Q :=
    (Run.firstPass_invariant engine.service _ _ (I := fun _ _ _ f => f.Holds Q) (Run.ready_new _ _) h
      (fun _ _ _ _ _ _ _ _ _ hr hi hs => hs.holds hr hQ hi) _).2
  exact (hpassed.flush hQ (engine.ready_passed items catalog f).consistent.nodup).of_parse? (engine.run_parse? _ _ _)

inductive Operation where
  | filter (r : Request)
  | evaluate (expression : String) (items : List Capability.Item)
  | invalidate (expression : String)
  | clear

def perform (engine : Engine σ) (f : Fallback σ) : Operation → Fallback σ
  | .filter r => (engine.filter r f).2
  | .evaluate expression items => (engine.evaluateExpression expression items f).2
  | .invalidate expression => (f.invalidate expression).2
  | .clear => f.clear

def after (engine : Engine σ) (s : σ) (history : List Operation) : Fallback σ :=
  history.foldl engine.perform (.start s)

theorem filter_of_load {r : Request} {catalog : Loaded} (hload : engine.load r = .ok catalog) :
    engine.filter r f = (.ok (engine.run r.items catalog f).1, (engine.run r.items catalog f).2) := by
  rw [filter, hload]

theorem filter_of_error {r : Request} {e : RunError} (hload : engine.load r = .error e) :
    engine.filter r f = (.error e, f) := by
  rw [filter, hload]

theorem holds_perform (hQ : engine.service.Gives Q) (h : f.Holds Q) (op : Operation) :
    (engine.perform f op).Holds Q := by
  cases op with
  | filter r =>
    cases hload : engine.load r with
    | error e =>
      rw [perform, filter_of_error hload]
      exact h
    | ok catalog =>
      rw [perform, filter_of_load hload]
      exact holds_run hQ h r.items catalog
  | evaluate expression items => exact h.resolveOne hQ _ expression
  | invalidate expression => exact h.invalidate expression
  | clear => exact h.clear

theorem holds_after (hQ : engine.service.Gives Q) (s : σ) (history : List Operation) :
    (engine.after s history).Holds Q := by
  induction history using List.reverseRecOn with
  | nil => exact Fallback.holds_start s
  | append_singleton history op ih =>
    rw [after, List.foldl_append]
    exact holds_perform hQ ih op

end Engine

end Applicability
