import Applicability.Proofs.Run.History

namespace Applicability

open Catalog

variable {σ : Type}

namespace Condition

theorem evaluate_cases (profile profile' : Profile) (text : String) :
    (∃ o o', evaluate profile text = .resolved o ∧ evaluate profile' text = .resolved o') ∨
      ∃ key, evaluate profile text = .deferred key ∧ evaluate profile' text = .deferred key := by
  rw [evaluate, evaluate]
  cases classify text with
  | literal s => exact .inl ⟨_, _, rfl, rfl⟩
  | rule r => exact .inl ⟨_, _, rfl, rfl⟩
  | freeform key => exact .inr ⟨key, rfl, rfl⟩

end Condition

namespace Fallback

def parses (f : Fallback σ) : KeyMap CachedParse :=
  f.cache.map (·.parse)

/-- Alike but for the outcomes noted in the cache. -/
structure Alike (f g : Fallback σ) : Prop where
  parses_eq : f.parses = g.parses
  service_eq : f.service = g.service
  calls_eq : f.calls = g.calls

theorem Alike.refl (f : Fallback σ) : f.Alike f :=
  ⟨rfl, rfl, rfl⟩

variable {f g f' g' : Fallback σ}

theorem Alike.symm (h : f.Alike g) : g.Alike f :=
  ⟨h.parses_eq.symm, h.service_eq.symm, h.calls_eq.symm⟩

theorem Alike.trans (h : f.Alike g) (h' : g.Alike f') : f.Alike f' :=
  ⟨h.parses_eq.trans h'.parses_eq, h.service_eq.trans h'.service_eq, h.calls_eq.trans h'.calls_eq⟩

theorem Alike.congr (h : f.Alike g) (hf : f.Alike f') (hg : g.Alike g') : f'.Alike g' :=
  hf.symm.trans (h.trans hg)

theorem Alike.contains_eq (h : f.Alike g) (key : String) : f.cache.contains key = g.cache.contains key := by
  have hget : f.parses.get? key = g.parses.get? key := by rw [h.parses_eq]
  rw [parses, parses, KeyMap.get?_map, KeyMap.get?_map] at hget
  rw [Fallback.contains_eq, Fallback.contains_eq]
  exact congrArg Option.isSome hget

theorem parses_eq_of_insertParses {cache cache' : Cache}
    (h : cache.map (·.parse) = cache'.map (·.parse)) (es : List (String × CachedParse)) :
    (cache.insertParses es).map (·.parse) = (cache'.insertParses es).map (·.parse) := by
  rw [Cache.insertParses, Cache.insertParses, KeyMap.map_insertAll, KeyMap.map_insertAll, h]

theorem parses_recordOutcome (cache : Cache) (key : String) (o : Outcome) :
    (cache.recordOutcome key o).map (·.parse) = cache.map (·.parse) := by
  rw [Cache.recordOutcome, KeyMap.map_modify]
  exact fun _ => rfl

theorem alike_resolveCached (name : String) (profile : Profile) (key : String) (f : Fallback σ) :
    f.Alike (f.resolveCached name profile key).2 := by
  rw [resolveCached]
  cases f.cache.get? key with
  | none => exact .refl f
  | some entry => exact ⟨(parses_recordOutcome _ _ _).symm, rfl, rfl⟩

theorem Alike.fetch (h : f.Alike g) (service : Service σ) (key : String) :
    (Fallback.fetch service key f).1 = (Fallback.fetch service key g).1 ∧
      (Fallback.fetch service key f).2.Alike (Fallback.fetch service key g).2 := by
  rw [Fallback.fetch, Fallback.fetch, h.service_eq, h.calls_eq]
  exact ⟨rfl, parses_eq_of_insertParses h.parses_eq _, rfl, rfl⟩

theorem Alike.resolveOne (h : f.Alike g) (service : Service σ) (profile profile' : Profile)
    (expression : String) :
    (f.resolveOne service profile expression).1.2 = (g.resolveOne service profile' expression).1.2 ∧
      (f.resolveOne service profile expression).2.Alike (g.resolveOne service profile' expression).2 := by
  rcases Condition.evaluate_cases profile profile' expression with ⟨o, o', he, he'⟩ | ⟨key, he, he'⟩
  · simp only [Fallback.resolveOne, he, he']
    exact ⟨trivial, h⟩
  · by_cases hc : g.cache.contains key = true
    · simp only [Fallback.resolveOne, he, he', h.contains_eq, hc, if_true]
      exact ⟨trivial, h.congr (alike_resolveCached _ _ _ _) (alike_resolveCached _ _ _ _)⟩
    · obtain ⟨hparse, halike⟩ := h.fetch service key
      simp only [Fallback.resolveOne, he, he', h.contains_eq, hc, hparse]
      exact ⟨rfl, halike.congr (alike_resolveCached _ _ _ _) (alike_resolveCached _ _ _ _)⟩

end Fallback

namespace Run

variable {f g : Fallback σ}

structure InStep (a b : BatchQueue × Fallback σ) : Prop where
  queue_eq : a.1 = b.1
  alike : a.2.Alike b.2

theorem inStep_flush (service : Service σ) (q : BatchQueue) (h : f.Alike g) :
    InStep (f.flush service q) (g.flush service q) := by
  by_cases hq : q.pending = []
  · rw [Fallback.flush_of_nil hq, Fallback.flush_of_nil hq]
    exact ⟨rfl, h⟩
  · have hentries : Fallback.batchEntries service q f = Fallback.batchEntries service q g := by
      rw [Fallback.batchEntries, h.service_eq, Fallback.batchEntries]
    rw [Fallback.flush_of_ne_nil hq, Fallback.flush_of_ne_nil hq, hentries, h.service_eq, h.calls_eq]
    exact ⟨rfl, Fallback.parses_eq_of_insertParses h.parses_eq _, rfl, rfl⟩

theorem inStep_visit (service : Service σ) (profile profile' : Profile) (expression : String)
    (q : BatchQueue) (h : f.Alike g) :
    InStep (visit service profile expression q f).2 (visit service profile' expression q g).2 := by
  rcases Condition.evaluate_cases profile profile' expression with ⟨o, o', he, he'⟩ | ⟨key, he, he'⟩
  · simp only [visit, he, he']
    exact ⟨rfl, h⟩
  · by_cases hc : g.cache.contains key = true
    · simp only [visit, he, he', h.contains_eq, hc, if_true]
      exact ⟨rfl, h.congr (Fallback.alike_resolveCached _ _ _ _) (Fallback.alike_resolveCached _ _ _ _)⟩
    · simp only [visit, he, he', h.contains_eq, hc]
      exact ⟨rfl, h⟩

theorem InStep.flushFull {a b : BatchQueue × Fallback σ} (h : InStep a b) (service : Service σ) :
    InStep (flushFull service a.1 a.2) (flushFull service b.1 b.2) := by
  rw [Run.flushFull, Run.flushFull, h.queue_eq]
  by_cases hfull : b.1.isFull = true
  · rw [if_pos hfull, if_pos hfull]
    exact inStep_flush service b.1 h.alike
  · rw [if_neg hfull, if_neg hfull]
    exact ⟨rfl, h.alike⟩

theorem inStep_step (service : Service σ) (profile profile' : Profile) (expression : String)
    {a b : BatchQueue × Fallback σ} (h : InStep a b) :
    InStep (step service profile expression a.1 a.2).2 (step service profile' expression b.1 b.2).2 := by
  have hvisit := inStep_visit service profile profile' expression b.1 h.alike
  rw [step, step, h.queue_eq]
  exact hvisit.flushFull service

theorem inStep_firstPass (service : Service σ) (profile profile' : Profile) (conditions : Conditions)
    (ts : List TestCase) {a b : BatchQueue × Fallback σ} (h : InStep a b) :
    InStep (firstPass service profile conditions ts a.1 a.2).2
      (firstPass service profile' conditions ts b.1 b.2).2 := by
  induction ts generalizing a b with
  | nil => exact h
  | cons t ts ih =>
    -- The queues are equal after the step, so both runs send them at the same test cases.
    have hrest := ih (inStep_step service profile profile' (expressionFor t.condition conditions) h)
    rw [firstPass_cons, firstPass_cons]
    exact hrest

theorem alike_secondPass (service : Service σ) (profile : Profile) (states : List CaseState)
    (f : Fallback σ) : f.Alike (secondPass service profile states f).2 := by
  induction states generalizing f with
  | nil => exact .refl f
  | cons state states ih =>
    have hsettle : f.Alike (settle service profile state f).2 := by
      cases state with
      | resolved o => exact .refl f
      | pending key => exact Fallback.alike_resolveCached service.name profile key f
    rw [secondPass_cons]
    exact hsettle.trans (ih _)

end Run

namespace Engine

variable (engine : Engine σ)

theorem inStep_flushed (items items' : List Capability.Item) (catalog : Loaded) (f : Fallback σ) :
    Run.InStep (engine.flushed items catalog f) (engine.flushed items' catalog f) := by
  have hpassed : Run.InStep (engine.passed items catalog f).2 (engine.passed items' catalog f).2 :=
    Run.inStep_firstPass engine.service _ _ catalog.conditions catalog.cases
      (a := (.new engine.batchSize, f)) ⟨rfl, .refl f⟩
  rw [flushed, hpassed.queue_eq, flushed]
  exact Run.inStep_flush engine.service _ hpassed.alike

theorem alike_run (items items' : List Capability.Item) (catalog : Loaded) (f : Fallback σ) :
    (engine.run items catalog f).2.Alike (engine.run items' catalog f).2 := by
  rw [run_eq, run_eq]
  exact (engine.inStep_flushed items items' catalog f).alike.congr
    (Run.alike_secondPass _ _ _ _) (Run.alike_secondPass _ _ _ _)

theorem run_stats (items items' : List Capability.Item) (catalog : Loaded) (f : Fallback σ) :
    (engine.run items catalog f).1.summary.stats = (engine.run items' catalog f).1.summary.stats := by
  rw [run_eq, run_eq]
  exact congrArg BatchQueue.stats (engine.inStep_flushed items items' catalog f).queue_eq

/-- Runs over one catalog, and evaluations of one expression, send and keep and count the same for any two
devices. -/
theorem filter_independent_of_items (f : Fallback σ) :
    (∀ r r' : Request, engine.load r = engine.load r' →
      (engine.filter r f).2.Alike (engine.filter r' f).2 ∧
        (engine.filter r f).1.map (·.summary.stats) = (engine.filter r' f).1.map (·.summary.stats)) ∧
    ∀ (expression : String) (items items' : List Capability.Item),
      (engine.evaluateExpression expression items f).2.Alike
          (engine.evaluateExpression expression items' f).2 ∧
        (engine.evaluateExpression expression items f).1.2 =
          (engine.evaluateExpression expression items' f).1.2 := by
  constructor
  · intro r r' heq
    cases hload : engine.load r' with
    | error e =>
      rw [filter_of_error (heq.trans hload), filter_of_error hload]
      exact ⟨.refl f, rfl⟩
    | ok catalog =>
      rw [filter_of_load (heq.trans hload), filter_of_load hload]
      exact ⟨engine.alike_run r.items r'.items catalog f,
        congrArg Except.ok (engine.run_stats r.items r'.items catalog f)⟩
  · intro expression items items'
    exact ((Fallback.Alike.refl f).resolveOne engine.service _ _ expression).symm

theorem filter_independent_of_items_lacking :
    let service : Service Nat :=
      { name := "parser"
        one := fun _ n => (.ok ⟨"A.1", "M", "O", []⟩, n + 1)
        batch := fun keys n =>
          (if n = 0 then .ok (keys.map fun _ => ⟨"A.1", "M", "O", []⟩) else .error (.unavailable "busy"), n + 1) }
    let engine : Engine Nat := ⟨1, service, none⟩
    let cases : List TestCase := [.of "1" "rain", .of "2" "IF A.1 THEN R", .of "3" "wind"]
    let r : Request := ⟨[⟨"A.1", .flag true⟩], none, some ⟨.records cases, .records []⟩⟩
    let r' : Request := { r with items := [] }
    let f : Fallback Nat := .start 0
    engine.load r = engine.load r' ∧ (engine.filter r f).2.cache ≠ (engine.filter r' f).2.cache ∧
      (engine.filter r f).2.Alike (engine.filter r' f).2 ∧
      (engine.filter r f).1.map (·.summary.stats) = (engine.filter r' f).1.map (·.summary.stats) ∧
      (engine.evaluateExpression "fog" r.items f).2.Alike (engine.evaluateExpression "fog" r'.items f).2 := by
  intro service engine cases r r' f
  obtain ⟨hruns, hsingle⟩ := filter_independent_of_items engine f
  have hload : engine.load r = engine.load r' := rfl
  have hcache : (engine.filter r f).2.cache ≠ (engine.filter r' f).2.cache := by decide +kernel
  obtain ⟨halike, hstats⟩ := hruns r r' hload
  exact ⟨hload, hcache, halike, hstats, (hsingle "fog" r.items r'.items).1⟩

end Engine

end Applicability
