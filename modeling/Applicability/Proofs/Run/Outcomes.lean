import Applicability.Proofs.Lists
import Applicability.Proofs.Run.Step
import Applicability.Run.Engine

namespace Applicability.Run

open Catalog Condition

variable {σ : Type}

def verdict (name : String) (profile : Profile) (parse? : String → Option CachedParse) :
    Evaluation → Outcome
  | .resolved o => o
  | .deferred key =>
    ((parse? key).map (Fallback.outcomeOf name profile key)).getD
      (Fallback.missing key "Fallback result missing from cache after flush")

inductive Settles (name : String) (profile : Profile) (q : BatchQueue) (f : Fallback σ) :
    Evaluation → CaseState → Prop where
  | resolved (o : Outcome) : Settles name profile q f (.resolved o) (.resolved o)
  | found {key : String} {p : CachedParse} (h : f.parse? key = some p) :
      Settles name profile q f (.deferred key) (.resolved (Fallback.outcomeOf name profile key p))
  | waiting {key : String} (h : key ∈ q.pending ∨ ∃ p, f.parse? key = some p) :
      Settles name profile q f (.deferred key) (.pending key)

section Settling

variable {service : Service σ} {profile : Profile} {q q' : BatchQueue} {f f' : Fallback σ}
  {evaluation evaluation' : Evaluation} {state state' : CaseState}

theorem Settles.mono (h : Settles service.name profile q f evaluation state)
    (hkept : ∀ key p, f.parse? key = some p → f'.parse? key = some p)
    (hserved : ∀ key ∈ q.pending, key ∈ q'.pending ∨ ∃ p, f'.parse? key = some p) :
    Settles service.name profile q' f' evaluation state := by
  cases h with
  | resolved o => exact .resolved o
  | found h => exact .found (hkept _ _ h)
  | waiting h =>
    rcases h with h | ⟨p, h⟩
    · exact .waiting (hserved _ h)
    · exact .waiting (.inr ⟨p, hkept _ _ h⟩)

theorem Step.settles (h : Step service profile q f evaluation state q' f') (hr : Ready q f) :
    Settles service.name profile q' f' evaluation state := by
  cases h with
  | resolved o => exact .resolved o
  | hit h =>
    refine .found ?_
    rwa [Fallback.resolveCached_parse?]
  | waiting h hk => exact .waiting (.inl hk)
  | queued h hk hl => exact .waiting (.inl (hr.consistent.mem_enqueue.mpr (.inr rfl)))
  | sent h hk hl =>
    obtain ⟨p, -, hp⟩ := Fallback.exists_flush_parse? service f
      (hr.consistent.enqueue _).nodup (hr.consistent.mem_enqueue.mpr (.inr rfl))
    exact .waiting (.inr ⟨p, hp⟩)

def AllSettled (name : String) (profile : Profile) (conditions : Conditions) (ts : List TestCase)
    (states : List CaseState) (q : BatchQueue) (f : Fallback σ) : Prop :=
  List.Forall₂ (fun t state => Settles name profile q f
    (Condition.evaluate profile (expressionFor t.condition conditions)) state) ts states

theorem allSettled_firstPass (conditions : Conditions) (hr : Ready q f) (ts : List TestCase) :
    AllSettled service.name profile conditions ts (firstPass service profile conditions ts q f).1
      (firstPass service profile conditions ts q f).2.1
      (firstPass service profile conditions ts q f).2.2 := by
  refine (firstPass_invariant service profile conditions (I := AllSettled service.name profile conditions)
    hr .nil ?_ ts).2
  intro ts t states state q₁ f₁ q₂ f₂ _ hready hi hs
  have hold : AllSettled service.name profile conditions ts states q₂ f₂ := hi.imp fun t state h =>
    h.mono (fun _ _ hp => hs.kept hready hp) fun _ hk => hs.served hready hk
  exact List.rel_append hold (.cons (hs.settles hready) .nil)

theorem Ready.kept_flush (hr : Ready q f) {key : String} {p : CachedParse} (hp : f.parse? key = some p) :
    (f.flush service q).2.parse? key = some p := by
  rw [Fallback.flush_parse?_of_not_mem, hp]
  intro hmem
  rw [hr.unanswered key hmem] at hp
  cases hp

theorem Settles.flush (h : Settles service.name profile q f evaluation state) (hr : Ready q f) :
    Settles service.name profile (f.flush service q).1 (f.flush service q).2 evaluation state := by
  refine h.mono (fun key p hp => hr.kept_flush hp) fun key hk => ?_
  obtain ⟨p, -, hp⟩ := Fallback.exists_flush_parse? service f hr.consistent.nodup hk
  exact .inr ⟨p, hp⟩

theorem AllSettled.flush {conditions : Conditions} {ts : List TestCase} {states : List CaseState}
    (h : AllSettled service.name profile conditions ts states q f) (hr : Ready q f) :
    AllSettled service.name profile conditions ts states (f.flush service q).1 (f.flush service q).2 :=
  h.imp fun _ _ hs => hs.flush hr

end Settling

section SecondPass

variable {service : Service σ} {profile : Profile} {q : BatchQueue} {f : Fallback σ}

theorem settle_parse? (state : CaseState) : (settle service profile state f).2.parse? = f.parse? := by
  cases state with
  | resolved o => rfl
  | pending key => exact f.resolveCached_parse? service.name profile key

theorem settle_calls (state : CaseState) : (settle service profile state f).2.calls = f.calls := by
  cases state with
  | resolved o => rfl
  | pending key => exact f.resolveCached_calls service.name profile key

theorem settle_outcome {evaluation : Evaluation} {state : CaseState}
    (h : Settles service.name profile q f evaluation state) :
    (settle service profile state f).1 = verdict service.name profile f.parse? evaluation := by
  cases h with
  | resolved o => rfl
  | found h => simp [settle, verdict, h]
  | waiting h =>
    change ((f.resolveCached service.name profile _).1).getD _ = _
    rw [Fallback.resolveCached_fst]
    rfl

theorem secondPass_cons (state : CaseState) (states : List CaseState) :
    secondPass service profile (state :: states) f =
      let r := settle service profile state f
      let r' := secondPass service profile states r.2
      (r.1 :: r'.1, r'.2) := by
  rw [secondPass]

theorem secondPass_frame (states : List CaseState) :
    (secondPass service profile states f).2.parse? = f.parse? ∧
      (secondPass service profile states f).2.calls = f.calls := by
  induction states generalizing f with
  | nil => exact ⟨rfl, rfl⟩
  | cons state states ih =>
    obtain ⟨hparse, hcalls⟩ := ih (f := (settle service profile state f).2)
    rw [secondPass_cons]
    exact ⟨hparse.trans (settle_parse? state), hcalls.trans (settle_calls state)⟩

theorem secondPass_outcomes {conditions : Conditions} {ts : List TestCase} {states : List CaseState}
    (h : AllSettled service.name profile conditions ts states q f) :
    (secondPass service profile states f).1 = ts.map fun t =>
      verdict service.name profile f.parse?
        (Condition.evaluate profile (expressionFor t.condition conditions)) := by
  induction ts generalizing states f with
  | nil =>
    cases h
    rfl
  | cons t ts ih =>
    obtain _ | ⟨ht, hts⟩ := h
    rename_i state states
    have hnext : AllSettled service.name profile conditions ts states q (settle service profile state f).2 :=
      hts.imp fun _ _ hs => hs.mono (by simp [settle_parse?]) (fun _ hk => .inl hk)
    simp only [secondPass_cons, List.map_cons, settle_outcome ht, ih hnext, settle_parse?]

end SecondPass

theorem Settles.answered {name : String} {profile : Profile} {q : BatchQueue} {f : Fallback σ}
    {key : String} {state : CaseState} (hq : q.pending = [])
    (h : Settles name profile q f (.deferred key) state) : ∃ p, f.parse? key = some p := by
  cases h with
  | found h => exact ⟨_, h⟩
  | waiting h =>
    rcases h with h | h
    · rw [hq] at h
      cases h
    · exact h

end Applicability.Run

namespace Applicability.Engine

open Catalog Condition

variable {σ : Type} (engine : Engine σ) (items : List Capability.Item) (catalog : Loaded) (f : Fallback σ)

def evaluation (t : TestCase) : Evaluation :=
  Condition.evaluate (Capability.profile items) (expressionFor t.condition catalog.conditions)

def passed : List Run.CaseState × BatchQueue × Fallback σ :=
  Run.firstPass engine.service (Capability.profile items) catalog.conditions catalog.cases
    (.new engine.batchSize) f

def flushed : BatchQueue × Fallback σ :=
  (engine.passed items catalog f).2.2.flush engine.service (engine.passed items catalog f).2.1

theorem run_eq :
    engine.run items catalog f =
      let r := Run.secondPass engine.service (Capability.profile items) (engine.passed items catalog f).1
        (engine.flushed items catalog f).2
      (.of catalog.cases r.1 ⟨items.length, (Capability.profile items).size, catalog.conditions.size,
        catalog.specificationId, (engine.flushed items catalog f).1.stats⟩, r.2) := by
  rw [run, flushed, passed]

theorem ready_passed :
    Run.Ready (engine.passed items catalog f).2.1 (engine.passed items catalog f).2.2 :=
  Run.ready_firstPass engine.service _ _ (Run.ready_new _ _) _

theorem allSettled_flushed :
    Run.AllSettled engine.service.name (Capability.profile items) catalog.conditions catalog.cases
      (engine.passed items catalog f).1 (engine.flushed items catalog f).1
      (engine.flushed items catalog f).2 :=
  (Run.allSettled_firstPass _ (Run.ready_new _ _) _).flush (engine.ready_passed items catalog f)

theorem run_parse? : (engine.run items catalog f).2.parse? = (engine.flushed items catalog f).2.parse? := by
  rw [run_eq]
  exact (Run.secondPass_frame _).1

theorem run_calls : (engine.run items catalog f).2.calls = (engine.flushed items catalog f).2.calls := by
  rw [run_eq]
  exact (Run.secondPass_frame _).2

def verdicts : List Outcome :=
  catalog.cases.map fun t =>
    Run.verdict engine.service.name (Capability.profile items) f.parse? (evaluation items catalog t)

theorem run_result :
    (engine.run items catalog f).1 =
      .of catalog.cases (engine.verdicts items catalog (engine.run items catalog f).2)
        ⟨items.length, (Capability.profile items).size, catalog.conditions.size, catalog.specificationId,
          (engine.flushed items catalog f).1.stats⟩ := by
  have hsecond := Run.secondPass_outcomes (engine.allSettled_flushed items catalog f)
  rw [verdicts, run_parse?, run_eq]
  simp only [hsecond]
  rfl

theorem run_answered {t : TestCase} {key : String} (ht : t ∈ catalog.cases)
    (hkey : evaluation items catalog t = .deferred key) :
    ∃ p, (engine.run items catalog f).2.parse? key = some p := by
  rw [run_parse?]
  obtain ⟨state, -, hstate⟩ := Lists.exists_right_of_mem (engine.allSettled_flushed items catalog f) ht
  change Run.Settles _ _ _ _ (evaluation items catalog t) state at hstate
  rw [hkey] at hstate
  exact hstate.answered Fallback.flush_pending

variable {f} in
theorem run_kept {key : String} {p : CachedParse} (hp : f.parse? key = some p) :
    (engine.run items catalog f).2.parse? key = some p := by
  have hpassed : (engine.passed items catalog f).2.2.parse? key = some p :=
    (Run.firstPass_invariant engine.service (Capability.profile items) catalog.conditions
      (I := fun _ _ _ f' => f'.parse? key = some p) (Run.ready_new _ _) hp
      (fun _ _ _ _ _ _ _ _ _ hr hi hs => hs.kept hr hi) catalog.cases).2
  rw [run_parse?]
  exact (engine.ready_passed items catalog f).kept_flush hpassed

end Applicability.Engine
