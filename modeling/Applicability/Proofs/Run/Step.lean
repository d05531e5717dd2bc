import Applicability.Run.Passes
import Applicability.Proofs.Fallback.Queue
import Mathlib.Data.List.Induction

/-!
The first pass as a sequence of steps, one for each test case. A step resolves an expression, finds its key in
the cache, finds it waiting, or queues it; the step that fills the queue sends it.
-/

namespace Applicability.Run

open Catalog Condition

variable {σ : Type}

inductive Step (service : Service σ) (profile : Profile) (q : BatchQueue) (f : Fallback σ) :
    Evaluation → CaseState → BatchQueue → Fallback σ → Prop where
  | resolved (o : Outcome) : Step service profile q f (.resolved o) (.resolved o) q f
  | hit {key : String} {p : CachedParse} (h : f.parse? key = some p) :
      Step service profile q f (.deferred key)
        (.resolved (Fallback.outcomeOf service.name profile key p)) q.recordHit
        (f.resolveCached service.name profile key).2
  | waiting {key : String} (h : f.parse? key = none) (hk : key ∈ q.pending) :
      Step service profile q f (.deferred key) (.pending key) q f
  | queued {key : String} (h : f.parse? key = none) (hk : key ∉ q.pending)
      (hl : q.pending.length + 1 < q.batchSize) :
      Step service profile q f (.deferred key) (.pending key) (q.enqueue key) f
  | sent {key : String} (h : f.parse? key = none) (hk : key ∉ q.pending)
      (hl : q.pending.length + 1 = q.batchSize) :
      Step service profile q f (.deferred key) (.pending key)
        (f.flush service (q.enqueue key)).1 (f.flush service (q.enqueue key)).2

def step (service : Service σ) (profile : Profile) (expression : String) (q : BatchQueue)
    (f : Fallback σ) : CaseState × BatchQueue × Fallback σ :=
  let r := visit service profile expression q f
  (r.1, flushFull service r.2.1 r.2.2)

theorem flushFull_of_lt (service : Service σ) {q : BatchQueue} (f : Fallback σ)
    (h : q.pending.length < q.batchSize) : flushFull service q f = (q, f) := by
  have hfull : q.isFull = false := by
    simp only [BatchQueue.isFull, decide_eq_false_iff_not]
    omega
  simp [flushFull, hfull]

theorem flushFull_of_eq (service : Service σ) {q : BatchQueue} (f : Fallback σ)
    (h : q.pending.length = q.batchSize) : flushFull service q f = f.flush service q := by
  have hfull : q.isFull = true := by
    simp only [BatchQueue.isFull, decide_eq_true_eq]
    omega
  simp [flushFull, hfull]

theorem step_of_resolved {service : Service σ} {profile : Profile} {expression : String}
    {q : BatchQueue} {f : Fallback σ} {o : Outcome} (hq : q.pending.length < q.batchSize)
    (he : Condition.evaluate profile expression = .resolved o) :
    step service profile expression q f = (.resolved o, q, f) := by
  simp [step, visit, he, flushFull_of_lt service f hq]

theorem step_of_hit {service : Service σ} {profile : Profile} {expression key : String}
    {q : BatchQueue} {f : Fallback σ} {p : CachedParse} (hq : q.pending.length < q.batchSize)
    (he : Condition.evaluate profile expression = .deferred key) (hp : f.parse? key = some p) :
    step service profile expression q f =
      (.resolved (Fallback.outcomeOf service.name profile key p), q.recordHit,
        (f.resolveCached service.name profile key).2) := by
  have hcontains := Fallback.contains_of_some hp
  have hfst := f.resolveCached_fst service.name profile key
  rw [hp] at hfst
  have hfull := flushFull_of_lt service (q := q.recordHit)
    (f.resolveCached service.name profile key).2 hq
  simp [step, visit, he, hcontains, hfst, hfull]

theorem step_of_miss {service : Service σ} {profile : Profile} {expression key : String}
    {q : BatchQueue} {f : Fallback σ} (he : Condition.evaluate profile expression = .deferred key)
    (hp : f.parse? key = none) :
    step service profile expression q f = (.pending key, flushFull service (q.enqueue key) f) := by
  have hcontains := Fallback.contains_of_none hp
  simp [step, visit, he, hcontains]

theorem step_spec (service : Service σ) (profile : Profile) (expression : String) {q : BatchQueue}
    {f : Fallback σ} (hq : q.pending.length < q.batchSize) (hc : q.Consistent) :
    Step service profile q f (Condition.evaluate profile expression)
      (step service profile expression q f).1 (step service profile expression q f).2.1
      (step service profile expression q f).2.2 := by
  cases he : Condition.evaluate profile expression with
  | resolved o =>
    rw [step_of_resolved hq he]
    exact .resolved o
  | deferred key =>
    cases hp : f.parse? key with
    | some p =>
      rw [step_of_hit hq he hp]
      exact .hit hp
    | none =>
      rw [step_of_miss he hp]
      by_cases hk : key ∈ q.pending
      · rw [hc.enqueue_of_mem hk, flushFull_of_lt service f hq]
        exact .waiting hp hk
      · have hlen : (q.enqueue key).pending.length = q.pending.length + 1 := by
          rw [hc.enqueue_pending hk, List.length_append, List.length_singleton]
        have hsize := q.enqueue_batchSize key
        rcases Nat.lt_or_ge (q.pending.length + 1) q.batchSize with hl | hl
        · rw [flushFull_of_lt service f (by omega)]
          exact .queued hp hk hl
        · rw [flushFull_of_eq service f (by omega)]
          exact .sent hp hk (by omega)

section FirstPass

variable {service : Service σ} {profile : Profile} {conditions : Conditions}

theorem firstPass_nil (q : BatchQueue) (f : Fallback σ) :
    firstPass service profile conditions [] q f = ([], q, f) := rfl

theorem firstPass_cons (t : TestCase) (ts : List TestCase) (q : BatchQueue) (f : Fallback σ) :
    firstPass service profile conditions (t :: ts) q f =
      let r := step service profile (expressionFor t.condition conditions) q f
      let r' := firstPass service profile conditions ts r.2.1 r.2.2
      (r.1 :: r'.1, r'.2) := by
  rw [firstPass, step]

theorem firstPass_concat (ts : List TestCase) (t : TestCase) (q : BatchQueue) (f : Fallback σ) :
    firstPass service profile conditions (ts ++ [t]) q f =
      let r := firstPass service profile conditions ts q f
      let r' := step service profile (expressionFor t.condition conditions) r.2.1 r.2.2
      (r.1 ++ [r'.1], r'.2) := by
  induction ts generalizing q f with
  | nil => simp only [List.nil_append, firstPass_cons, firstPass_nil]
  | cons u ts ih => simp only [List.cons_append, firstPass_cons, ih]

end FirstPass

/-- What holds between steps: the queue has room, and what waits in it has no answer yet. -/
structure Ready (q : BatchQueue) (f : Fallback σ) : Prop where
  room : q.pending.length < q.batchSize
  consistent : q.Consistent
  unanswered : ∀ key ∈ q.pending, f.parse? key = none

theorem ready_new (batchSize : Nat) (f : Fallback σ) : Ready (.new batchSize) f := by
  refine ⟨?_, BatchQueue.consistent_new batchSize, by simp [BatchQueue.new]⟩
  simp only [BatchQueue.new, List.length_nil]
  omega

section Steps

variable {service : Service σ} {profile : Profile} {q q' : BatchQueue} {f f' : Fallback σ}
  {evaluation : Evaluation} {state : CaseState}

theorem Ready.unanswered_enqueue {key : String} (hr : Ready q f) (h : f.parse? key = none) :
    ∀ key' ∈ (q.enqueue key).pending, f.parse? key' = none := by
  intro key' hk'
  rcases hr.consistent.mem_enqueue.mp hk' with hk' | rfl
  · exact hr.unanswered key' hk'
  · exact h

theorem Step.ready (h : Step service profile q f evaluation state q' f') (hr : Ready q f) :
    Ready q' f' := by
  cases h with
  | resolved | waiting => exact hr
  | hit h =>
    refine ⟨hr.room, hr.consistent.recordHit, fun key hk => ?_⟩
    rw [Fallback.resolveCached_parse?]
    exact hr.unanswered key hk
  | queued h hk hl =>
    refine ⟨?_, hr.consistent.enqueue _, hr.unanswered_enqueue h⟩
    rw [hr.consistent.enqueue_pending hk, BatchQueue.enqueue_batchSize, List.length_append, List.length_singleton]
    exact hl
  | @sent key h hk hl =>
    refine ⟨?_, (hr.consistent.enqueue key).flush service f, ?_⟩
    · rw [Fallback.flush_pending, Fallback.flush_batchSize, BatchQueue.enqueue_batchSize]
      have hroom := hr.room
      simp only [List.length_nil]
      omega
    · rw [Fallback.flush_pending]
      exact fun key hk => absurd hk List.not_mem_nil

theorem Step.kept (h : Step service profile q f evaluation state q' f') (hr : Ready q f) {key : String}
    {p : CachedParse} (hp : f.parse? key = some p) : f'.parse? key = some p := by
  cases h with
  | resolved | waiting | queued => exact hp
  | hit h => rwa [Fallback.resolveCached_parse?]
  | sent h hk hl =>
    rw [Fallback.flush_parse?_of_not_mem, hp]
    intro hmem
    rw [hr.unanswered_enqueue h key hmem] at hp
    cases hp

theorem Step.served (h : Step service profile q f evaluation state q' f') (hr : Ready q f) {key : String}
    (hk : key ∈ q.pending) : key ∈ q'.pending ∨ ∃ p, f'.parse? key = some p := by
  cases h with
  | resolved | waiting | hit => exact .inl hk
  | queued => exact .inl (hr.consistent.mem_enqueue.mpr (.inl hk))
  | sent =>
    obtain ⟨p, -, hp⟩ := Fallback.exists_flush_parse? service f
      (hr.consistent.enqueue _).nodup (hr.consistent.mem_enqueue.mpr (.inl hk))
    exact .inr ⟨p, hp⟩

end Steps

theorem firstPass_invariant (service : Service σ) (profile : Profile) (conditions : Conditions)
    {q : BatchQueue} {f : Fallback σ} {I : List TestCase → List CaseState → BatchQueue → Fallback σ → Prop}
    (hr : Ready q f) (hstart : I [] [] q f)
    (hstep : ∀ ts t states state q₁ f₁ q₂ f₂,
      firstPass service profile conditions ts q f = (states, q₁, f₁) → Ready q₁ f₁ → I ts states q₁ f₁ →
      Step service profile q₁ f₁ (Condition.evaluate profile (expressionFor t.condition conditions))
        state q₂ f₂ → I (ts ++ [t]) (states ++ [state]) q₂ f₂)
    (ts : List TestCase) :
    Ready (firstPass service profile conditions ts q f).2.1 (firstPass service profile conditions ts q f).2.2 ∧
      I ts (firstPass service profile conditions ts q f).1 (firstPass service profile conditions ts q f).2.1
        (firstPass service profile conditions ts q f).2.2 := by
  induction ts using List.reverseRecOn with
  | nil => exact ⟨hr, hstart⟩
  | append_singleton ts t ih =>
    obtain ⟨hready, hi⟩ := ih
    have hs := step_spec service profile (expressionFor t.condition conditions)
      (f := (firstPass service profile conditions ts q f).2.2) hready.room hready.consistent
    rw [firstPass_concat]
    exact ⟨hs.ready hready, hstep ts t _ _ _ _ _ _ rfl hready hi hs⟩

theorem ready_firstPass (service : Service σ) (profile : Profile) (conditions : Conditions)
    {q : BatchQueue} {f : Fallback σ} (hr : Ready q f) (ts : List TestCase) :
    Ready (firstPass service profile conditions ts q f).2.1
      (firstPass service profile conditions ts q f).2.2 :=
  (firstPass_invariant service profile conditions (I := fun _ _ _ _ => True) hr trivial
    (fun _ _ _ _ _ _ _ _ _ _ _ _ => trivial) ts).1

end Applicability.Run
