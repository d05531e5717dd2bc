import Applicability.Proofs.Condition.Authored
import Applicability.Proofs.KeyMapOrder
import Applicability.Run.Result
import Mathlib.Data.List.Induction

namespace Applicability.RunResult

open Catalog

variable (cases : List TestCase) (v : TestCase → Outcome) (summary : RunSummary)

theorem zip_map_self : cases.zip (cases.map v) = cases.map fun t => (t, v t) := by
  induction cases with
  | nil => rfl
  | cons t cases ih => rw [List.map_cons, List.zip_cons_cons, ih, List.map_cons]

theorem reports_of : (RunResult.of cases (cases.map v) summary).reports = cases.map fun t => .of t (v t) := by
  rw [RunResult.of, zip_map_self, List.map_map]
  rfl

def applicable : List Status :=
  [.required, .mandatory, .optional]

theorem isApplicable_eq (s : Status) : s.isApplicable = decide (s ∈ applicable) := by
  cases s <;> rfl

theorem matchedIds_of (hv : ∀ t ∈ cases, (v t).Decided) :
    (RunResult.of cases (cases.map v) summary).matchedIds =
      ((RunResult.of cases (cases.map v) summary).reports.filter (·.status ∈ applicable)).map (·.testId) := by
  rw [reports_of, RunResult.of, zip_map_self]
  simp only [List.filterMap_map, List.filter_map, List.map_map]
  induction cases with
  | nil => rfl
  | cons t cases ih =>
    obtain ⟨ht, hcases⟩ := List.forall_mem_cons.mp hv
    have happlicable : (v t).applicable = decide ((v t).status ∈ applicable) := by
      rw [ht.applicable_eq, isApplicable_eq]
    rw [List.filterMap_cons, List.filter_cons]
    by_cases h : (v t).status ∈ applicable
    · simp only [Function.comp_apply, happlicable, h, decide_true, if_true, CaseReport.of, List.map_cons]
      exact congrArg _ (ih hcases)
    · simp only [Function.comp_apply, happlicable, h, decide_false, CaseReport.of]
      exact ih hcases

section Breakdown

variable (outcomes : List Outcome)

theorem breakdownOf_concat (o : Outcome) :
    breakdownOf (outcomes ++ [o]) = countToken (breakdownOf outcomes) o.status.token := by
  rw [breakdownOf, List.foldl_append]
  rfl

theorem ordered_breakdownOf : KeyMap.Ordered (breakdownOf outcomes).entries := by
  induction outcomes using List.reverseRecOn with
  | nil => exact List.Pairwise.nil
  | append_singleton outcomes o ih =>
    rw [breakdownOf_concat]
    exact KeyMap.ordered_put ih _ _

theorem get?_breakdownOf (token : String) (n : Nat) :
    (breakdownOf outcomes).get? token = some n ↔
      n = outcomes.countP (fun o => o.status.token = token) ∧ n ≠ 0 := by
  induction outcomes using List.reverseRecOn generalizing n with
  | nil => simp [breakdownOf]
  | append_singleton outcomes o ih =>
    rw [breakdownOf_concat, countToken, KeyMap.get?_insert, List.countP_append, List.countP_singleton]
    by_cases ho : o.status.token = token
    · subst ho
      -- The count so far is what the map has, or 0 where it has nothing.
      have hcount : ((breakdownOf outcomes).get? o.status.token).getD 0 =
          outcomes.countP fun o' => o'.status.token = o.status.token := by
        cases h : (breakdownOf outcomes).get? o.status.token with
        | some n => exact ((ih n).mp h).1
        | none =>
          by_contra hne
          rw [(ih _).mpr ⟨rfl, Ne.symm hne⟩] at h
          cases h
      simp only [if_true, hcount, Option.some.injEq, decide_true]
      omega
    · simp only [ho, if_false, decide_false, Bool.false_eq_true, Nat.add_zero]
      exact ih n

theorem sum_breakdownOf : ((breakdownOf outcomes).toList.map (·.2)).sum = outcomes.length := by
  induction outcomes using List.reverseRecOn with
  | nil => rfl
  | append_singleton outcomes o ih =>
    rw [breakdownOf_concat, List.length_append, List.length_singleton, ← ih]
    have hsum := KeyMap.sum_put (ordered_breakdownOf outcomes) o.status.token
      (((breakdownOf outcomes).get? o.status.token).getD 0 + 1)
    rw [← Nat.add_assoc, Nat.add_right_comm] at hsum
    exact Nat.add_right_cancel hsum

end Breakdown

theorem breakdown_of :
    (RunResult.of cases (cases.map v) summary).breakdown = breakdownOf (cases.map v) := by
  rw [RunResult.of, zip_map_self]
  dsimp only
  rw [List.map_map]
  rfl

theorem countP_reports (token : String) :
    (RunResult.of cases (cases.map v) summary).reports.countP (·.status.token = token) =
      (cases.map v).countP fun o => o.status.token = token := by
  rw [reports_of, List.countP_map, List.countP_map]
  rfl

end Applicability.RunResult
