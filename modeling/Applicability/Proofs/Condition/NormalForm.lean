import Applicability.Proofs.Condition.RuleGrammar

namespace Applicability.Condition

open Text

inductive Evaluation.SameVerdict : Evaluation → Evaluation → Prop where
  | resolved {o o' : Outcome} (h : o.status = o'.status) : SameVerdict (.resolved o) (.resolved o')
  | deferred (key key' : String) : SameVerdict (.deferred key) (.deferred key')

def Evaluation.logic : Evaluation → String
  | .resolved o => o.logic
  | .deferred key => key

/-- The text names a status by itself; or its repair names none, and is no rule without the stops at its end. -/
def KeepsVerdict (text : String) : Prop :=
  (plainStatus? text.toList).isSome = true ∨
    plainStatus? (repair text).toList = none ∧
      (EndsInStop (repair text).toList → ∀ rule, ¬Rule.IsRule (repair (repair text)).toList rule)

variable {profile : Profile} {text : String}

theorem plainStatus?_trim (s : List Char) : plainStatus? (trim s) = plainStatus? s := by
  rw [plainStatus?, plainStatus?, trim_trim, ofLiteral?_trim]

theorem plainStatus?_literalLogic {status : Status} (h : plainStatus? text.toList = some status) :
    plainStatus? (literalLogic text status).toList = some status := by
  by_cases hblank : trim text.toList = []
  · have hstatus : status = .required := by
      rw [plainStatus?, hblank] at h
      exact (Option.some.inj h).symm
    have hlogic : literalLogic text status = status.token := by simp [literalLogic, trimmed, hblank]
    rw [hlogic, hstatus]
    decide
  · have hlogic : literalLogic text status = trimmed text := by simp [literalLogic, trimmed, hblank]
    rw [hlogic, trimmed, String.toList_ofList, plainStatus?_trim, h]

theorem not_plain_of_rule {rule : Rule} (h : Rule.ofChars? (repairChars text.toList) = some rule) :
    plainStatus? (repair text).toList = none := by
  rw [toList_repair, Option.eq_none_iff_forall_ne_some]
  intro status hplain
  rw [ofChars?_of_plain (repaired_repairChars text.toList) hplain] at h
  cases h

theorem not_endsInStop_of_rule {rule : Rule} (h : Rule.ofChars? (repairChars text.toList) = some rule) :
    ¬EndsInStop (repair text).toList := by
  obtain ⟨p, hreads, -⟩ := Rule.isRule_repair_iff.mpr h
  exact hreads.not_endsInStop

theorem evaluate_repair_of_rule (profile : Profile) {rule : Rule}
    (h : Rule.ofChars? (repairChars text.toList) = some rule) :
    evaluate profile (repair text) = .resolved (rule.evaluate profile (cacheKey text) []) := by
  have hfixed : repair (repair text) = repair text := (repair_repair_eq_iff text).mpr (not_endsInStop_of_rule h)
  have hrule : Rule.ofChars? (repairChars (repair text).toList) = some rule := by
    rw [← toList_repair, hfixed, toList_repair, h]
  rw [evaluate_of_rule profile (not_plain_of_rule h) hrule, cacheKey_eq, cacheKey_eq, hfixed]

theorem sameVerdict_deferred_iff {key : String} {e : Evaluation} :
    Evaluation.SameVerdict (.deferred key) e ↔ ∃ key', e = .deferred key' := by
  constructor
  · rintro ⟨⟩
    exact ⟨_, rfl⟩
  · rintro ⟨key', rfl⟩
    exact .deferred key key'

theorem Evaluation.SameVerdict.refl (e : Evaluation) : e.SameVerdict e := by
  cases e with
  | resolved o => exact .resolved rfl
  | deferred key => exact .deferred key key

theorem exists_deferred_repair_iff (profile : Profile)
    (h : Rule.ofChars? (repairChars text.toList) = none) :
    (∃ key, evaluate profile (repair text) = .deferred key) ↔
      plainStatus? (repair text).toList = none ∧
        (EndsInStop (repair text).toList → ∀ rule, ¬Rule.IsRule (repair (repair text)).toList rule) := by
  simp only [Rule.isRule_repair_iff]
  cases hplain : plainStatus? (repair text).toList with
  | some status => simp [evaluate_of_plain profile hplain]
  | none =>
    cases hrule : Rule.ofChars? (repairChars (repair text).toList) with
    | none => simp [evaluate_of_freeform profile hplain hrule]
    | some rule =>
      -- If the repair were its own repair, it would be no rule, like the text.
      have hstop : EndsInStop (repair text).toList := by
        by_contra hstop
        rw [← toList_repair, (repair_repair_eq_iff text).mpr hstop, toList_repair, h] at hrule
        cases hrule
      simp [evaluate_of_rule profile hplain hrule, hstop]

theorem logic_of_plain (profile : Profile) {status : Status} (h : plainStatus? text.toList = some status) :
    (evaluate profile text).logic = literalLogic text status := by
  rw [evaluate_of_plain profile h, Evaluation.logic, Outcome.of]

theorem logic_of_not_plain (profile : Profile) (h : plainStatus? text.toList = none) :
    (evaluate profile text).logic = repair text := by
  cases hrule : Rule.ofChars? (repairChars text.toList) with
  | some rule => rw [evaluate_of_rule profile h hrule, Evaluation.logic, evaluate_logic, cacheKey_eq]
  | none => rw [evaluate_of_freeform profile h hrule, Evaluation.logic]

theorem sameVerdict_of_plain (profile : Profile) {text' : String} {status : Status}
    (h : plainStatus? text.toList = some status) (h' : plainStatus? text'.toList = some status) :
    (evaluate profile text).SameVerdict (evaluate profile text') := by
  rw [evaluate_of_plain profile h, evaluate_of_plain profile h']
  apply Evaluation.SameVerdict.resolved
  simp only [Outcome.of]

/-- The repaired text of an expression, and the text that is reported for it, have the verdict of the expression
exactly where repair keeps it. -/
theorem sameVerdict_repair_iff (profile : Profile) (text : String) :
    ((evaluate profile text).SameVerdict (evaluate profile (repair text)) ↔ KeepsVerdict text) ∧
      ((evaluate profile text).SameVerdict (evaluate profile (evaluate profile text).logic) ↔ KeepsVerdict text) := by
  cases hplain : plainStatus? text.toList with
  | some status =>
    have hkeeps : KeepsVerdict text := .inl (by rw [hplain, Option.isSome_some])
    have hrepair : plainStatus? (repair text).toList = some status := by
      rw [toList_repair]
      exact plainStatus?_repairChars hplain
    rw [logic_of_plain profile hplain]
    constructor
    · exact iff_of_true (sameVerdict_of_plain profile hplain hrepair) hkeeps
    · exact iff_of_true (sameVerdict_of_plain profile hplain (plainStatus?_literalLogic hplain)) hkeeps
  | none =>
    rw [logic_of_not_plain profile hplain, and_self]
    cases hrule : Rule.ofChars? (repairChars text.toList) with
    | some rule =>
      have hkeeps : KeepsVerdict text :=
        .inr ⟨not_plain_of_rule hrule, fun hstop => absurd hstop (not_endsInStop_of_rule hrule)⟩
      rw [evaluate_of_rule profile hplain hrule, evaluate_repair_of_rule profile hrule]
      exact iff_of_true (.refl _) hkeeps
    | none =>
      rw [evaluate_of_freeform profile hplain hrule, sameVerdict_deferred_iff,
        exists_deferred_repair_iff profile hrule, KeepsVerdict, hplain]
      simp

theorem not_sameVerdict_repair :
    ¬(evaluate .empty "M.").SameVerdict (evaluate .empty (repair "M.")) := by
  have hwritten : evaluate .empty "M." = .deferred "M" := by decide +kernel
  have hrepaired : evaluate .empty (repair "M.") = .resolved (.of .mandatory "M" []) := by decide +kernel
  rw [hwritten, hrepaired]
  rintro ⟨⟩

end Applicability.Condition
