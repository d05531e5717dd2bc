import Applicability.Condition.Evaluation

namespace Applicability

theorem Status.ofLiteral?_ne_error {s : List Char} {status : Status} (h : ofLiteral? s = some status) :
    status ≠ .error := by
  rintro rfl
  unfold ofLiteral? at h
  split at h <;> cases h

structure Outcome.Decided (o : Outcome) : Prop where
  status_ne : o.status ≠ .error
  applicable_eq : o.applicable = o.status.isApplicable

theorem Outcome.decided_of {status : Status} (h : status ≠ .error) (logic : String) (steps : List String) :
    (Outcome.of status logic steps).Decided :=
  ⟨h, rfl⟩

theorem Outcome.Decided.withSteps {o : Outcome} (h : o.Decided) (steps : List String) :
    ({ o with steps := steps } : Outcome).Decided :=
  ⟨h.status_ne, h.applicable_eq⟩

namespace Rule

open Condition

structure Authored (rule : Rule) : Prop where
  onTrue_ne : rule.onTrue ≠ .error
  onFalse_ne : rule.onFalse ≠ .error

theorem statusAt?_ne_error {s rest : List Char} {status : Status} (h : statusAt? s = some (status, rest)) :
    status ≠ .error := by
  rintro rfl
  unfold statusAt? at h
  split at h
  · cases h
  · cases h
  · split at h
    · cases h
    split at h
    · cases h
    split at h <;> cases h

theorem branch?_ne_error {keyword : String} {s rest : List Char} {status : Status}
    (h : branch? keyword s = some (status, rest)) : status ≠ .error := by
  simp only [branch?, Option.bind_eq_bind, Option.bind_eq_some_iff] at h
  obtain ⟨_, -, _, -, h⟩ := h
  exact statusAt?_ne_error h

theorem branches?_ne_error {s : List Char} {onTrue onFalse : Status}
    (h : branches? s = some (onTrue, onFalse)) : onTrue ≠ .error ∧ onFalse ≠ .error := by
  simp only [branches?, Option.bind_eq_bind, Option.bind_eq_some_iff] at h
  obtain ⟨⟨v, rest⟩, hv, h⟩ := h
  split at h
  · cases h
    exact ⟨branch?_ne_error hv, by decide⟩
  · simp only [Option.bind_eq_some_iff] at h
    obtain ⟨_, -, ⟨w, rest'⟩, hw, h⟩ := h
    split at h
    · cases h
      exact ⟨branch?_ne_error hv, branch?_ne_error hw⟩
    · cases h

theorem splitFrom?_ne_error {before : Option Char} {s a : List Char} {onTrue onFalse : Status}
    (h : splitFrom? before s = some (a, onTrue, onFalse)) : onTrue ≠ .error ∧ onFalse ≠ .error := by
  induction s generalizing before a with
  | nil => cases h
  | cons c s ih =>
    rw [splitFrom?] at h
    split at h
    · rename_i hb
      cases h
      exact branches?_ne_error hb
    · obtain ⟨⟨a', p⟩, hrest, heq⟩ := Option.map_eq_some_iff.mp h
      cases heq
      exact ih hrest

theorem authored_of_ofChars? {s : List Char} {rule : Rule} (h : ofChars? s = some rule) :
    rule.Authored := by
  simp only [ofChars?, Option.bind_eq_bind, Option.bind_eq_some_iff] at h
  obtain ⟨rest, -, h⟩ := h
  split at h
  · cases h
  obtain ⟨⟨a, onTrue, onFalse⟩, hsplit, h⟩ := Option.bind_eq_some_iff.mp h
  split at h
  · cases h
  · cases h
    obtain ⟨ht, hf⟩ := splitFrom?_ne_error hsplit
    exact ⟨ht, hf⟩

theorem Authored.decided {rule : Rule} (h : rule.Authored) (profile : Profile) (logic : String)
    (extra : List String) : (rule.evaluate profile logic extra).Decided := by
  unfold Rule.evaluate
  simp only
  cases Boolean.evaluate (rule.expression profile extra).2 with
  | error e => exact Outcome.decided_of (by decide) _ _
  | ok value =>
    refine Outcome.decided_of ?_ _ _
    cases value
    · exact h.onFalse_ne
    · exact h.onTrue_ne

end Rule

namespace Condition

open Text

theorem classify_ne_error {text : String} {s : Status} (h : classify text = .literal s) : s ≠ .error := by
  unfold classify at h
  simp only at h
  split at h
  · cases h
    decide
  split at h
  · rename_i hs
    cases h
    exact Status.ofLiteral?_ne_error hs
  split at h <;> cases h

theorem authored_of_classify {text : String} {rule : Rule} (h : classify text = .rule rule) :
    rule.Authored := by
  unfold classify at h
  simp only at h
  split at h
  · cases h
  split at h
  · cases h
  split at h
  · rename_i hr
    cases h
    exact Rule.authored_of_ofChars? hr
  · cases h

theorem decided_of_evaluate {profile : Profile} {text : String} {o : Outcome}
    (h : evaluate profile text = .resolved o) : o.Decided := by
  unfold evaluate at h
  split at h
  · rename_i s hs
    rw [← Evaluation.resolved.inj h]
    exact Outcome.decided_of (classify_ne_error hs) _ _
  · rename_i rule hr
    rw [← Evaluation.resolved.inj h]
    exact (authored_of_classify hr).decided _ _ _
  · cases h

end Condition

end Applicability
