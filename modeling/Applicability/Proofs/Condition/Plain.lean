import Applicability.Condition.Evaluation
import Applicability.Proofs.Condition.Repaired

namespace Applicability.Condition

open Text Pattern

theorem evaluate_logic (profile : Profile) (logic : String) (rule : Rule) (extra : List String) :
    (rule.evaluate profile logic extra).logic = logic := by
  cases h : Boolean.evaluate (rule.expression profile extra).2 with
  | ok value => simp only [Rule.evaluate, h, Outcome.of]
  | error e => simp only [Rule.evaluate, h, Outcome.of]

def plainStatus? (s : List Char) : Option Status :=
  if (trim s).isEmpty then some .required else Status.ofLiteral? s

section Kinds

variable {text : String} {status : Status}

theorem ofLiteral?_trim (s : List Char) : Status.ofLiteral? (trim s) = Status.ofLiteral? s := by
  rw [Status.ofLiteral?, Status.ofLiteral?, trim_trim]

theorem classify_of_plain (h : plainStatus? text.toList = some status) : classify text = .literal status := by
  rw [plainStatus?] at h
  rw [classify, ofLiteral?_trim]
  split at h
  · rename_i hempty
    cases h
    rw [if_pos hempty]
  · rename_i hempty
    simp only [hempty, h]
    rfl

theorem classify_of_not_plain (h : plainStatus? text.toList = none) :
    classify text = ((Rule.ofChars? (repairChars text.toList)).map Condition.rule).getD (.freeform (repair text)) := by
  rw [plainStatus?] at h
  rw [classify, ofLiteral?_trim]
  split at h
  · cases h
  · rename_i hempty
    simp only [hempty, h, repairChars_trim]
    cases Rule.ofChars? (repairChars text.toList) <;> rfl

theorem evaluate_of_plain (profile : Profile) (h : plainStatus? text.toList = some status) :
    evaluate profile text = .resolved (.of status (literalLogic text status) []) := by
  rw [evaluate, classify_of_plain h]

theorem evaluate_of_rule (profile : Profile) {rule : Rule} (h : plainStatus? text.toList = none)
    (hrule : Rule.ofChars? (repairChars text.toList) = some rule) :
    evaluate profile text = .resolved (rule.evaluate profile (cacheKey text) []) := by
  rw [evaluate, classify_of_not_plain h, hrule]
  rfl

theorem evaluate_of_freeform (profile : Profile) (h : plainStatus? text.toList = none)
    (hrule : Rule.ofChars? (repairChars text.toList) = none) :
    evaluate profile text = .deferred (repair text) := by
  rw [evaluate, classify_of_not_plain h, hrule]
  rfl

end Kinds

theorem ofLiteral?_eq_some_iff {s : List Char} {status : Status} :
    Status.ofLiteral? s = some status ↔ SpellsStatus status (trim s) := by
  rw [Status.ofLiteral?]
  constructor
  · intro h
    split at h <;> cases h <;> exact ⟨by assumption, by decide⟩
  · rintro ⟨hspells, hne⟩
    rw [Spells] at hspells
    cases status with
    | error => exact absurd rfl hne
    | required | mandatory | optional | notApplicable => simp [hspells, Status.token]

theorem plainStatus?_eq_some_iff {s : List Char} {status : Status} :
    plainStatus? s = some status ↔ trim s = [] ∧ status = .required ∨ SpellsStatus status (trim s) := by
  rw [plainStatus?, ← ofLiteral?_eq_some_iff]
  by_cases h : trim s = []
  · have hnone : Status.ofLiteral? s = none := by simp [Status.ofLiteral?, h, upper]
    simp [h, hnone, eq_comm]
  · simp [h]

section Tokens

variable {status : Status} {w : List Char}

theorem SpellsStatus.length_lt (h : SpellsStatus status w) : w.length < 4 := by
  have hlen := h.spells.length
  cases status with
  | error => exact absurd rfl h.authored
  | required | mandatory | optional | notApplicable =>
    rw [hlen]
    decide

theorem SpellsStatus.not_endsInStop (h : SpellsStatus status w) (s : List Char) : ¬EndsInStop (s ++ w) := by
  obtain ⟨v, c, rfl⟩ : ∃ v c, w = v ++ [c] := ⟨_, _, (List.dropLast_append_getLast h.proper.1).symm⟩
  have hc := h.isStop c (by simp)
  simp [EndsInStop, ← List.append_assoc, hc]

theorem SpellsStatus.repaired (h : SpellsStatus status w) : Repaired w where
  collapsed := misses_of_forall fun c hc => stray_of_not_isBlank (Lexeme.not_isBlank h.proper c hc)
  unglued := by
    apply misses_iff.mpr
    intro l c r heq
    by_contra hmatch
    obtain ⟨x, y, hparen, -⟩ := glues_gluedOperator _ _ hmatch
    rw [List.append_nil] at hparen
    have hmem : '(' ∈ w := by simp [heq, hparen]
    exact absurd (h.proper.2 '(' hmem) (by decide)
  closed := by
    intro a r hcut
    obtain ⟨rfl, -, -, hmatch⟩ := cutFrom?_eq_some_iff.mp hcut
    obtain ⟨-, t, x, ht, rfl, -⟩ := (word_ne_zero_iff (by decide)).mp hmatch
    have hlen := h.length_lt
    have hfour : t.length = 4 := ht.length_eq
    simp only [List.length_append] at hlen
    omega

theorem SpellsStatus.repairChars_eq (h : SpellsStatus status w) : repairChars w = w :=
  repairChars_of_repaired h.repaired (h.not_endsInStop [])

theorem SpellsStatus.ofChars?_eq_none (h : SpellsStatus status w) : Rule.ofChars? w = none := by
  have hi : afterLetters? ['I', 'F'] w = none := by
    obtain ⟨hspells, hne⟩ := h
    rw [Spells] at hspells
    cases w with
    | nil => rfl
    | cons c w =>
      have hc : c.toUpper ≠ 'I' := by
        intro hc
        rw [upper, List.map_cons, hc] at hspells
        cases status <;> simp [Status.token] at hspells
      simp [afterLetters?, isLetter, hc]
  simp [Rule.ofChars?, hi]

end Tokens

theorem plainStatus?_repairChars {s : List Char} {status : Status} (h : plainStatus? s = some status) :
    plainStatus? (repairChars s) = some status := by
  rw [plainStatus?_eq_some_iff, ← repairChars_trim s]
  rcases plainStatus?_eq_some_iff.mp h with ⟨hblank, rfl⟩ | hspells
  · left
    rw [hblank]
    exact ⟨rfl, rfl⟩
  · right
    rw [hspells.repairChars_eq, trim_trim]
    exact hspells

theorem ofChars?_of_plain {s : List Char} {status : Status} (hs : Repaired s)
    (h : plainStatus? s = some status) : Rule.ofChars? s = none := by
  rw [plainStatus?_eq_some_iff, hs.trim_eq] at h
  rcases h with ⟨rfl, -⟩ | hspells
  · rfl
  · exact hspells.ofChars?_eq_none

end Applicability.Condition
