import Applicability.Condition.Repair
import Applicability.Proofs.Boolean.Mending
import Applicability.Proofs.Capability.Id
import Applicability.Proofs.Lists
import Applicability.Proofs.Text.Spacing
import Applicability.Status

namespace Applicability.Condition

open Boolean Capability Text

inductive Shows : Symbol Id → Lexeme → Prop where
  | atom (id : Id) : Shows (.atom id) (.word id.text)
  | conj {w : List Char} (h : Spells "AND" w) : Shows .conj (.word w)
  | disj {w : List Char} (h : Spells "OR" w) : Shows .disj (.word w)
  | neg {w : List Char} (h : Spells "NOT" w) : Shows .neg (.word w)
  | opening : Shows .opening .opening
  | closing : Shows .closing .closing

def WritesFormula (e : Formula Id) (xs : List Lexeme) : Prop :=
  ∃ symbols, Derives .disjunction maxDepth symbols e ∧ List.Forall₂ Shows symbols xs

structure SpellsStatus (s : Status) (w : List Char) : Prop where
  spells : Spells s.token w
  authored : s ≠ .error

inductive WritesBranches (onTrue : Status) : Status → List Lexeme → Prop where
  | whole {onFalse : Status} {v f w : List Char} (hv : SpellsStatus onTrue v) (hf : Spells "ELSE" f)
      (hw : SpellsStatus onFalse w) : WritesBranches onTrue onFalse [.word v, .word f, .word w]
  | short {v : List Char} (hv : SpellsStatus onTrue v) : WritesBranches onTrue .notApplicable [.word v]

inductive WritesRule (e : Formula Id) (onTrue onFalse : Status) : List Lexeme → Prop where
  | intro {i t : List Char} {xs ys : List Lexeme} (hi : Spells "IF" i) (hxs : WritesFormula e xs)
      (ht : Spells "THEN" t) (hys : WritesBranches onTrue onFalse ys) :
      WritesRule e onTrue onFalse (.word i :: (xs ++ .word t :: ys))

theorem proper_of_spells {keyword : String} {w : List Char} (h : Spells keyword w)
    (hk : keyword.length ≠ 0) (he : ∀ k ∈ keyword.toList, isEdge k = false) : (Lexeme.word w).Proper := by
  refine ⟨?_, h.isEdge he⟩
  rintro rfl
  exact hk h.length.symm

theorem Shows.proper {σ : Symbol Id} {x : Lexeme} (h : Shows σ x) : x.Proper := by
  cases h with
  | atom id => exact ⟨id.ne_nil, id.not_isEdge⟩
  | conj h | disj h | neg h => exact proper_of_spells h (by decide) (by decide)
  | opening | closing => trivial

theorem SpellsStatus.proper {s : Status} {w : List Char} (h : SpellsStatus s w) :
    (Lexeme.word w).Proper :=
  proper_of_spells h.spells (by cases s <;> decide) (by cases s <;> decide)

theorem WritesBranches.proper {onTrue onFalse : Status} {ys : List Lexeme}
    (h : WritesBranches onTrue onFalse ys) : ∀ y ∈ ys, y.Proper := by
  cases h with
  | whole hv hf hw =>
    have hf' := proper_of_spells hf (by decide) (by decide)
    simp [hv.proper, hf', hw.proper]
  | short hv => simp [hv.proper]

theorem WritesBranches.exists_last {onTrue onFalse : Status} {ys : List Lexeme}
    (h : WritesBranches onTrue onFalse ys) :
    ∃ zs v status, ys = zs ++ [.word v] ∧ SpellsStatus status v := by
  cases h with
  | @whole _ v f w hv hf hw => exact ⟨[.word v, .word f], w, onFalse, rfl, hw⟩
  | @short v hv => exact ⟨[], v, onTrue, rfl, hv⟩

theorem forall₂_proper {symbols : List (Symbol Id)} {xs : List Lexeme}
    (h : List.Forall₂ Shows symbols xs) : ∀ x ∈ xs, x.Proper := by
  intro x hx
  obtain ⟨σ, -, hσ⟩ := Lists.exists_left_of_mem h hx
  exact hσ.proper

theorem proper_of_then {symbols : List (Symbol Id)} {xs ys : List Lexeme} {t : List Char}
    {onTrue onFalse : Status} (hx : List.Forall₂ Shows symbols xs) (ht : Spells "THEN" t)
    (hys : WritesBranches onTrue onFalse ys) : ∀ x ∈ xs ++ .word t :: ys, x.Proper := by
  have hthen : (Lexeme.word t).Proper := proper_of_spells ht (by decide) (by decide)
  intro x hmem
  rcases List.mem_append.mp hmem with hmem | hmem
  · exact forall₂_proper hx x hmem
  · exact List.forall_mem_cons.mpr ⟨hthen, hys.proper⟩ x hmem

theorem Shows.bars {σ : Symbol Id} {w : List Char} {k : Char} (h : Shows σ (.word w))
    (hk : k.isUpper = true) (hne : k ∉ ['A', 'O', 'N', 'P']) : Bars k w := by
  simp only [List.mem_cons, List.not_mem_nil, or_false, not_or] at hne
  obtain ⟨ha, ho, hn, hp⟩ := hne
  cases h with
  | atom id => exact id.bars hk ha hp
  | conj h => exact h.bars rfl (by decide) (Ne.symm ha)
  | disj h => exact h.bars rfl (by decide) (Ne.symm ho)
  | neg h => exact h.bars rfl (by decide) (Ne.symm hn)

theorem forall₂_bars {symbols : List (Symbol Id)} {xs : List Lexeme} {k : Char}
    (h : List.Forall₂ Shows symbols xs) (hk : k.isUpper = true) (hne : k ∉ ['A', 'O', 'N', 'P']) :
    ∀ w, .word w ∈ xs → Bars k w := by
  intro w hw
  obtain ⟨σ, -, hσ⟩ := Lists.exists_left_of_mem h hw
  exact hσ.bars hk hne

section Parentheses

theorem shows_closed {symbols : List (Symbol Id)} {xs : List Lexeme} (h : List.Forall₂ Shows symbols xs) :
    List.Forall₂ Shows (closed symbols) (xs ++ List.replicate (depthAfter 0 symbols) .closing) :=
  List.rel_append h (Lists.forall₂_replicate .closing _)

theorem unclosed_append {g : List Char} (hg : ∀ c ∈ g, c ≠ '(' ∧ c ≠ ')') (s : List Char) (n : Nat) :
    unclosed (g ++ s) n = unclosed s n := by
  induction g with
  | nil => rfl
  | cons c g ih =>
    obtain ⟨hc, hg⟩ := List.forall_mem_cons.mp hg
    simpa [unclosed, hc.1, hc.2] using ih hg

theorem ne_paren_of_not_isEdge {w : List Char} (hw : ∀ c ∈ w, isEdge c = false) :
    ∀ c ∈ w, c ≠ '(' ∧ c ≠ ')' := by
  intro c hc
  constructor <;> rintro rfl <;> exact absurd (hw _ hc) (by decide)

theorem ne_paren_of_isBlank {g : List Char} (hg : ∀ c ∈ g, isBlank c = true) :
    ∀ c ∈ g, c ≠ '(' ∧ c ≠ ')' := by
  intro c hc
  constructor <;> rintro rfl <;> exact absurd (hg _ hc) (by decide)

theorem unclosed_eq_depthAfter {b : Bool} {xs : List Lexeme} {s : List Char}
    {symbols : List (Symbol Id)} (hs : Spaced b xs s) (h : List.Forall₂ Shows symbols xs) (n : Nat) :
    unclosed s n = depthAfter n symbols := by
  induction hs generalizing symbols n with
  | @nil b g hg =>
    cases h
    simpa [unclosed, depthAfter] using unclosed_append (ne_paren_of_isBlank hg) [] n
  | @cons b g s x xs hg hb hs ih =>
    obtain _ | @⟨σ, _, symbols, _, hx, hxs⟩ := h
    rw [unclosed_append (ne_paren_of_isBlank hg)]
    cases hx with
    | opening | closing => exact ih hxs _
    | atom id =>
      rw [Lexeme.text, unclosed_append (ne_paren_of_not_isEdge id.not_isEdge)]
      exact ih hxs n
    | conj h | disj h | neg h =>
      rw [Lexeme.text, unclosed_append (ne_paren_of_not_isEdge (h.isEdge (by decide)))]
      exact ih hxs n

end Parentheses

end Applicability.Condition
