import Applicability.Http.Message
import Applicability.Proofs.Text.Blank
import Mathlib.Data.Nat.Digits.Defs
import Mathlib.Tactic.IntervalCases

namespace Applicability

namespace Decimal

/-- The texts of a number of 64 bits: its digits, perhaps behind zeros and a plus sign. -/
def Writes (s : List Char) (n : Nat) : Prop :=
  ∃ digits : List Nat, digits ≠ [] ∧ (∀ d ∈ digits, d < 10) ∧ Nat.ofDigits 10 digits.reverse = n ∧ n < 2 ^ 64 ∧
    (s = digits.map Nat.digitChar ∨ s = '+' :: digits.map Nat.digitChar)

theorem Writes.ne_nil {s : List Char} {n : Nat} (h : Writes s n) : s ≠ [] := by
  obtain ⟨digits, hne, -, -, -, rfl | rfl⟩ := h
  · simpa using hne
  · exact List.cons_ne_nil _ _

end Decimal

namespace Http

end Http

end Applicability
