import Applicability.Text.Blank
import Applicability.Text.DecimalDigit
import Applicability.Text.Keyword

namespace Applicability.Text

-- The instance for all characters would go through every code point.
instance (priority := high) decidableForallMem (p : Char → Prop) [DecidablePred p] (s : List Char) :
    Decidable (∀ c ∈ s, p c) :=
  List.decidableBAll p s

def covers : List (Nat × Nat) → List (Nat × Nat) → Bool
  | rs, [] => rs.isEmpty
  | rs, s :: ss => covers (rs.dropWhile fun r => Nat.ble s.1 r.1 && Nat.ble r.2 s.2) ss

theorem inRanges_dropWhile {rs : List (Nat × Nat)} {s : Nat × Nat} {n : Nat}
    (hn : inRanges rs n = true) (hs : ¬(s.1 ≤ n ∧ n ≤ s.2)) :
    inRanges (rs.dropWhile fun r => Nat.ble s.1 r.1 && Nat.ble r.2 s.2) n = true := by
  induction rs with
  | nil => exact hn
  | cons r rs ih =>
    rw [List.dropWhile_cons]
    split
    · rename_i hr
      apply ih
      simp only [inRanges, List.any_cons, Bool.or_eq_true, Bool.and_eq_true, decide_eq_true_eq,
        Nat.ble_eq] at hn hr
      rcases hn with hn | hn
      · omega
      · exact hn
    · exact hn

theorem inRanges_of_covers {rs ss : List (Nat × Nat)} {n : Nat} (h : covers rs ss = true)
    (hn : inRanges rs n = true) : inRanges ss n = true := by
  induction ss generalizing rs with
  | nil => simp_all [covers, inRanges]
  | cons s ss ih =>
    by_cases hs : s.1 ≤ n ∧ n ≤ s.2
    · simp [inRanges, hs]
    · have hss := ih h (inRanges_dropWhile hn hs)
      simp only [inRanges, List.any_cons, Bool.or_eq_true] at hss ⊢
      exact .inr hss

def apart (rs ss : List (Nat × Nat)) : Bool :=
  rs.all fun r => ss.all fun s => Nat.blt s.2 r.1 || Nat.blt r.2 s.1

theorem not_inRanges_of_apart {rs ss : List (Nat × Nat)} {n : Nat} (h : apart rs ss = true)
    (hn : inRanges rs n = true) : inRanges ss n = false := by
  obtain ⟨r, hr, hrn⟩ := List.any_eq_true.mp hn
  have hss := List.all_eq_true.mp h r hr
  rw [inRanges, List.any_eq_false]
  intro s hs
  have hrs := List.all_eq_true.mp hss s hs
  simp only [Bool.or_eq_true, Nat.blt_eq, Bool.and_eq_true, decide_eq_true_eq] at hrs hrn ⊢
  omega

def blankRanges : List (Nat × Nat) :=
  [(0x85, 0x85), (0xA0, 0xA0), (0x1680, 0x1680), (0x2000, 0x200A), (0x2028, 0x2029), (0x202F, 0x202F),
    (0x205F, 0x205F), (0x3000, 0x3000)]

def isEdge (c : Char) : Bool :=
  isBlank c || c == '(' || c == ')'

theorem isEdge_of_isBlank {c : Char} (h : isBlank c = true) : isEdge c = true := by
  simp [isEdge, h]

theorem not_isBlank_of_not_isEdge {c : Char} (h : isEdge c = false) : isBlank c = false := by
  rw [Bool.eq_false_iff]
  intro hc
  rw [isEdge_of_isBlank hc] at h
  cases h

theorem ne_of_isEdge {c d : Char} (hc : isEdge c = true) (hd : isEdge d = false) : c ≠ d := by
  rintro rfl
  simp [hc] at hd

theorem isEdge_cases {c : Char} (h : isEdge c = true) :
    c.toNat ∈ [0x9, 0xA, 0xB, 0xC, 0xD, 0x20, 0x28, 0x29] ∨
      (0x80 ≤ c.toNat ∧ inRanges blankRanges c.toNat = true) := by
  simp only [isEdge, isBlank, Bool.or_eq_true, Bool.and_eq_true, decide_eq_true_eq, beq_iff_eq] at h
  simp only [List.mem_cons, List.not_mem_nil, or_false, inRanges, blankRanges, List.any_cons,
    List.any_nil, Bool.or_eq_true, Bool.and_eq_true, decide_eq_true_eq, Bool.false_eq_true]
  rcases h with (h | rfl) | rfl
  · omega
  · left
    decide
  · left
    decide

theorem isUpper_iff {c : Char} : c.isUpper = true ↔ 65 ≤ c.toNat ∧ c.toNat ≤ 90 := by
  change decide (c.val ≥ 65 ∧ c.val ≤ 90) = true ↔ _
  simp [UInt32.le_iff_toNat_le, ← Char.toNat_val]

theorem isLower_iff {c : Char} : c.isLower = true ↔ 97 ≤ c.toNat ∧ c.toNat ≤ 122 := by
  change (decide (c.val ≥ 97) && decide (c.val ≤ 122)) = true ↔ _
  simp [UInt32.le_iff_toNat_le, ← Char.toNat_val]

theorem isDigit_ascii_iff {c : Char} : c.isDigit = true ↔ 48 ≤ c.toNat ∧ c.toNat ≤ 57 := by
  simp [Char.isDigit, UInt32.le_iff_toNat_le, ← Char.toNat_val]

theorem isAlphanum_eq (c : Char) : c.isAlphanum = ((c.isUpper || c.isLower) || c.isDigit) := rfl

theorem isAlphanum_iff {c : Char} : c.isAlphanum = true ↔
    (65 ≤ c.toNat ∧ c.toNat ≤ 90) ∨ (97 ≤ c.toNat ∧ c.toNat ≤ 122) ∨
      (48 ≤ c.toNat ∧ c.toNat ≤ 57) := by
  simp only [isAlphanum_eq, Bool.or_eq_true, isUpper_iff, isLower_iff,
    isDigit_ascii_iff, or_assoc]

theorem isAlphanum_of_isEdge {c : Char} (h : isEdge c = true) : c.isAlphanum = false := by
  rw [Bool.eq_false_iff, ne_eq, isAlphanum_iff]
  rcases isEdge_cases h with h | ⟨h, _⟩
  · simp only [List.mem_cons, List.not_mem_nil, or_false] at h
    omega
  · omega

theorem isEdge_of_isAlphanum {c : Char} (h : c.isAlphanum = true) : isEdge c = false := by
  rw [Bool.eq_false_iff]
  intro he
  rw [isAlphanum_of_isEdge he] at h
  exact absurd h (by decide)

theorem isWordChar_of_isEdge {c : Char} (h : isEdge c = true) : isWordChar c = false := by
  rcases isEdge_cases h with hc | ⟨hc, hr⟩
  · have hne : c ≠ '_' := by
      rintro rfl
      exact absurd hc (by decide)
    have hlt : c.toNat < 0x80 := by
      simp only [List.mem_cons, List.not_mem_nil, or_false] at hc
      omega
    simp [isWordChar, hlt, hne, isAlphanum_of_isEdge h]
  · simp only [isWordChar, Nat.not_lt.mpr hc, if_false]
    exact not_inRanges_of_apart (by decide +kernel) hr

theorem isWordChar_of_isDigit {c : Char} (h : isDigit c = true) : isWordChar c = true := by
  unfold isDigit at h
  unfold isWordChar
  split at h
  · simp [Char.isAlphanum, *]
  · simp only [*, if_false]
    exact inRanges_of_covers (by decide +kernel) h

theorem isDigit_of_isEdge {c : Char} (h : isEdge c = true) : isDigit c = false := by
  rw [Bool.eq_false_iff]
  intro hd
  have hw := isWordChar_of_isDigit hd
  rw [isWordChar_of_isEdge h] at hw
  exact absurd hw (by decide)

theorem isWordChar_of_isAlphanum {c : Char} (h : c.isAlphanum = true) : isWordChar c = true := by
  have hc : c.toNat < 0x80 := by
    rw [isAlphanum_iff] at h
    omega
  simp [isWordChar, hc, h]

theorem toUpper_of_not_isLower {c : Char} (h : c.isLower = false) : c.toUpper = c := by
  unfold Char.toUpper
  split
  · rename_i hc
    rw [Bool.eq_false_iff, ne_eq, isLower_iff] at h
    exact absurd (by simpa [UInt32.le_iff_toNat_le] using hc) h
  · rfl

theorem isLower_eq_false_of_not_isAlphanum {c : Char} (h : c.isAlphanum = false) :
    c.isLower = false := by
  rw [Bool.eq_false_iff, ne_eq, isAlphanum_iff] at h
  rw [Bool.eq_false_iff, ne_eq, isLower_iff]
  omega

theorem eq_false_of_toUpper {p : Char → Bool} {k c : Char} (hp : ∀ c, p c = true → c.isLower = false)
    (hk : p k = false) (h : c.toUpper = k) : p c = false := by
  rw [Bool.eq_false_iff]
  intro hc
  rw [toUpper_of_not_isLower (hp c hc)] at h
  subst h
  rw [hc] at hk
  exact absurd hk (by decide)

theorem isLower_of_isEdge {c : Char} (h : isEdge c = true) : c.isLower = false :=
  isLower_eq_false_of_not_isAlphanum (isAlphanum_of_isEdge h)

theorem isAlphanum_of_toUpper {k c : Char} (hk : k.isUpper = true) (h : c.toUpper = k) :
    c.isAlphanum = true := by
  by_cases hc : c.isLower = true
  · simp [isAlphanum_eq, hc]
  · rw [toUpper_of_not_isLower (by simpa using hc)] at h
    simp [isAlphanum_eq, h, hk]

theorem not_isUpper_not_isLower_of_isDigit {c : Char} (h : isDigit c = true) :
    c.isUpper = false ∧ c.isLower = false := by
  have hascii : c.toNat < 0x80 → 48 ≤ c.toNat ∧ c.toNat ≤ 57 := fun hlt =>
    isDigit_ascii_iff.mp (by simpa [isDigit, hlt] using h)
  constructor
  · rw [Bool.eq_false_iff, ne_eq, isUpper_iff]
    omega
  · rw [Bool.eq_false_iff, ne_eq, isLower_iff]
    omega

end Applicability.Text
