import Applicability.Proofs.Lists
import Applicability.Proofs.Text.Keyword

namespace Applicability.Text

open Pattern

def Cased (keyword w : List Char) : Prop :=
  List.Forall₂ (fun k c => isLetter k c = true) keyword w

theorem isWordChar_of_isLetter {k c : Char} (hk : k.isUpper = true) (h : isLetter k c = true) :
    isWordChar c = true := by
  simp only [isLetter, Bool.or_eq_true, beq_iff_eq, Bool.and_eq_true] at h
  rcases h with (hup | ⟨-, rfl⟩) | ⟨-, rfl⟩
  · exact isWordChar_of_isAlphanum (isAlphanum_of_toUpper hk hup)
  · decide +kernel
  · decide +kernel

theorem isLetter_inj {k k' c : Char} (hk : k.isUpper = true) (hk' : k'.isUpper = true)
    (h : isLetter k c = true) (h' : isLetter k' c = true) : k = k' := by
  by_contra hne
  by_cases hup : c.toUpper = k
  · rw [isLetter_eq_false_of_toUpper_ne hk hup hne] at h'
    cases h'
  by_cases hup' : c.toUpper = k'
  · rw [isLetter_eq_false_of_toUpper_ne hk' hup' (Ne.symm hne)] at h
    cases h
  simp only [isLetter, hup, hup', beq_eq_false_iff_ne.mpr, ne_eq, not_false_eq_true, Bool.false_or, Bool.or_eq_true,
    Bool.and_eq_true, beq_iff_eq] at h h'
  rcases h with ⟨rfl, rfl⟩ | ⟨rfl, rfl⟩ <;> rcases h' with ⟨rfl, hc⟩ | ⟨rfl, hc⟩
  · exact hne rfl
  · cases hc
  · cases hc
  · exact hne rfl

namespace Cased

variable {keyword w : List Char}

theorem length_eq (h : Cased keyword w) : w.length = keyword.length :=
  (List.Forall₂.length_eq h).symm

theorem isWordChar (h : Cased keyword w) (hk : ∀ k ∈ keyword, k.isUpper = true) :
    ∀ c ∈ w, isWordChar c = true := by
  intro c hc
  obtain ⟨k, hmem, hletter⟩ := Lists.exists_left_of_mem h hc
  exact isWordChar_of_isLetter (hk k hmem) hletter

theorem not_isEdge (h : Cased keyword w) (hk : ∀ k ∈ keyword, k.isUpper = true) :
    ∀ c ∈ w, isEdge c = false := by
  intro c hc
  rw [Bool.eq_false_iff]
  intro hedge
  have hword := h.isWordChar hk c hc
  rw [isWordChar_of_isEdge hedge] at hword
  cases hword

theorem not_isLetter {k' : Char} (h : Cased keyword w) (hk : ∀ k ∈ keyword, k.isUpper = true)
    (hk' : k'.isUpper = true) (hne : k' ∉ keyword) : ∀ c ∈ w, isLetter k' c = false := by
  intro c hc
  rw [Bool.eq_false_iff]
  intro hletter
  obtain ⟨k, hmem, hkc⟩ := Lists.exists_left_of_mem h hc
  exact hne (isLetter_inj (hk k hmem) hk' hkc hletter ▸ hmem)

theorem upper_eq (h : Cased keyword w) (hs : 'S' ∉ keyword) (hk : 'K' ∉ keyword) : upper w = keyword := by
  induction h with
  | nil => rfl
  | @cons k c ks w hc _ ih =>
    rw [List.mem_cons, not_or] at hs hk
    -- Only `S` and `K` have a third character beside their two letter cases.
    have hup : c.toUpper = k := by simpa [isLetter, Ne.symm hs.1, Ne.symm hk.1] using hc
    rw [← ih hs.2 hk.2, upper, List.map_cons, hup, upper]

end Cased

theorem afterLetters?_eq_some_iff {keyword s r : List Char} :
    afterLetters? keyword s = some r ↔ ∃ w, Cased keyword w ∧ s = w ++ r := by
  induction keyword generalizing s with
  | nil =>
    constructor
    · intro h
      exact ⟨[], .nil, Option.some.inj h⟩
    · rintro ⟨w, hw, rfl⟩
      cases hw
      rfl
  | cons k ks ih =>
    cases s with
    | nil =>
      constructor
      · intro h
        cases h
      · rintro ⟨w, hw, h⟩
        cases hw
        cases h
    | cons c s =>
      by_cases hc : isLetter k c = true
      · rw [afterLetters?, if_pos hc, ih]
        constructor
        · rintro ⟨w, hw, rfl⟩
          exact ⟨c :: w, .cons hc hw, rfl⟩
        · rintro ⟨w, hw, h⟩
          obtain _ | ⟨hd, hw⟩ := hw
          obtain ⟨-, rfl⟩ := List.cons.inj h
          exact ⟨_, hw, rfl⟩
      · rw [afterLetters?, if_neg hc]
        constructor
        · intro h
          cases h
        · rintro ⟨w, hw, h⟩
          obtain _ | ⟨hd, hw⟩ := hw
          obtain ⟨rfl, -⟩ := List.cons.inj h
          exact absurd hd hc

section Words

variable {keyword : String} {before : Option Char} {s t t' : List Char}

theorem word_ne_zero_iff (hne : keyword.length ≠ 0) :
    word keyword before s ≠ 0 ↔
      isOpenSide before = true ∧ ∃ w r, Cased keyword.toList w ∧ s = w ++ r ∧ isOpenSide r.head? = true := by
  unfold word
  constructor
  · intro h
    split at h
    · rename_i hb
      split at h
      · rename_i r hr
        split at h
        · rename_i hside
          obtain ⟨w, hw, hs⟩ := afterLetters?_eq_some_iff.mp hr
          exact ⟨hb, w, r, hw, hs, hside⟩
        · exact absurd rfl h
      · exact absurd rfl h
    · exact absurd rfl h
  · rintro ⟨hb, w, r, hw, rfl, hside⟩
    rw [if_pos hb, afterLetters?_eq_some_iff.mpr ⟨w, hw, rfl⟩]
    simpa [hside] using hne

theorem misses_word_iff (hne : keyword.length ≠ 0) :
    Misses (word keyword) none s [] ↔ ∀ l w r, s = l ++ (w ++ r) → Cased keyword.toList w →
      isOpenSide l.getLast? = true → isOpenSide r.head? = false := by
  have hlast (l : List Char) : lastOf none l = l.getLast? := by rw [lastOf_eq, Option.or_none]
  rw [misses_iff]
  constructor
  · intro h l w r heq hw hl
    obtain ⟨c, w, rfl⟩ : ∃ c w', w = c :: w' := by
      apply List.exists_cons_of_ne_nil
      rintro rfl
      exact hne (by simpa using hw.length_eq.symm)
    have hzero := h l c (w ++ r) heq
    rw [List.append_nil, hlast] at hzero
    by_contra hr
    rw [Bool.not_eq_false] at hr
    exact (word_ne_zero_iff hne).mpr ⟨hl, c :: w, r, hw, rfl, hr⟩ hzero
  · intro h l c r heq
    by_contra hmatch
    rw [List.append_nil, hlast] at hmatch
    obtain ⟨hl, w, r', hw, hsplit, hr⟩ := (word_ne_zero_iff hne).mp hmatch
    rw [h l w r' (by rw [heq, hsplit]) hw hl] at hr
    cases hr

theorem isOpenSide_lastOf {w : List Char} (hw : w ≠ []) (hword : ∀ c ∈ w, isWordChar c = true) :
    isOpenSide (lastOf before w) = false := by
  obtain ⟨u, c, rfl⟩ : ∃ u c, w = u ++ [c] := ⟨_, _, (List.dropLast_append_getLast hw).symm⟩
  have hc : isWordChar c = true := hword c (by simp)
  simp [lastOf_append, isOpenSide, hc]

theorem misses_word_of_atEdge (hne : keyword.length ≠ 0) (hk : ∀ k ∈ keyword.toList, k.isUpper = true)
    (h : Misses (word keyword) before s t)
    (ht : isOpenSide t.head? = true ∨ isOpenSide (lastOf before s) = true) (ht' : AtEdge t') :
    Misses (word keyword) before s t' := by
  induction s generalizing before with
  | nil => trivial
  | cons c s ih =>
    obtain ⟨hzero, hrest⟩ := h
    refine ⟨?_, ih hrest ht⟩
    by_contra hmatch
    obtain ⟨hb, w, r, hw, heq, hside⟩ := (word_ne_zero_iff hne).mp hmatch
    rw [← List.cons_append] at heq hzero
    obtain ⟨x, hx⟩ := exists_eq_append_of_atEdge heq ht' (hw.not_isEdge hk)
    apply absurd hzero
    apply (word_ne_zero_iff hne).mpr
    refine ⟨hb, w, x ++ t, hw, by rw [hx, List.append_assoc], ?_⟩
    cases x with
    | cons d x =>
      rw [hx, List.append_assoc] at heq
      rw [← List.append_cancel_left heq] at hside
      simpa using hside
    | nil =>
      -- The keyword ends with the part that is kept, so what came after it was no word character.
      rw [List.append_nil] at hx
      rcases ht with ht | ht
      · simpa using ht
      · have hclosed : isOpenSide (lastOf before (c :: s)) = false :=
          isOpenSide_lastOf (List.cons_ne_nil c s) (hx ▸ hw.isWordChar hk)
        rw [lastOf_cons] at hclosed ht
        simp [hclosed] at ht

end Words

end Applicability.Text
