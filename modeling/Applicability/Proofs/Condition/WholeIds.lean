import Applicability.Proofs.Capability.Id
import Applicability.Proofs.Condition.Substitution

namespace Applicability.Condition

open Capability Text Pattern

def IsAscii (s : List Char) : Prop :=
  ∀ c ∈ s, c.toNat < 0x80

theorem isAscii_cons {c : Char} {s : List Char} : IsAscii (c :: s) ↔ c.toNat < 0x80 ∧ IsAscii s :=
  List.forall_mem_cons

theorem isAscii_append {s t : List Char} : IsAscii (s ++ t) ↔ IsAscii s ∧ IsAscii t :=
  List.forall_mem_append

theorem isWordChar_ascii {c : Char} (hc : c.toNat < 0x80) : isWordChar c = (c.isAlphanum || c == '_') := by
  simp [isWordChar, hc]

theorem isDigit_ascii {c : Char} (hc : c.toNat < 0x80) : isDigit c = c.isDigit := by
  simp [isDigit, hc]

theorem extendsBefore_of_isWordChar {c : Char} (hc : c.toNat < 0x80) (h : isWordChar c = true) :
    extendsBefore c = true := by
  rw [isWordChar_ascii hc] at h
  simp [extendsBefore, h]

theorem startsWithDigit_ascii {s : List Char} (hs : IsAscii s) :
    startsWithDigit s = s.head?.any Char.isDigit := by
  cases s with
  | nil => rfl
  | cons c s => simp [startsWithDigit, isDigit_ascii (isAscii_cons.mp hs).1]

theorem stops_of_extendsAfter {s : List Char} (hs : IsAscii s) (h : extendsAfter s = false) : Stops s := by
  cases s with
  | nil => exact ⟨rfl, fun _ => rfl⟩
  | cons c s =>
    obtain ⟨hc, hs⟩ := isAscii_cons.mp hs
    simp only [extendsAfter, Bool.or_eq_false_iff] at h
    obtain ⟨⟨halnum, hunder⟩, hsep⟩ := h
    have hdigit : isDigit c = false := by
      rw [isDigit_ascii hc]
      simp only [isAlphanum_eq, Bool.or_eq_false_iff] at halnum
      exact halnum.2
    constructor
    · simp [isWordChar_ascii hc, halnum, hunder]
    · intro zone
      rw [numbersWidth, hdigit, isLower_eq_false_of_not_isAlphanum halnum, startsWithDigit_ascii hs]
      rcases Bool.and_eq_false_iff.mp hsep with hsep | hd
      · simp only [Bool.or_eq_false_iff] at hsep
        simp [hsep]
      · simp [hd]

def wholeId (ids : List (List Char)) : Pattern := fun before s =>
  let n := idPattern before s
  if before.any extendsBefore || extendsAfter (s.drop n) || !ids.contains (s.take n) then 0 else n

variable {ids : List (List Char)} {before : Option Char} {s : List Char}

theorem wholeId_eq {id : Id} (hid : id.text ∈ ids) (hb : before.any extendsBefore = false)
    (ha : extendsAfter s = false) (hs : IsAscii s) :
    wholeId ids before (id.text ++ s) = id.text.length := by
  have hn : idPattern before (id.text ++ s) = id.text.length := by
    rw [idPattern_append before none (stops_of_extendsAfter hs ha), id.idPattern_eq]
  simp [wholeId, hn, hb, ha, hid]

theorem wholeId_ne_zero {id : Id} (h : wholeId ids before (id.text ++ s) = id.text.length) :
    wholeId ids before (id.text ++ s) ≠ 0 := by
  rw [h]
  exact fun hlen => id.ne_nil (List.length_eq_zero_iff.mp hlen)

theorem extends_of_wholeId {id : Id} (h : wholeId ids before (id.text ++ s) = 0) (hid : id.text ∈ ids)
    (hs : IsAscii s) : (before.any extendsBefore || extendsAfter s) = true := by
  by_contra hwhole
  simp only [Bool.or_eq_true, not_or, Bool.not_eq_true] at hwhole
  exact wholeId_ne_zero (wholeId_eq hid hwhole.1 hwhole.2 hs) h

theorem wholeId_cases (h : wholeId ids before s ≠ 0) :
    ∃ id : Id, ∃ r, s = id.text ++ r ∧ id.text ∈ ids ∧ before.any extendsBefore = false ∧
      extendsAfter r = false ∧ idPattern before s = id.text.length ∧
      wholeId ids before s = id.text.length := by
  have hn : idPattern before s ≠ 0 := by
    intro hn
    exact h (by simp [wholeId, hn])
  obtain ⟨id, r, rfl, hlen⟩ := exists_id hn
  simp only [wholeId, hlen, List.drop_left, List.take_left] at h ⊢
  split at h
  · exact absurd rfl h
  · rename_i hw
    rw [if_neg hw]
    simp only [Bool.or_eq_true, not_or, Bool.not_eq_true, Bool.not_eq_false', List.contains_iff_mem] at hw
    exact ⟨id, r, rfl, hw.2, hw.1.1, hw.1.2, rfl, rfl⟩

theorem wholeId_eq_idPattern (h : wholeId ids before s ≠ 0) : wholeId ids before s = idPattern before s := by
  obtain ⟨id, r, -, -, -, -, hlen, hwhole⟩ := wholeId_cases h
  rw [hlen, hwhole]

theorem whole_of_wholeId {id : Id} (h : wholeId ids before (id.text ++ s) = id.text.length) :
    id.text ∈ ids ∧ before.any extendsBefore = false ∧ extendsAfter s = false := by
  obtain ⟨found, r, hr, hmem, hopen, hstop, -, hlen⟩ := wholeId_cases (wholeId_ne_zero h)
  obtain ⟨htext, rfl⟩ := List.append_inj hr (h.symm.trans hlen)
  exact ⟨htext ▸ hmem, hopen, hstop⟩

theorem wholeId_of_cons {r : List Char} (hs : IsAscii s) (h : wholeId (r :: ids) before s = 0) :
    wholeId ids before s = 0 := by
  by_contra hne
  obtain ⟨id, y, rfl, hmem, hopen, hstop, -⟩ := wholeId_cases hne
  exact wholeId_ne_zero (wholeId_eq (List.mem_cons_of_mem _ hmem) hopen hstop (isAscii_append.mp hs).2) h

theorem whole_induction (ids : List (List Char)) {P : Option Char → List Char → Prop}
    (hnil : ∀ before, P before [])
    (hid : ∀ before (id : Id) s, wholeId ids before (id.text ++ s) = id.text.length →
      P (lastOf before id.text) s → P before (id.text ++ s))
    (hskip : ∀ before c s, wholeId ids before (c :: s) = 0 → P (some c) s → P before (c :: s))
    (before : Option Char) (s : List Char) : P before s := by
  induction hn : s.length using Nat.strongRecOn generalizing before s with
  | ind n ih =>
    cases s with
    | nil => exact hnil before
    | cons c s =>
      by_cases h : wholeId ids before (c :: s) = 0
      · exact hskip before c s h (ih s.length (by rw [← hn, List.length_cons]; omega) _ s rfl)
      · obtain ⟨id, r, hr, -, -, -, -, hlen⟩ := wholeId_cases h
        have hpos := List.length_pos_iff.mpr id.ne_nil
        rw [hr] at hlen hn ⊢
        rw [List.length_append] at hn
        exact hid before id r hlen (ih r.length (by omega) _ r rfl)

theorem wholeId_of_extendsBefore (h : before.any extendsBefore = true) : wholeId ids before s = 0 := by
  simp [wholeId, h]

theorem wholeId_of_head {c : Char} (ha : c ≠ 'A') (hp : c ≠ 'P') : wholeId ids before (c :: s) = 0 := by
  by_contra h
  obtain ⟨id, r, hr, -⟩ := wholeId_cases h
  rcases id.cases_text with ⟨cs, hcs⟩ | ⟨cs, hcs⟩
  · rw [hcs] at hr
    exact ha (List.cons.inj hr).1
  · rw [hcs] at hr
    exact hp (List.cons.inj hr).1

theorem misses_of_isChain {c : Char} {w : List Char} (hw : IsAscii (c :: w))
    (h : (c :: w).IsChain fun x y => isWordChar x = true ∨ isDigit y = true) :
    Misses (wholeId ids) (some c) w s := by
  induction w generalizing c with
  | nil => trivial
  | cons d w ih =>
    obtain ⟨hc, hw⟩ := isAscii_cons.mp hw
    rw [List.isChain_cons_cons] at h
    refine ⟨?_, ih hw h.2⟩
    rcases h.1 with hword | hdigit
    · exact wholeId_of_extendsBefore (by simpa using extendsBefore_of_isWordChar hc hword)
    · apply wholeId_of_head
      · rintro rfl
        exact absurd hdigit (by decide)
      · rintro rfl
        exact absurd hdigit (by decide)

theorem misses_wholeId {id : Id} (hid : IsAscii id.text) (h : wholeId ids before (id.text ++ s) = 0) :
    Misses (wholeId ids) before id.text s := by
  have hshape := id.shaped.chain
  rcases hw : id.text with _ | ⟨c, w⟩
  · trivial
  · rw [hw] at h hid hshape
    exact ⟨h, misses_of_isChain hid hshape⟩

end Applicability.Condition
