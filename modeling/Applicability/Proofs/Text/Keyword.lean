import Applicability.Proofs.Text.CharClass
import Applicability.Proofs.Text.Pattern
import Mathlib.Data.List.Chain

namespace Applicability.Text

open Pattern

def Spells (keyword : String) (w : List Char) : Prop :=
  upper w = keyword.toList

theorem isLetter_of_toUpper {k c : Char} (h : c.toUpper = k) : isLetter k c = true := by
  simp [isLetter, h]

theorem isLetter_eq_false_of_toUpper {k c : Char} (hk : k.isUpper = true) (hu : c.isUpper = false)
    (hc : c.toUpper = c) (hs : c ≠ '\u017f') (hkel : c ≠ '\u212a') : isLetter k c = false := by
  have hne : c ≠ k := by
    rintro rfl
    simp [hk] at hu
  simp [isLetter, hc, hne, hs, hkel]

theorem isLetter_eq_false_of_ne {k c : Char} (hc : c.isUpper = true) (h : c ≠ k) :
    isLetter k c = false := by
  have hl : c.isLower = false := by
    rw [isUpper_iff] at hc
    rw [Bool.eq_false_iff, ne_eq, isLower_iff]
    omega
  have hs : c ≠ '\u017f' := by
    rintro rfl
    exact absurd hc (by decide)
  have hkel : c ≠ '\u212a' := by
    rintro rfl
    exact absurd hc (by decide)
  simp [isLetter, toUpper_of_not_isLower hl, h, hs, hkel]

theorem isLetter_eq_false_of_toUpper_ne {k k' c : Char} (hk : k'.isUpper = true) (h : c.toUpper = k')
    (hne : k' ≠ k) : isLetter k c = false := by
  have hs : c ≠ '\u017f' := by
    rintro rfl
    subst h
    exact absurd hk (by decide)
  have hkel : c ≠ '\u212a' := by
    rintro rfl
    subst h
    exact absurd hk (by decide)
  simp [isLetter, h, hne, hs, hkel]

theorem isLetter_eq_false_of_isEdge {k c : Char} (hk : k.isUpper = true) (hc : isEdge c = true) :
    isLetter k c = false := by
  have ha := isAlphanum_of_isEdge hc
  have hu : c.isUpper = false := by
    simp only [isAlphanum_eq, Bool.or_eq_false_iff] at ha
    exact ha.1.1
  refine isLetter_eq_false_of_toUpper hk hu
    (toUpper_of_not_isLower (isLower_eq_false_of_not_isAlphanum ha)) ?_ ?_
  · rintro rfl
    exact absurd hc (by decide +kernel)
  · rintro rfl
    exact absurd hc (by decide +kernel)

theorem isLetter_eq_false_of_isDigit {k c : Char} (hk : k.isUpper = true) (hc : isDigit c = true) :
    isLetter k c = false := by
  obtain ⟨hu, hl⟩ := not_isUpper_not_isLower_of_isDigit hc
  refine isLetter_eq_false_of_toUpper hk hu (toUpper_of_not_isLower hl) ?_ ?_
  · rintro rfl
    exact absurd hc (by decide +kernel)
  · rintro rfl
    exact absurd hc (by decide +kernel)

theorem afterLetters?_upper {ks w : List Char} (h : upper w = ks) (s : List Char) :
    afterLetters? ks (w ++ s) = some s := by
  subst h
  induction w with
  | nil => rfl
  | cons c w ih => simpa [upper, afterLetters?, isLetter_of_toUpper] using ih

theorem afterLetters?_eq_some {ks s r : List Char} (h : afterLetters? ks s = some r) :
    ∃ w, s = w ++ r ∧ w.length = ks.length ∧ ∀ c ∈ w, ∃ k ∈ ks, isLetter k c = true := by
  induction ks generalizing s with
  | nil => exact ⟨[], by simpa [afterLetters?] using h, rfl, by simp⟩
  | cons k ks ih =>
    cases s with
    | nil => simp [afterLetters?] at h
    | cons c s =>
      by_cases hc : isLetter k c = true
      · simp only [afterLetters?, hc, if_true] at h
        obtain ⟨w, rfl, hlen, hw⟩ := ih h
        refine ⟨c :: w, rfl, by simp [hlen], ?_⟩
        rintro d (_ | ⟨_, hd⟩)
        · exact ⟨k, by simp, hc⟩
        · obtain ⟨k', hk', hl⟩ := hw d hd
          exact ⟨k', by simp [hk'], hl⟩
      · simp [afterLetters?, hc] at h

theorem Spells.length {keyword : String} {w : List Char} (h : Spells keyword w) :
    w.length = keyword.length := by
  have hl := congrArg List.length h
  simpa [upper, String.length_toList] using hl

def AtEdge (s : List Char) : Prop :=
  s.head?.all isEdge = true

@[simp] theorem atEdge_nil : AtEdge [] := rfl

@[simp] theorem atEdge_cons {c : Char} {s : List Char} : AtEdge (c :: s) ↔ isEdge c = true := Iff.rfl

theorem exists_eq_append_of_atEdge {w s t r : List Char} (h : w ++ s = t ++ r) (hs : AtEdge s)
    (ht : ∀ c ∈ t, isEdge c = false) : ∃ u, w = t ++ u := by
  rcases List.append_eq_append_iff.mp h with ⟨a, rfl, rfl⟩ | ⟨u, rfl, -⟩
  · cases a with
    | nil => exact ⟨[], by simp⟩
    | cons c a =>
      have hc := atEdge_cons.mp hs
      exact absurd hc (by simp [ht c (by simp)])
  · exact ⟨u, rfl⟩

theorem append_inj_of_atEdge {w s t r : List Char} (h : w ++ s = t ++ r) (hw : ∀ c ∈ w, isEdge c = false)
    (ht : ∀ c ∈ t, isEdge c = false) (hs : AtEdge s) (hr : AtEdge r) : w = t ∧ s = r := by
  obtain ⟨u, hu⟩ := exists_eq_append_of_atEdge h hs ht
  obtain ⟨v, hv⟩ := exists_eq_append_of_atEdge h.symm hr hw
  refine List.append_inj h ?_
  have h₁ := congrArg List.length hu
  have h₂ := congrArg List.length hv
  simp only [List.length_append] at h₁ h₂
  omega

theorem isOpenSide_of_all_isEdge {side : Option Char} (h : side.all isEdge = true) :
    isOpenSide side = true := by
  cases side with
  | none => rfl
  | some c => simp [isOpenSide, isWordChar_of_isEdge (by simpa using h)]

def Takes (p : Pattern) (w : List Char) : Prop :=
  ∀ before s, before.all isEdge = true → AtEdge s → p before (w ++ s) = w.length

def Avoids (p : Pattern) (w : List Char) : Prop :=
  ∀ before s, before.all isEdge = true → AtEdge s → Misses p before w s

theorem takes_word {keyword : String} {w : List Char} (h : Spells keyword w) :
    Takes (word keyword) w := by
  intro before s hb hs
  simp [word, isOpenSide_of_all_isEdge hb, afterLetters?_upper h, isOpenSide_of_all_isEdge hs, h.length]

structure Bars (k : Char) (w : List Char) : Prop where
  head : ∀ c ∈ w.head?, isLetter k c = false
  inner : w.IsChain fun x y => isWordChar x = true ∨ isLetter k y = false

theorem misses_word {keyword : String} {k : Char} {ks w : List Char} (hk : keyword.toList = k :: ks)
    (h : Bars k w) (before : Option Char) (s : List Char) : Misses (word keyword) before w s := by
  have hzero : ∀ before c r, before.any isWordChar = true ∨ isLetter k c = false →
      word keyword before (c :: r) = 0 := by
    rintro before c r (hb | hc)
    · simp [word, isOpenSide, hb]
    · simp [word, hk, afterLetters?, hc]
  obtain ⟨hhead, hinner⟩ := h
  induction w generalizing before with
  | nil => trivial
  | cons c w ih =>
    refine ⟨hzero _ _ _ (.inr (hhead c (by simp))), ?_⟩
    clear ih hhead
    induction w generalizing c with
    | nil => trivial
    | cons d w ih =>
      obtain ⟨hcd, hw⟩ := List.isChain_cons_cons.mp hinner
      exact ⟨hzero _ _ _ (by simpa using hcd), ih d hw⟩

theorem bars_of_isWordChar {k : Char} {w : List Char} (hhead : ∀ c ∈ w.head?, isLetter k c = false)
    (hw : ∀ c ∈ w, isWordChar c = true) : Bars k w :=
  ⟨hhead, List.isChain_iff_getElem.mpr fun _ _ => .inl (hw _ (List.getElem_mem _))⟩

theorem bars_of_isLetter {k : Char} {w : List Char} (hw : ∀ c ∈ w, isLetter k c = false) : Bars k w :=
  ⟨fun c hc => hw c (List.mem_of_head? hc),
    List.isChain_iff_getElem.mpr fun _ _ => .inr (hw _ (List.getElem_mem _))⟩

theorem Spells.isAlphanum {keyword : String} {w : List Char} (h : Spells keyword w)
    (hk : ∀ k ∈ keyword.toList, k.isUpper = true) : ∀ c ∈ w, c.isAlphanum = true := by
  intro c hc
  have hmem : c.toUpper ∈ keyword.toList := by
    rw [← h]
    exact List.mem_map_of_mem hc
  exact isAlphanum_of_toUpper (hk _ hmem) rfl

theorem Spells.eq_false {p : Char → Bool} {keyword : String} {w : List Char} (h : Spells keyword w)
    (hp : ∀ c, p c = true → c.isLower = false) (hk : ∀ k ∈ keyword.toList, p k = false) :
    ∀ c ∈ w, p c = false := by
  intro c hc
  have hmem : c.toUpper ∈ keyword.toList := by
    rw [← h]
    exact List.mem_map_of_mem hc
  exact eq_false_of_toUpper hp (hk _ hmem) rfl

theorem Spells.isEdge {keyword : String} {w : List Char} (h : Spells keyword w)
    (hk : ∀ k ∈ keyword.toList, isEdge k = false) : ∀ c ∈ w, isEdge c = false :=
  h.eq_false (fun _ => isLower_of_isEdge) hk

theorem Spells.bars {keyword : String} {k k' : Char} {ks w : List Char} (h : Spells keyword w)
    (hks : keyword.toList = k' :: ks) (hu : ∀ k ∈ keyword.toList, k.isUpper = true) (hne : k' ≠ k) :
    Bars k w := by
  refine bars_of_isWordChar ?_ fun c hc => isWordChar_of_isAlphanum (h.isAlphanum hu c hc)
  intro c hc
  obtain ⟨w, rfl⟩ := List.head?_eq_some_iff.mp hc
  have hup : c.toUpper = k' := by
    have hw : upper (c :: w) = k' :: ks := h.trans hks
    exact (List.cons.inj hw).1
  exact isLetter_eq_false_of_toUpper_ne (hu k' (by simp [hks])) hup hne

theorem avoids_word {keyword : String} {k : Char} {ks w : List Char} (hk : keyword.toList = k :: ks)
    (h : Bars k w) : Avoids (word keyword) w :=
  fun before s _ _ => misses_word hk h before s

end Applicability.Text
