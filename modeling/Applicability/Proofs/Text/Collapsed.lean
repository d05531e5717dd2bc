import Applicability.Proofs.Text.Blank
import Applicability.Proofs.Text.Pattern

namespace Applicability.Text

open Pattern

section Ends

variable {p : Char → Bool} {s : List Char}

theorem dropEndWhile_of_last (h : s.getLast?.any p = false) : dropEndWhile p s = s := by
  rcases List.eq_nil_or_concat s with rfl | ⟨t, c, rfl⟩
  · rfl
  · rw [List.concat_eq_append] at h ⊢
    apply List.rdropWhile_concat_neg
    simpa using h

theorem last_dropEndWhile (p : Char → Bool) (s : List Char) :
    (dropEndWhile p s).getLast?.any p = false := by
  induction s using List.reverseRecOn with
  | nil => rfl
  | append_singleton s c ih =>
    rw [dropEndWhile_eq] at ih ⊢
    by_cases hc : p c = true
    · rwa [List.rdropWhile_concat_pos p s c hc]
    · rw [List.rdropWhile_concat_neg p s c hc]
      simpa using hc

theorem trimStart_of_head (h : s.head?.any isBlank = false) : trimStart s = s := by
  cases s with
  | nil => rfl
  | cons c s =>
    have hc : isBlank c = false := by simpa using h
    simp [trimStart, hc]

theorem trim_of_ends (hhead : s.head?.any isBlank = false) (hlast : s.getLast?.any isBlank = false) :
    trim s = s := by
  rw [trim, trimStart_of_head hhead, trimEnd, dropEndWhile_of_last hlast]

theorem head_trimStart (s : List Char) : (trimStart s).head?.any isBlank = false := by
  induction s with
  | nil => rfl
  | cons c s ih =>
    by_cases hc : isBlank c = true
    · have hskip : trimStart (c :: s) = trimStart s := by simp [trimStart, hc]
      rwa [hskip]
    · simp only [Bool.not_eq_true] at hc
      simp [trimStart, hc]

theorem head_trim (s : List Char) : (trim s).head?.any isBlank = false := by
  obtain ⟨g, hg, -⟩ := dropEndWhile_spec isBlank (trimStart s)
  have hstart := head_trimStart s
  rw [trim, trimEnd]
  cases h : dropEndWhile isBlank (trimStart s) with
  | nil => rfl
  | cons c r =>
    rw [hg, h] at hstart
    exact hstart

theorem trim_trim (s : List Char) : trim (trim s) = trim s :=
  trim_of_ends (head_trim s) (last_dropEndWhile isBlank (trimStart s))

theorem trim_eq_nil_iff : trim s = [] ↔ ∀ c ∈ s, isBlank c = true := by
  constructor
  · intro h c hc
    obtain ⟨g, hg, hblank⟩ := dropEndWhile_spec isBlank (trimStart s)
    rw [← trimEnd, ← trim, h, List.nil_append] at hg
    rw [← List.takeWhile_append_dropWhile (p := isBlank) (l := s)] at hc
    rcases List.mem_append.mp hc with hc | hc
    · exact List.mem_takeWhile_imp hc
    · exact hblank c (hg ▸ hc)
  · intro h
    rw [trim, ← List.append_nil s, trimStart_append h]
    rfl

end Ends

def stray : Pattern
  | _, [] => 0
  | before, c :: cs =>
    if isBlank c && (c != ' ' || before.all isBlank || cs.head?.all isBlank) then 1 else 0

def Collapsed (s : List Char) : Prop :=
  Misses stray none s []

theorem stray_of_not_isBlank {c : Char} (hc : isBlank c = false) (before : Option Char) (s : List Char) :
    stray before (c :: s) = 0 := by
  simp [stray, hc]

theorem stray_eq_zero_iff {c : Char} (hc : isBlank c = true) {before : Option Char} {s : List Char} :
    stray before (c :: s) = 0 ↔
      c = ' ' ∧ before.all isBlank = false ∧ s.head?.all isBlank = false := by
  simp [stray, hc, and_assoc]

theorem misses_stray_of_head {b : Option Char} {s t : List Char} (h : Misses stray b s t)
    (hs : s.head?.any isBlank = false) (b' : Option Char) : Misses stray b' s t := by
  cases s with
  | nil => trivial
  | cons c s =>
    have hc : isBlank c = false := by simpa using hs
    exact ⟨stray_of_not_isBlank hc b' _, h.2⟩

theorem misses_stray_of_last {b : Option Char} {s t : List Char} (h : Misses stray b s t)
    (hs : s.getLast?.any isBlank = false) (t' : List Char) : Misses stray b s t' := by
  induction s generalizing b with
  | nil => trivial
  | cons c s ih =>
    obtain ⟨hc, hrest⟩ := h
    cases s with
    | nil =>
      have hblank : isBlank c = false := by simpa using hs
      exact ⟨stray_of_not_isBlank hblank b _, trivial⟩
    | cons d s => exact ⟨hc, ih hrest (by simpa using hs)⟩

theorem head_collapse (s : List Char) : (collapse s).head?.any isBlank = false := by
  induction s with
  | nil => rfl
  | cons c s ih =>
    by_cases hc : isBlank c = true
    · have hskip : collapse (c :: s) = collapse s := collapse_of_blanks (g := [c]) (by simpa using hc) s
      rwa [hskip]
    · simp only [Bool.not_eq_true] at hc
      simp [collapse_cons hc, hc]

theorem collapse_ne_nil {s : List Char} (h : words s ≠ []) : collapse s ≠ [] := by
  induction s with
  | nil => exact absurd words_nil h
  | cons c s ih =>
    by_cases hc : isBlank c = true
    · rw [words_cons_blank hc] at h
      rw [collapse, words_cons_blank hc]
      exact ih h
    · simp only [Bool.not_eq_true] at hc
      simp [collapse_cons hc]

theorem collapsed_collapse (s : List Char) : Collapsed (collapse s) := by
  induction s with
  | nil => trivial
  | cons c s ih =>
    by_cases hc : isBlank c = true
    · have hskip : collapse (c :: s) = collapse s := collapse_of_blanks (g := [c]) (by simpa using hc) s
      rwa [hskip]
    · simp only [Bool.not_eq_true] at hc
      have hrest := misses_stray_of_head ih (head_collapse s)
      rw [collapse_cons hc]
      refine ⟨stray_of_not_isBlank hc none _, ?_⟩
      unfold joint
      split
      · exact hrest (some c)
      · rename_i hjoint
        obtain ⟨d, r, hd⟩ := List.exists_cons_of_ne_nil (collapse_ne_nil fun hw => hjoint (.inl hw))
        have hblank := head_collapse s
        simp only [hd, List.head?_cons, Option.any_some] at hblank
        refine ⟨(stray_eq_zero_iff (by decide)).mpr ⟨rfl, by simpa using hc, ?_⟩, hrest (some ' ')⟩
        simpa [hd] using hblank

theorem collapse_of_misses {b : Option Char} {s : List Char} (h : Misses stray b s []) :
    (s.head?.any isBlank = false → collapse s = s) ∧ (b.all isBlank = false → joint s ++ collapse s = s) := by
  induction s generalizing b with
  | nil => exact ⟨fun _ => rfl, fun _ => rfl⟩
  | cons c s ih =>
    obtain ⟨hzero, hrest⟩ := h
    obtain ⟨hself, hafter⟩ := ih hrest
    by_cases hc : isBlank c = true
    · rw [List.append_nil, stray_eq_zero_iff hc] at hzero
      obtain ⟨rfl, -, hhead⟩ := hzero
      obtain ⟨d, r, rfl⟩ : ∃ d r, s = d :: r := by
        cases s with
        | nil => simp at hhead
        | cons d r => exact ⟨d, r, rfl⟩
      have hd : isBlank d = false := by simpa using hhead
      have hskip : collapse (' ' :: d :: r) = d :: r := by
        rw [collapse, words_cons_blank hc]
        exact hself (by simpa using hd)
      have hwords : words (' ' :: d :: r) ≠ [] := by
        intro hnil
        rw [collapse, hnil] at hskip
        cases hskip
      exact ⟨by simp [hc], fun _ => by simp [joint, hwords, hskip, hc]⟩
    · simp only [Bool.not_eq_true] at hc
      have hcollapse : collapse (c :: s) = c :: s := by
        rw [collapse_cons hc, hafter (by simpa using hc)]
      exact ⟨fun _ => hcollapse, fun _ => by simp [joint, hc, hcollapse]⟩

namespace Collapsed

variable {s : List Char}

theorem head (h : Collapsed s) : s.head?.any isBlank = false := by
  cases s with
  | nil => rfl
  | cons c s =>
    by_contra hc
    have hblank : isBlank c = true := by simpa using hc
    obtain ⟨-, hbefore, -⟩ := (stray_eq_zero_iff hblank).mp h.1
    exact absurd hbefore (by simp)

theorem last (h : Collapsed s) : s.getLast?.any isBlank = false := by
  rcases List.eq_nil_or_concat s with rfl | ⟨t, c, rfl⟩
  · rfl
  · rw [List.concat_eq_append] at h ⊢
    obtain ⟨-, hc, -⟩ := misses_append.mp h
    by_contra hlast
    have hblank : isBlank c = true := by simpa using hlast
    obtain ⟨-, -, hafter⟩ := (stray_eq_zero_iff hblank).mp hc
    exact absurd hafter (by simp)

theorem collapse_eq (h : Collapsed s) : collapse s = s :=
  (collapse_of_misses h).1 h.head

theorem trim_eq (h : Collapsed s) : trim s = s :=
  trim_of_ends h.head h.last

theorem of_append {t : List Char} (h : Collapsed (s ++ t)) (hs : s.getLast?.any isBlank = false) :
    Collapsed s :=
  misses_stray_of_last (misses_append.mp h).1 hs []

theorem trimEnd_of_append {t : List Char} (h : Collapsed (s ++ t)) : Collapsed (trimEnd s) := by
  obtain ⟨g, hg, -⟩ := dropEndWhile_spec isBlank s
  rw [hg, List.append_assoc] at h
  exact h.of_append (last_dropEndWhile isBlank s)

end Collapsed

end Applicability.Text
