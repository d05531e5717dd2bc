import Applicability.Text.Blank
import Mathlib.Data.List.DropRight
import Mathlib.Data.List.Induction

namespace Applicability.Text

theorem dropEndWhile_eq (p : Char → Bool) (s : List Char) : dropEndWhile p s = s.rdropWhile p := rfl

theorem dropEndWhile_spec (p : Char → Bool) (s : List Char) :
    ∃ g, s = dropEndWhile p s ++ g ∧ ∀ c ∈ g, p c = true := by
  refine ⟨s.rtakeWhile p, ?_, fun c hc => List.mem_rtakeWhile_imp hc⟩
  rw [dropEndWhile_eq, List.rdropWhile_append_rtakeWhile]

theorem dropEndWhile_append {p : Char → Bool} {c : Char} (hc : p c = false) (s t : List Char) :
    dropEndWhile p (s ++ c :: t) = s ++ c :: dropEndWhile p t := by
  have hnot : ¬p c = true := by simp [hc]
  induction t using List.reverseRecOn with
  | nil => exact List.rdropWhile_concat_neg p s c hnot
  | append_singleton t d ih =>
    have hassoc : s ++ c :: (t ++ [d]) = (s ++ c :: t) ++ [d] := by simp
    simp only [dropEndWhile_eq] at ih ⊢
    rw [hassoc]
    by_cases hd : p d = true
    · rw [List.rdropWhile_concat_pos p _ d hd, List.rdropWhile_concat_pos p _ d hd, ih]
    · rw [List.rdropWhile_concat_neg p _ d hd, List.rdropWhile_concat_neg p _ d hd, hassoc]

theorem dropEndWhile_word_append {p : Char → Bool} {w : List Char} (hne : w ≠ [])
    (hw : ∀ c ∈ w, p c = false) (s : List Char) : dropEndWhile p (w ++ s) = w ++ dropEndWhile p s := by
  obtain ⟨u, c, rfl⟩ : ∃ u c, w = u ++ [c] := ⟨_, _, (List.dropLast_append_getLast hne).symm⟩
  have hc : p c = false := hw c (by simp)
  simpa using dropEndWhile_append hc u s

theorem dropEndWhile_of_forall {p : Char → Bool} {g : List Char} (hg : ∀ c ∈ g, p c = true) :
    dropEndWhile p g = [] :=
  (List.rdropWhile_eq_nil_iff).mpr hg

theorem trimStart_append {g s : List Char} (hg : ∀ c ∈ g, isBlank c = true) :
    trimStart (g ++ s) = trimStart s := by
  induction g with
  | nil => rfl
  | cons c g ih =>
    obtain ⟨hc, hg⟩ := List.forall_mem_cons.mp hg
    simpa [trimStart, hc] using ih hg

theorem words_nil : words [] = [] := rfl

theorem words_cons (c : Char) (cs : List Char) :
    words (c :: cs) =
      if isBlank c then words cs
      else match cs, words cs with
        | d :: _, w :: ws => if isBlank d then [c] :: w :: ws else (c :: w) :: ws
        | _, ws => [c] :: ws := rfl

theorem words_cons_blank {c : Char} (hc : isBlank c = true) (s : List Char) :
    words (c :: s) = words s := by
  rw [words_cons, if_pos hc]

theorem words_of_blanks {g : List Char} (hg : ∀ c ∈ g, isBlank c = true) (s : List Char) :
    words (g ++ s) = words s := by
  induction g with
  | nil => rfl
  | cons c g ih =>
    obtain ⟨hc, hg⟩ := List.forall_mem_cons.mp hg
    rw [List.cons_append, words_cons_blank hc, ih hg]

theorem words_append_blanks {g : List Char} (hg : ∀ c ∈ g, isBlank c = true) (s : List Char) :
    words (s ++ g) = words s := by
  have hnil : words g = [] := by simpa [words_nil] using words_of_blanks hg []
  induction s with
  | nil => exact hnil
  | cons c s ih =>
    by_cases hc : isBlank c = true
    · rw [List.cons_append, words_cons_blank hc, words_cons_blank hc, ih]
    · rw [List.cons_append, words_cons, words_cons, if_neg hc, if_neg hc, ih]
      cases s with
      | nil => cases g <;> simp [words_nil]
      | cons d s => cases words (d :: s) <;> rfl

theorem collapse_of_blanks {g : List Char} (hg : ∀ c ∈ g, isBlank c = true) (s : List Char) :
    collapse (g ++ s) = collapse s := by
  rw [collapse, words_of_blanks hg, collapse]

theorem intercalate_cons (w : List Char) (ws : List (List Char)) :
    [' '].intercalate (w :: ws) = w ++ if ws = [] then [] else ' ' :: [' '].intercalate ws := by
  cases ws with
  | nil => simp [List.intercalate]
  | cons v ws => simp [List.intercalate]

def joint (s : List Char) : List Char :=
  if words s = [] ∨ s.head?.any isBlank = false then [] else [' ']

theorem collapse_cons {c : Char} (hc : isBlank c = false) (s : List Char) :
    collapse (c :: s) = c :: (joint s ++ collapse s) := by
  rw [collapse, words_cons, if_neg (by simp [hc])]
  cases s with
  | nil => simp [joint, collapse, words_nil, List.intercalate]
  | cons d s =>
    cases hw : words (d :: s) with
    | nil => simp [joint, hw, collapse, List.intercalate]
    | cons w ws =>
      by_cases hd : isBlank d = true
      · simp [joint, hw, collapse, hd, intercalate_cons]
      · simp [joint, hw, collapse, hd, intercalate_cons]

theorem collapse_append {t : List Char} (hne : t ≠ []) (ht : ∀ c ∈ t, isBlank c = false)
    (s : List Char) : collapse (t ++ s) = t ++ (joint s ++ collapse s) := by
  induction t with
  | nil => exact absurd rfl hne
  | cons c t ih =>
    obtain ⟨hc, ht⟩ := List.forall_mem_cons.mp ht
    rw [List.cons_append, collapse_cons hc]
    cases t with
    | nil => rfl
    | cons d t =>
      have hd : isBlank d = false := ht d (List.mem_cons_self)
      have hjoint : joint (d :: t ++ s) = [] := by simp [joint, hd]
      rw [hjoint, ih (List.cons_ne_nil d t) ht]
      rfl

end Applicability.Text
