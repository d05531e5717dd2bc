import Applicability.Condition.Evaluation
import Applicability.Proofs.Boolean.Lexing
import Applicability.Proofs.Condition.References

namespace Applicability.Condition

open Boolean Capability Text Pattern

variable {r : List Char}

theorem blind_occurrence (hne : r ≠ []) (hr : ∀ c ∈ r, isEdge c = false) : Blind (occurrence r) := by
  intro c hc before s
  cases r with
  | nil => exact absurd rfl hne
  | cons d r =>
    have hd : d ≠ c := by
      rintro rfl
      exact absurd hc (by simp [hr d List.mem_cons_self])
    simp [occurrence, hd]

theorem takes_occurrence (r : List Char) : Takes (occurrence r) r := by
  intro before s _ _
  simp [occurrence]

theorem misses_occurrence {w s : List Char} (hr : ∀ c ∈ r, isEdge c = false) (h : ¬r <:+: w)
    (hs : AtEdge s) (before : Option Char) : Misses (occurrence r) before w s := by
  induction w generalizing before with
  | nil => trivial
  | cons c w ih =>
    refine ⟨?_, ih (fun hw => h (hw.trans (List.suffix_cons c w).isInfix)) _⟩
    by_contra hocc
    have hpre : r <+: c :: (w ++ s) := by
      by_contra hpre
      exact hocc (by simp [occurrence, hpre])
    obtain ⟨q, hq⟩ := hpre
    rw [← List.cons_append] at hq
    obtain ⟨u, hu⟩ := exists_eq_append_of_atEdge hq.symm hs hr
    exact h ⟨[], u, by simp [hu]⟩

theorem extendsBefore_of_isEdge {before : Option Char} (h : before.all isEdge = true) :
    before.any extendsBefore = false := by
  cases before with
  | none => rfl
  | some c =>
    have hc : extendsBefore c = false := isWordPart_of_isEdge (by simpa using h)
    simpa using hc

theorem extendsAfter_of_atEdge {s : List Char} (h : AtEdge s) : extendsAfter s = false := by
  cases s with
  | nil => rfl
  | cons c s =>
    have hc := atEdge_cons.mp h
    have hunder : c ≠ '_' := ne_of_isEdge hc (by decide)
    have hdot : c ≠ '.' := ne_of_isEdge hc (by decide)
    have hdash : c ≠ '-' := ne_of_isEdge hc (by decide)
    have hslash : c ≠ '/' := ne_of_isEdge hc (by decide)
    simp [extendsAfter, isAlphanum_of_isEdge hc, hunder, hdot, hdash, hslash]

theorem spaced_replaceWhole {v s : List Char} {xs : List Lexeme} (hne : r ≠ [])
    (hr : ∀ c ∈ r, isEdge c = false) (hxs : ∀ x ∈ xs, x.Proper)
    (hw : ∀ w, .word w ∈ xs → w ≠ r → ¬r <:+: w) (hs : Spaced false xs s) :
    Spaced false (xs.map (Lexeme.mapWord fun w => if w = r then v else w)) (replaceWhole r v s) := by
  refine hs.replaceFrom (blind_occurrence hne hr) hxs ?_ (.inr (Option.all_none))
  intro w hmem
  by_cases hwr : w = r
  · right
    subst hwr
    refine ⟨takes_occurrence w, fun before s hb hs => ?_⟩
    simp [extendsBefore_of_isEdge hb, extendsAfter_of_atEdge hs]
  · left
    rw [if_neg hwr]
    exact ⟨fun before s _ hs => misses_occurrence hr (hw w hmem hwr) hs before, rfl⟩

def constant (b : Bool) : List Char :=
  (Rule.boolText b).toList

theorem isAlphanum_constant (b : Bool) : ∀ c ∈ constant b, c.isAlphanum = true := by
  cases b <;> decide

theorem proper_constant (b : Bool) : (Lexeme.word (constant b)).Proper := by
  refine ⟨by cases b <;> decide, fun c hc => isEdge_of_isAlphanum (isAlphanum_constant b c hc)⟩

def assign (v : List Char → Bool) (refs : List (List Char)) (w : List Char) : List Char :=
  if w ∈ refs then constant (v w) else w

theorem assign_cons {v : List Char → Bool} {refs : List (List Char)} (hr : constant (v r) ∉ refs)
    (w : List Char) : assign v refs (if w = r then constant (v r) else w) = assign v (r :: refs) w := by
  by_cases hw : w = r
  · simp [assign, hw, hr]
  · simp [assign, hw]

theorem not_isInfix_of_descending {refs : List (List Char)} {w : List Char} (hd : Descending (r :: refs))
    (hr : hasSeparator r = true) (hw : hasSeparator w = true → w ∈ r :: refs) (hne : w ≠ r) :
    ¬r <:+: w := by
  intro h
  have hsep : hasSeparator w = true := by
    obtain ⟨c, hc, hsep⟩ := List.any_eq_true.mp hr
    exact List.any_eq_true.mpr ⟨c, h.subset hc, hsep⟩
  rcases List.mem_cons.mp (hw hsep) with rfl | hmem
  · exact hne rfl
  · exact hne (eq_of_isInfix h ((List.pairwise_cons.mp hd).1 w hmem))

theorem spaced_foldl_replaceWhole {v : List Char → Bool} {refs : List (List Char)} {xs : List Lexeme}
    {s : List Char} (hd : Descending refs) (hrefs : ∀ r ∈ refs, ∃ id : Id, r = id.text)
    (hxs : ∀ x ∈ xs, x.Proper) (hw : ∀ w, .word w ∈ xs → hasSeparator w = true → w ∈ refs)
    (hs : Spaced false xs s) :
    Spaced false (xs.map (Lexeme.mapWord (assign v refs)))
      (refs.foldl (fun text r => replaceWhole r (constant (v r)) text) s) := by
  induction refs generalizing xs s with
  | nil =>
    have hid : xs.map (Lexeme.mapWord (assign v [])) = xs := by
      refine List.map_id'' (fun x => ?_) xs
      cases x <;> simp [Lexeme.mapWord, assign]
    rw [hid]
    exact hs
  | cons r refs ih =>
    obtain ⟨⟨id, rfl⟩, hids⟩ := List.forall_mem_cons.mp hrefs
    have hsep := hasSeparator_id id
    have hconst : hasSeparator (constant (v id.text)) = false :=
      hasSeparator_of_isAlphanum (isAlphanum_constant _)
    have hnot : constant (v id.text) ∉ refs := by
      intro hmem
      obtain ⟨id', hid⟩ := hids _ hmem
      rw [hid, hasSeparator_id] at hconst
      exact absurd hconst (by decide)
    have hmap : xs.map (Lexeme.mapWord (assign v (id.text :: refs))) =
        (xs.map (Lexeme.mapWord fun w => if w = id.text then constant (v id.text) else w)).map
          (Lexeme.mapWord (assign v refs)) := by
      rw [List.map_map]
      refine List.map_congr_left fun x _ => ?_
      rw [Function.comp_apply, Lexeme.mapWord_mapWord]
      exact congrFun (congrArg Lexeme.mapWord (funext fun w => (assign_cons hnot w).symm)) x
    rw [hmap]
    refine ih (List.pairwise_cons.mp hd).2 hids ?_ ?_
      (spaced_replaceWhole id.ne_nil id.not_isEdge hxs
        (fun w hmem hne => not_isInfix_of_descending hd hsep (hw w hmem) hne) hs)
    · refine List.forall_mem_map.mpr fun x hx => (hxs x hx).mapWord fun w hw => ?_
      subst hw
      split
      · exact proper_constant _
      · exact hxs _ hx
    · intro w hmem hw'
      obtain ⟨u, hu, rfl⟩ := Lexeme.mem_map_mapWord.mp hmem
      by_cases hur : u = id.text
      · rw [if_pos hur, hconst] at hw'
        exact absurd hw' (by decide)
      · rw [if_neg hur] at hw' ⊢
        exact (List.mem_cons.mp (hw u hu hw')).resolve_left hur

end Applicability.Condition
