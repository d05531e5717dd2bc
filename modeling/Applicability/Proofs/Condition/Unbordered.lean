import Applicability.Proofs.Condition.WholeTokens

namespace Applicability.Condition

open Capability Text Pattern

/-- No proper part that `w` begins with is one that it ends with. -/
def Unbordered (w : List Char) : Prop :=
  ∀ u, u <+: w → u <:+ w → u ≠ [] → u = w

structure Bounded (l r : List Char) : Prop where
  before : ∀ c ∈ l.getLast?, c.isAlphanum = false ∧ c ≠ '_' ∧ c ≠ '.'
  after : ∀ c ∈ r.head?, c.isAlphanum = false ∧ c ≠ '_'
  separator : ∀ c d s, r = c :: d :: s → c = '.' ∨ c = '-' ∨ c = '/' → d.isDigit = false

theorem extendsBefore_eq_false_iff {c : Char} :
    extendsBefore c = false ↔ c.isAlphanum = false ∧ c ≠ '_' ∧ c ≠ '.' := by
  simp only [extendsBefore, Bool.or_eq_false_iff, beq_eq_false_iff_ne, and_assoc]

theorem extendsAfter_eq_false_iff {r : List Char} :
    extendsAfter r = false ↔
      (∀ c ∈ r.head?, c.isAlphanum = false ∧ c ≠ '_') ∧
        ∀ c d s, r = c :: d :: s → c = '.' ∨ c = '-' ∨ c = '/' → d.isDigit = false := by
  cases r with
  | nil => simp [extendsAfter]
  | cons c r =>
    rw [extendsAfter, Bool.or_eq_false_iff, Bool.or_eq_false_iff, beq_eq_false_iff_ne]
    apply and_congr
    · simp
    · cases r with
      | nil => simp
      | cons d r =>
        rw [List.head?_cons, Option.any_some, Bool.and_eq_false_imp]
        constructor
        · rintro h c' d' s heq hsep
          obtain ⟨rfl, hrest⟩ := List.cons.inj heq
          obtain ⟨rfl, -⟩ := List.cons.inj hrest
          exact h (by simpa [or_assoc] using hsep)
        · intro h hsep
          exact h c d r rfl (by simpa [or_assoc] using hsep)

theorem extended_eq_false_iff {l r : List Char} : extended (lastOf none l) r = false ↔ Bounded l r := by
  have hbefore : (lastOf none l).any extendsBefore = false ↔
      ∀ c ∈ l.getLast?, c.isAlphanum = false ∧ c ≠ '_' ∧ c ≠ '.' := by
    rw [lastOf_eq, Option.or_none]
    cases l.getLast? with
    | none => simp
    | some c => simp [extendsBefore_eq_false_iff]
  rw [extended, Bool.or_eq_false_iff, hbefore, extendsAfter_eq_false_iff]
  constructor
  · rintro ⟨hb, ha, hsep⟩
    exact ⟨hb, ha, hsep⟩
  · rintro ⟨hb, ha, hsep⟩
    exact ⟨hb, ha, hsep⟩

theorem unbordered_id {id : Id} (h : ['A', '.'] <+: id.text) : Unbordered id.text := by
  obtain ⟨cs, hcs⟩ := h
  have hdot : '.' ∈ id.text := by simp [← hcs]
  rcases id.isWordChar_or_capital with hword | ⟨rest, hrest, ha⟩
  · exact absurd (hword '.' hdot) (by decide)
  · rw [hrest]
    rintro u ⟨v, hv⟩ ⟨x, hx⟩ hne
    cases u with
    | nil => exact absurd rfl hne
    | cons c u =>
      obtain ⟨rfl, -⟩ := List.cons.inj hv
      cases x with
      | nil => exact hx
      | cons d x =>
        obtain ⟨-, rfl⟩ := List.cons.inj hx
        exact absurd (List.mem_append_right x List.mem_cons_self) ha

variable {token l r : List Char}

theorem Unbordered.not_overlap (h : Unbordered token) {l' r' : List Char}
    (heq : l' ++ (token ++ r') = l ++ (token ++ r)) (hlt : l'.length < l.length) :
    l'.length + token.length ≤ l.length := by
  by_contra hover
  obtain ⟨w₁, w₂, w₃, hl, hr, hne₁, hne₂, -⟩ := exists_of_overlap heq hlt (by omega)
  have hborder : w₂ = token := h w₂ ⟨w₃, hr.symm⟩ ⟨w₁, hl.symm⟩ hne₂
  rw [← hborder] at hl
  exact hne₁ (List.append_left_eq_self.mp hl.symm)

theorem Unbordered.exists_occurrence (h : Unbordered token) (hne : token ≠ []) :
    ∃ ps qs, (occurrence token).pieces (l ++ (token ++ r)) = ps ++ .found (lastOf none l) token r :: qs ∧
      textOf ps = l ∧ textOf qs = r := by
  apply exists_found hne
  · simp [occurrence]
  · intro l' text after hmem heq hlt
    obtain rfl := eq_token_of_mem hmem
    exact h.not_overlap heq hlt

theorem intercalate_wholePieces {s : List Char} {ps : List Piece} (h : ps ⊆ wholePieces token s) :
    token.intercalate (partsOf ps) = textOf ps :=
  intercalate_partsOf_eq fun _ _ _ hmem => (mem_wholePieces (h hmem)).1

def Joint (token s l r : List Char) : Prop :=
  ∃ us ws, partsOf (wholePieces token s) = us ++ ws ∧ us ≠ [] ∧ ws ≠ [] ∧ l = token.intercalate us ∧
    r = token.intercalate ws

theorem Unbordered.joint_of_bounded (h : Unbordered token) (hne : token ≠ []) (hbounded : Bounded l r) :
    Joint token (l ++ (token ++ r)) l r := by
  obtain ⟨ps, qs, hpieces, hps, hqs⟩ := h.exists_occurrence (l := l) (r := r) hne
  have hwhole : wholePieces token (l ++ (token ++ r)) =
      dissolved extended ps ++ .found (lastOf none l) token r :: dissolved extended qs := by
    rw [wholePieces, hpieces, dissolved_append_found (extended_eq_false_iff.mpr hbounded)]
  have hleft : dissolved extended ps ⊆ wholePieces token (l ++ (token ++ r)) := by
    rw [hwhole]
    exact List.subset_append_left _ _
  have hright : dissolved extended qs ⊆ wholePieces token (l ++ (token ++ r)) := by
    rw [hwhole]
    exact List.subset_append_of_subset_right _ (List.subset_cons_self _ _)
  refine ⟨partsOf (dissolved extended ps), partsOf (dissolved extended qs), ?_, partsOf_ne_nil _, partsOf_ne_nil _,
    ?_, ?_⟩
  · rw [hwhole, partsOf_append_found]
  · rw [intercalate_wholePieces hleft, textOf_dissolved, hps]
  · rw [intercalate_wholePieces hright, textOf_dissolved, hqs]

theorem bounded_of_joint {s : List Char} (h : Joint token s l r) : s = l ++ (token ++ r) ∧ Bounded l r := by
  obtain ⟨us, ws, hparts, hus, hws, rfl, rfl⟩ := h
  obtain ⟨ps, qs, b, text, after, hpieces, rfl, rfl⟩ := exists_of_partsOf_append hparts hus hws
  have hleft : ps ⊆ wholePieces token s := hpieces ▸ List.subset_append_left _ _
  have hright : qs ⊆ wholePieces token s :=
    hpieces ▸ List.subset_append_of_subset_right _ (List.subset_cons_self _ _)
  have hfound : .found b text after ∈ wholePieces token s := by simp [hpieces]
  have hplaced : Placed none (wholePieces token s) := placed_wholePieces
  rw [hpieces] at hplaced
  obtain ⟨rfl, rfl⟩ := hplaced.sides
  obtain ⟨rfl, hopen⟩ := mem_wholePieces hfound
  rw [intercalate_wholePieces hleft, intercalate_wholePieces hright]
  refine ⟨?_, extended_eq_false_iff.mp hopen⟩
  have htext : textOf (wholePieces text s) = s := textOf_wholePieces
  rw [hpieces, textOf_append, textOf_cons, Piece.text] at htext
  exact htext.symm

/-- Numbered ids are unbordered. Replacing an unbordered token parts the text where the token stands as a whole,
at all these places and no other, and joins the parts with the replacement. -/
theorem replaceWhole_exact :
    (∀ id : Id, ['A', '.'] <+: id.text → Unbordered id.text) ∧
      ∀ token haystack : List Char, token ≠ [] → Unbordered token →
        ∃ parts : List (List Char), haystack = token.intercalate parts ∧
          (∀ replacement, replaceWhole token replacement haystack = replacement.intercalate parts) ∧
          ∀ l r, haystack = l ++ (token ++ r) ∧ Bounded l r ↔
            ∃ us ws, parts = us ++ ws ∧ us ≠ [] ∧ ws ≠ [] ∧ l = token.intercalate us ∧ r = token.intercalate ws := by
  refine ⟨fun id => unbordered_id, fun token haystack hne hun => ?_⟩
  refine ⟨partsOf (wholePieces token haystack), ?_, ?_, fun l r => ⟨?_, bounded_of_joint⟩⟩
  · rw [intercalate_wholePieces (List.Subset.refl _), textOf_wholePieces]
  · intro replacement
    rw [intercalate_partsOf, replaceWhole_eq_written]
  · rintro ⟨rfl, hbounded⟩
    exact hun.joint_of_bounded hne hbounded

theorem replaceWhole_exact_branch :
    Unbordered "A.4".toList ∧
      ∃ parts : List (List Char), "A.4/1 OR A.4".toList = "A.4".toList.intercalate parts ∧
        replaceWhole "A.4".toList "true".toList "A.4/1 OR A.4".toList = "true".toList.intercalate parts ∧
        ∃ us ws, parts = us ++ ws ∧ us ≠ [] ∧ ws ≠ [] ∧ "A.4/1 OR ".toList = "A.4".toList.intercalate us ∧
          [] = "A.4".toList.intercalate ws := by
  obtain ⟨hids, hexact⟩ := replaceWhole_exact
  have hun : Unbordered "A.4".toList := hids ⟨"A.4".toList, by decide⟩ ⟨['4'], rfl⟩
  obtain ⟨parts, hparts, hwritten, hjoint⟩ := hexact "A.4".toList "A.4/1 OR A.4".toList (by decide) hun
  have hbounded : Bounded "A.4/1 OR ".toList [] := extended_eq_false_iff.mp (by decide)
  exact ⟨hun, parts, hparts, hwritten "true".toList, (hjoint "A.4/1 OR ".toList []).mp ⟨by decide, hbounded⟩⟩

end Applicability.Condition
