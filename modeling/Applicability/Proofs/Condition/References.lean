import Applicability.Condition.References
import Applicability.Proofs.Condition.Written
import Applicability.Proofs.Text.Replacing
import Mathlib.Data.List.Sort

namespace Applicability.Condition

open Boolean Capability Text Pattern

def Descending (xs : List (List Char)) : Prop :=
  xs.Pairwise fun x y => byteLength y ≤ byteLength x

theorem byteLength_append (s t : List Char) : byteLength (s ++ t) = byteLength s + byteLength t := by
  induction s with
  | nil => simp [byteLength]
  | cons c s ih =>
    simp only [byteLength, List.cons_append, List.foldr_cons] at ih ⊢
    omega

theorem eq_nil_of_byteLength {s : List Char} (h : byteLength s = 0) : s = [] := by
  cases s with
  | nil => rfl
  | cons c s =>
    have hc := c.utf8Size_pos
    simp only [byteLength, List.foldr_cons] at h
    omega

theorem eq_of_isInfix {s t : List Char} (h : s <:+: t) (hle : byteLength t ≤ byteLength s) : t = s := by
  obtain ⟨a, b, rfl⟩ := h
  simp only [byteLength_append] at hle
  have ha : a = [] := eq_nil_of_byteLength (by omega)
  have hb : b = [] := eq_nil_of_byteLength (by omega)
  simp [ha, hb]

theorem byteLength_le_of_precedes {a b : List Char} (h : precedes a b = true) :
    byteLength b ≤ byteLength a := by
  simp only [precedes, Bool.or_eq_true, Bool.and_eq_true, decide_eq_true_eq, beq_iff_eq] at h
  omega

theorem mem_insertReference {id y : List Char} {xs : List (List Char)} :
    y ∈ insertReference id xs ↔ y = id ∨ y ∈ xs := by
  induction xs with
  | nil => simp [insertReference]
  | cons x xs ih =>
    rw [insertReference]
    split
    · rename_i heq
      obtain rfl := beq_iff_eq.mp heq
      simp
    split
    · simp
    · simp only [List.mem_cons, ih]
      constructor
      · rintro (h | h | h) <;> simp [h]
      · rintro (h | h | h) <;> simp [h]

theorem precedes_trans {a b c : List Char} (hab : precedes a b = true) (hbc : precedes b c = true) :
    precedes a c = true := by
  simp only [precedes, Bool.or_eq_true, Bool.and_eq_true, decide_eq_true_eq, beq_iff_eq] at hab hbc ⊢
  rcases hab with hab | ⟨hab, hlt⟩
  · left
    omega
  · rcases hbc with hbc | ⟨hbc, hlt'⟩
    · left
      omega
    · exact .inr ⟨hab.trans hbc, List.lt_trans hlt hlt'⟩

theorem precedes_of_ne {a b : List Char} (hne : a ≠ b) (h : precedes a b = false) : precedes b a = true := by
  simp only [precedes, Bool.or_eq_false_iff, Bool.and_eq_false_iff, decide_eq_false_iff_not, beq_eq_false_iff_ne,
    Bool.or_eq_true, Bool.and_eq_true, decide_eq_true_eq, beq_iff_eq] at h ⊢
  obtain ⟨hlen, hcmp⟩ := h
  by_cases heq : byteLength a = byteLength b
  · right
    have hab : ¬a < b := hcmp.resolve_left (fun h => h heq)
    refine ⟨heq.symm, ?_⟩
    by_contra hba
    exact hne (List.le_antisymm (List.not_lt.mp hba) (List.not_lt.mp hab))
  · left
    omega

theorem precedes_irrefl (a : List Char) : ¬precedes a a = true := by
  simp only [precedes, Nat.lt_irrefl, List.lt_irrefl, decide_false, Bool.and_false, Bool.or_self,
    Bool.false_eq_true, not_false_eq_true]

instance : Std.Irrefl fun a b => precedes a b = true where
  irrefl := precedes_irrefl

instance : Std.Antisymm fun a b => precedes a b = true where
  antisymm a _ hab hba := absurd (precedes_trans hab hba) (precedes_irrefl a)

def InOrder (xs : List (List Char)) : Prop :=
  xs.Pairwise fun x y => precedes x y = true

theorem InOrder.descending {xs : List (List Char)} (h : InOrder xs) : Descending xs :=
  h.imp byteLength_le_of_precedes

theorem InOrder.sublist {xs ys : List (List Char)} (hx : InOrder xs) (hy : InOrder ys) (h : xs ⊆ ys) :
    xs.Sublist ys :=
  List.sublist_of_subperm_of_pairwise (List.subperm_of_subset hx.nodup h) hx hy

theorem inOrder_insertReference {id : List Char} {xs : List (List Char)} (h : InOrder xs) :
    InOrder (insertReference id xs) := by
  induction xs with
  | nil => exact List.pairwise_singleton _ _
  | cons x xs ih =>
    obtain ⟨hx, hxs⟩ := List.pairwise_cons.mp h
    rw [insertReference]
    split
    · exact h
    split
    · rename_i hp
      refine List.pairwise_cons.mpr ⟨?_, h⟩
      rintro y (_ | ⟨_, hy⟩)
      · exact hp
      · exact precedes_trans hp (hx y hy)
    · rename_i hne hp
      refine List.pairwise_cons.mpr ⟨?_, ih hxs⟩
      intro y hy
      rcases mem_insertReference.mp hy with rfl | hy
      · exact precedes_of_ne (by simpa using hne) (by simpa using hp)
      · exact hx y hy

theorem mem_foldr_insertReference {y : List Char} {xs : List (List Char)} :
    y ∈ xs.foldr insertReference [] ↔ y ∈ xs := by
  induction xs with
  | nil => rfl
  | cons x xs ih => rw [List.foldr_cons, mem_insertReference, ih, List.mem_cons]

theorem inOrder_references (s : List Char) (extra : List (List Char)) : InOrder (references s extra) := by
  unfold references
  induction idPattern.allIn s ++ (extra.map trim).filter isId with
  | nil => exact .nil
  | cons x xs ih => exact inOrder_insertReference ih

theorem descending_references (s : List Char) (extra : List (List Char)) : Descending (references s extra) :=
  (inOrder_references s extra).descending

theorem exists_id_of_match {before b : Option Char} {n : Nat} {s text after : List Char}
    (h : .found before text after ∈ piecesFrom idPattern b n s) : ∃ id : Id, id.text = text := by
  obtain ⟨hne, htake⟩ := take_of_mem_piecesFrom h
  obtain ⟨id, r, hr, hlen⟩ := exists_id hne
  exact ⟨id, by rw [htake, hlen, hr, List.take_left]⟩

theorem exists_id_of_mem_allIn {s w : List Char} (h : w ∈ idPattern.allIn s) : ∃ id : Id, w = id.text := by
  obtain ⟨piece, hpiece, hw⟩ := List.mem_filterMap.mp h
  cases piece with
  | plain c => cases hw
  | found before text after =>
    obtain rfl : text = w := Option.some.inj hw
    obtain ⟨id, hid⟩ := exists_id_of_match hpiece
    exact ⟨id, hid.symm⟩

theorem exists_id_of_mem_references {s r : List Char} {extra : List (List Char)} (h : r ∈ references s extra) :
    ∃ id : Id, r = id.text := by
  rw [references, mem_foldr_insertReference, List.mem_append] at h
  rcases h with h | h
  · exact exists_id_of_mem_allIn h
  · exact ⟨⟨r, (List.mem_filter.mp h).2⟩, rfl⟩

theorem mem_references_of_mem_allIn {s w : List Char} {extra : List (List Char)} (h : w ∈ idPattern.allIn s) :
    w ∈ references s extra := by
  rw [references, mem_foldr_insertReference]
  exact List.mem_append_left _ h

theorem references_sublist (s : List Char) (extra : List (List Char)) :
    (references s []).Sublist (references s extra) := by
  apply (inOrder_references s []).sublist (inOrder_references s extra)
  intro w hw
  rw [references, mem_foldr_insertReference, List.map_nil, List.filter_nil, List.append_nil] at hw
  exact mem_references_of_mem_allIn hw

theorem blind_idPattern : Blind idPattern := by
  intro c hc before s
  by_contra h
  rcases idPattern_ne_zero h with ⟨r, hr⟩ | ⟨r, hr⟩
  · obtain rfl : c = 'A' := (List.cons.inj hr).1
    exact absurd hc (by decide)
  · obtain rfl : c = 'P' := (List.cons.inj hr).1
    exact absurd hc (by decide)

def hasSeparator (w : List Char) : Bool :=
  w.any fun c => c == '.' || c == '_'

theorem hasSeparator_id (id : Id) : hasSeparator id.text = true := by
  rw [hasSeparator, List.any_eq_true]
  rcases id.mem_dot_or_underscore with h | h
  · exact ⟨'.', h, rfl⟩
  · exact ⟨'_', h, rfl⟩

theorem hasSeparator_of_isAlphanum {w : List Char} (h : ∀ c ∈ w, c.isAlphanum = true) :
    hasSeparator w = false := by
  rw [hasSeparator, List.any_eq_false]
  intro c hc hsep
  have hc := h c hc
  simp only [Bool.or_eq_true, beq_iff_eq] at hsep
  rcases hsep with rfl | rfl <;> exact absurd hc (by decide)

theorem avoids_idPattern {w : List Char} (h : hasSeparator w = false) : Avoids idPattern w := by
  intro before s _ hs
  refine misses_idPattern hs fun c hc => ?_
  have hc := List.any_eq_false.mp h c hc
  constructor <;> rintro rfl <;> exact hc (by decide)

theorem allIn_idPattern {symbols : List (Symbol Id)} {xs : List Lexeme} {s : List Char}
    (hx : List.Forall₂ Shows symbols xs) (hs : Spaced false xs s) :
    idPattern.allIn s = (Spaced.wordsOf xs).filter hasSeparator := by
  refine hs.matchesFrom blind_idPattern (forall₂_proper hx) ?_ (.inr (Option.all_none))
  intro w hw
  obtain ⟨σ, -, hσ⟩ := Lists.exists_left_of_mem hx hw
  cases hσ with
  | atom id => simpa [hasSeparator_id] using id.takes
  | conj h | disj h | neg h =>
    have hsep := hasSeparator_of_isAlphanum (h.isAlphanum (by decide))
    simpa [hsep] using avoids_idPattern hsep

theorem mem_references {symbols : List (Symbol Id)} {xs : List Lexeme} {s r : List Char}
    (hx : List.Forall₂ Shows symbols xs) (hs : Spaced false xs s) :
    r ∈ references s [] ↔ ∃ id : Id, .atom id ∈ symbols ∧ r = id.text := by
  rw [references, List.map_nil, List.filter_nil, List.append_nil, mem_foldr_insertReference,
    allIn_idPattern hx hs, List.mem_filter, Spaced.mem_wordsOf]
  constructor
  · rintro ⟨hr, hsep⟩
    obtain ⟨σ, hmem, hσ⟩ := Lists.exists_left_of_mem hx hr
    cases hσ with
    | atom id => exact ⟨id, hmem, rfl⟩
    | conj h | disj h | neg h =>
      rw [hasSeparator_of_isAlphanum (h.isAlphanum (by decide))] at hsep
      exact absurd hsep (by decide)
  · rintro ⟨id, hmem, rfl⟩
    obtain ⟨x, hx, hσ⟩ := Lists.exists_right_of_mem hx hmem
    cases hσ
    exact ⟨hx, hasSeparator_id id⟩

end Applicability.Condition
