import Applicability.Proofs.Text.CharClass
import Applicability.Proofs.Text.Pieces
import Applicability.Selection
import Mathlib.Data.List.TakeWhile
import Mathlib.Order.Bounds.Defs

namespace Applicability.Selection

open Text Pattern

def IsCode (letter : Char) (w : List Char) : Prop :=
  ∃ digits, w = letter :: digits ∧ digits ≠ [] ∧ ∀ d ∈ digits, isDigit d = true

/-- After `i` characters of `s` comes `w`, with no word character next to it. -/
def StandsAt (s w : List Char) (i : Nat) : Prop :=
  ∃ u v, s = u ++ (w ++ v) ∧ u.length = i ∧ (∀ c ∈ u.getLast?, isWordChar c = false) ∧
    ∀ c ∈ v.head?, isWordChar c = false

/-- What a list of the codes of a comment holds, and in which order. -/
structure CodesOf (letter : Char) (comment : String) (codes : List String) : Prop where
  nodup : codes.Nodup
  mem_iff : ∀ code, code ∈ codes ↔ IsCode letter code.toList ∧ ∃ i, StandsAt comment.toList code.toList i
  ordered : codes.Pairwise fun c d => ∃ i j, IsLeast {k | StandsAt comment.toList c.toList k} i ∧
    IsLeast {k | StandsAt comment.toList d.toList k} j ∧ i < j

section Firsts

variable {α : Type} [BEq α] [LawfulBEq α] {xs : List α} {x : α}

theorem mem_firsts : x ∈ firsts xs ↔ x ∈ xs := by
  induction xs with
  | nil => rfl
  | cons y xs ih =>
    rw [firsts, List.mem_cons, List.mem_cons, List.mem_filter, ih, bne_iff_ne]
    by_cases h : x = y <;> simp [h]

theorem pairwise_firsts (xs : List α) :
    (firsts xs).Pairwise fun x y => ∃ l r, xs = l ++ x :: r ∧ x ∉ l ∧ y ∉ l ∧ x ≠ y := by
  induction xs with
  | nil => exact .nil
  | cons z xs ih =>
    refine List.pairwise_cons.mpr ⟨?_, List.pairwise_filter.mpr (ih.imp ?_)⟩
    · intro y hy
      have hne : y ≠ z := by simpa using (List.mem_filter.mp hy).2
      exact ⟨[], xs, rfl, List.not_mem_nil, List.not_mem_nil, hne.symm⟩
    · rintro x y ⟨l, r, rfl, hx, hy, hne⟩ hxz hyz
      refine ⟨z :: l, r, rfl, ?_, ?_, hne⟩
      · simpa [hx] using hxz
      · simpa [hy] using hyz

end Firsts

section Places

variable {letter : Char} {s w w' : List Char} {i : Nat}

theorem isOpenSide_iff {side : Option Char} : isOpenSide side = true ↔ ∀ c ∈ side, isWordChar c = false := by
  cases side with
  | none => simp [isOpenSide]
  | some c => simp [isOpenSide]

theorem code_cons (letter : Char) (before : Option Char) (c : Char) (s : List Char) :
    code letter before (c :: s) =
      if c = letter ∧ isOpenSide before = true ∧ s.takeWhile isDigit ≠ [] ∧
        isOpenSide (s.dropWhile isDigit).head? = true
      then (s.takeWhile isDigit).length + 1 else 0 := by
  have hdrop : s.drop (s.takeWhile isDigit).length = s.dropWhile isDigit := by
    have hleft : (s.takeWhile isDigit ++ s.dropWhile isDigit).drop (s.takeWhile isDigit).length = s.dropWhile isDigit :=
      List.drop_left
    rwa [List.takeWhile_append_dropWhile] at hleft
  cases htake : s.takeWhile isDigit with
  | nil => simp [code, htake]
  | cons d ds =>
    rw [htake, List.length_cons] at hdrop
    by_cases hc : c = letter <;> by_cases hb : isOpenSide before = true <;> simp [code, htake, hdrop, hc, hb]

theorem takeWhile_of_isOpenSide (h : isOpenSide s.head? = true) : s.takeWhile isDigit = [] := by
  cases s with
  | nil => rfl
  | cons c s =>
    have hc : isDigit c = false := by
      rw [Bool.eq_false_iff]
      intro hd
      have hword := isOpenSide_iff.mp h c rfl
      rw [isWordChar_of_isDigit hd] at hword
      cases hword
    rw [List.takeWhile_cons, hc]
    rfl

theorem code_of_isCode {before : Option Char} (hw : IsCode letter w) (hb : isOpenSide before = true)
    (hs : isOpenSide s.head? = true) : code letter before (w ++ s) = w.length := by
  obtain ⟨digits, rfl, hne, hdigits⟩ := hw
  have htake : (digits ++ s).takeWhile isDigit = digits := by
    rw [List.takeWhile_append_of_pos hdigits, takeWhile_of_isOpenSide hs, List.append_nil]
  have hdrop : (digits ++ s).dropWhile isDigit = s := by
    have happend := List.takeWhile_append_dropWhile (p := isDigit) (l := digits ++ s)
    rw [htake] at happend
    exact List.append_cancel_left happend
  rw [List.cons_append, code_cons, htake, hdrop, if_pos ⟨rfl, hb, hne, hs⟩, List.length_cons]

theorem exists_code {before : Option Char} (h : code letter before s ≠ 0) :
    ∃ w v, s = w ++ v ∧ code letter before s = w.length ∧ IsCode letter w ∧ isOpenSide before = true ∧
      isOpenSide v.head? = true := by
  cases s with
  | nil => exact absurd rfl h
  | cons c s =>
    rw [code_cons] at h ⊢
    split at h
    · rename_i hcode
      rw [if_pos hcode]
      obtain ⟨rfl, hb, hne, hv⟩ := hcode
      refine ⟨c :: s.takeWhile isDigit, s.dropWhile isDigit, ?_, rfl, ?_, hb, hv⟩
      · rw [List.cons_append, List.takeWhile_append_dropWhile]
      · exact ⟨s.takeWhile isDigit, rfl, hne, fun d hd => List.mem_takeWhile_imp hd⟩
    · exact absurd rfl h

theorem isWordChar_of_isCode (hletter : isWordChar letter = true) (hw : IsCode letter w) :
    ∀ c ∈ w, isWordChar c = true := by
  obtain ⟨digits, rfl, -, hdigits⟩ := hw
  exact List.forall_mem_cons.mpr ⟨hletter, fun d hd => isWordChar_of_isDigit (hdigits d hd)⟩

theorem IsCode.ne_nil (hw : IsCode letter w) : w ≠ [] := by
  obtain ⟨digits, rfl, -⟩ := hw
  exact List.cons_ne_nil letter digits

theorem stands_of_found {ps qs : List Piece} {b : Option Char} {after : List Char}
    (h : (code letter).pieces s = ps ++ .found b w after :: qs) :
    IsCode letter w ∧ StandsAt s w (textOf ps).length := by
  have hplaced : Placed none ((code letter).pieces s) := placed_piecesFrom (code letter) none 0 s
  have htext : textOf ((code letter).pieces s) = s := textOf_piecesFrom (code letter) none 0 s
  have hmem : .found b w after ∈ (code letter).pieces s := by simp [h]
  rw [h] at hplaced htext
  obtain ⟨rfl, rfl⟩ := hplaced.sides
  obtain ⟨hne, htake⟩ := take_of_mem_piecesFrom hmem
  obtain ⟨v, r, hv, hlen, hcode, hbefore, hafter⟩ := exists_code hne
  rw [hlen, hv, List.take_left] at htake
  subst htake
  obtain rfl := List.append_cancel_left hv
  rw [lastOf_eq, Option.or_none] at hbefore
  refine ⟨hcode, textOf ps, _, ?_, rfl, isOpenSide_iff.mp hbefore, isOpenSide_iff.mp hafter⟩
  rw [textOf_append, textOf_cons, Piece.text] at htext
  exact htext.symm

theorem le_place (hletter : isWordChar letter = true) (hw : IsCode letter w) {l r u v : List Char}
    (h : l ++ (w ++ r) = u ++ v) (hu : ∀ c ∈ u.getLast?, isWordChar c = false) (hlt : l.length < u.length) :
    l.length + w.length ≤ u.length := by
  have hword := isWordChar_of_isCode hletter hw
  by_contra hover
  obtain ⟨x, rfl, hx⟩ := Lists.exists_append_of_length_le h hlt.le
  rw [List.length_append] at hlt hover
  obtain ⟨y, rfl, -⟩ := Lists.exists_append_of_length_le hx.symm (by omega)
  obtain ⟨x, c, rfl⟩ := (List.eq_nil_or_concat' x).resolve_left (List.length_pos_iff.mp (by omega))
  have hc := hu c (by simp)
  rw [hword c (by simp)] at hc
  cases hc

theorem found_of_stands (hletter : isWordChar letter = true) (hw : IsCode letter w) (h : StandsAt s w i) :
    ∃ ps qs b after, (code letter).pieces s = ps ++ .found b w after :: qs ∧ (textOf ps).length = i := by
  obtain ⟨u, v, rfl, rfl, hu, hv⟩ := h
  have hopen : isOpenSide (lastOf none u) = true := by
    rw [lastOf_eq, Option.or_none]
    exact isOpenSide_iff.mpr hu
  have hfound : ∃ ps qs, (code letter).pieces (u ++ (w ++ v)) = ps ++ .found (lastOf none u) w v :: qs ∧
      textOf ps = u ∧ textOf qs = v := by
    apply exists_found hw.ne_nil (code_of_isCode hw hopen (isOpenSide_iff.mpr hv))
    intro l text after hmem heq hlt
    obtain ⟨ps, qs, hpieces⟩ := List.append_of_mem hmem
    exact le_place hletter (stands_of_found hpieces).1 heq hu hlt
  obtain ⟨ps, qs, hpieces, rfl, -⟩ := hfound
  exact ⟨ps, qs, _, _, hpieces, rfl⟩

theorem eq_of_standsAt (hw : IsCode letter w) (hw' : IsCode letter w') (h : StandsAt s w i) (h' : StandsAt s w' i) :
    w = w' := by
  obtain ⟨u, v, rfl, rfl, hu, hv⟩ := h
  obtain ⟨u', v', heq, hlen, -, hv'⟩ := h'
  obtain ⟨rfl, hrest⟩ := List.append_inj heq hlen.symm
  have hopen := isOpenSide_iff.mpr hu
  have hcode := code_of_isCode hw hopen (isOpenSide_iff.mpr hv)
  rw [hrest, code_of_isCode hw' hopen (isOpenSide_iff.mpr hv')] at hcode
  exact (List.append_inj hrest hcode.symm).1

theorem exists_place (hletter : isWordChar letter = true) {l r : List (List Char)}
    (h : (code letter).allIn s = l ++ w :: r) :
    IsCode letter w ∧ ∃ i, StandsAt s w i ∧
      ∀ w' j, w' ∉ l → IsCode letter w' → StandsAt s w' j → i ≤ j := by
  obtain ⟨ps, rest, hpieces, rfl, hrest⟩ := List.filterMap_eq_append_iff.mp h
  obtain ⟨gap, piece, qs, rfl, hgap, hpiece, -⟩ := List.filterMap_eq_cons_iff.mp hrest
  cases piece with
  | plain c => cases hpiece
  | found b text after =>
    obtain rfl : text = w := Option.some.inj hpiece
    rw [← List.append_assoc] at hpieces
    obtain ⟨hcode, hstands⟩ := stands_of_found hpieces
    refine ⟨hcode, _, hstands, ?_⟩
    intro w' j hnot hw' hj
    by_contra hlt
    obtain ⟨ps', qs', b', after', hpieces', rfl⟩ := found_of_stands hletter hw' hj
    have hmem := mem_of_textOf_lt (hpieces'.symm.trans hpieces) (Nat.lt_of_not_le hlt)
    rcases List.mem_append.mp hmem with hps | hmem
    · exact hnot (List.mem_filterMap.mpr ⟨_, hps, rfl⟩)
    · exact absurd (hgap _ hmem) (by simp [Piece.match?])

theorem mem_allIn_iff (hletter : isWordChar letter = true) :
    w ∈ (code letter).allIn s ↔ IsCode letter w ∧ ∃ i, StandsAt s w i := by
  constructor
  · intro hw
    obtain ⟨l, r, h⟩ := List.append_of_mem hw
    obtain ⟨hcode, i, hi, -⟩ := exists_place hletter h
    exact ⟨hcode, i, hi⟩
  · rintro ⟨hcode, i, hi⟩
    obtain ⟨ps, qs, b, after, hpieces, -⟩ := found_of_stands hletter hcode hi
    exact List.mem_filterMap.mpr ⟨.found b w after, by simp [hpieces], rfl⟩

theorem exists_isLeast (hletter : isWordChar letter = true) {l r : List (List Char)}
    (h : (code letter).allIn s = l ++ w :: r) (hw : w ∉ l) :
    ∃ i, IsLeast {k | StandsAt s w k} i ∧ ∀ w' j, w' ∉ l → IsCode letter w' → StandsAt s w' j → i ≤ j := by
  obtain ⟨hcode, i, hi, hleast⟩ := exists_place hletter h
  exact ⟨i, ⟨hi, fun j hj => hleast w j hw hcode hj⟩, hleast⟩

theorem ordered_firsts (hletter : isWordChar letter = true) (s : List Char) :
    (firsts ((code letter).allIn s)).Pairwise fun w w' => ∃ i j, IsLeast {k | StandsAt s w k} i ∧
      IsLeast {k | StandsAt s w' k} j ∧ i < j := by
  apply (pairwise_firsts _).imp_of_mem
  rintro w w' - hmem ⟨l, r, h, hw, hw', hne⟩
  obtain ⟨i, hi, hbefore⟩ := exists_isLeast hletter h hw
  obtain ⟨l', r', h', hnot⟩ := List.eq_append_cons_of_mem (mem_firsts.mp hmem)
  obtain ⟨j, hj, -⟩ := exists_isLeast hletter h' hnot
  have hcode := ((mem_allIn_iff hletter).mp (mem_firsts.mp hmem)).1
  have hcode' := (exists_place hletter h).1
  refine ⟨i, j, hi, hj, Nat.lt_of_le_of_ne (hbefore w' j hw' hcode hj.1) ?_⟩
  rintro rfl
  exact hne (eq_of_standsAt hcode' hcode hi.1 hj.1)

end Places

theorem codesOf_codes {letter : Char} (hletter : isWordChar letter = true) (comment : String) :
    CodesOf letter comment (codes letter comment) := by
  constructor
  · rw [codes, List.nodup_map_iff fun w w' h => by simpa using congrArg String.toList h]
    exact (pairwise_firsts _).imp fun ⟨_, _, _, _, _, hne⟩ => hne
  · intro c
    rw [← mem_allIn_iff hletter, codes, List.mem_map]
    constructor
    · rintro ⟨w, hw, rfl⟩
      rw [String.toList_ofList]
      exact mem_firsts.mp hw
    · intro hc
      exact ⟨c.toList, mem_firsts.mpr hc, String.ofList_toList⟩
  · rw [codes, List.pairwise_map]
    simpa only [String.toList_ofList] using ordered_firsts hletter comment.toList

/-- The selection codes of a comment are the whole-word codes in it, each once, in the order of their first places. -/
theorem selections_listed (comment : String) :
    CodesOf 'D' comment (dSelections comment) ∧ CodesOf 'E' comment (eSelections comment) :=
  ⟨codesOf_codes (by decide) comment, codesOf_codes (by decide) comment⟩

-- Neither a letter after the number nor one before the code makes another code of it.
example : dSelections "Run with D3, D1 and D3 again; E12/E2. Not DX1 or AD5 or D4a." = ["D3", "D1"] := by
  decide +kernel

end Applicability.Selection
