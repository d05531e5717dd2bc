import Applicability.Proofs.Condition.WholeIds
import Applicability.Proofs.Text.Pieces

namespace Applicability.Condition

open Capability Text Pattern

def extended (before : Option Char) (after : List Char) : Bool :=
  before.any extendsBefore || extendsAfter after

def wholePieces (token s : List Char) : List Piece :=
  dissolved extended ((occurrence token).pieces s)

/-- The part `w` after `l` is copied character by character, whatever is written for the token. -/
def Copies (token l w s : List Char) : Prop :=
  ∃ ps qs, wholePieces token (l ++ (w ++ s)) = ps ++ (w.map .plain ++ qs) ∧ textOf ps = l ∧ textOf qs = s

theorem replaceWhole_eq_written (token replacement s : List Char) :
    replaceWhole token replacement s = (wholePieces token s).flatMap (written fun _ _ _ => replacement) :=
  replaceIn_eq_dissolved extended (occurrence token) replacement s

section Occurrences

variable {token l s : List Char} {b : Option Char} {text after : List Char}

theorem placed_occurrences : Placed none ((occurrence token).pieces s) :=
  placed_piecesFrom (occurrence token) none 0 s

theorem textOf_occurrences : textOf ((occurrence token).pieces s) = s :=
  textOf_piecesFrom (occurrence token) none 0 s

theorem placed_wholePieces : Placed none (wholePieces token s) :=
  placed_dissolved extended placed_occurrences

theorem textOf_wholePieces : textOf (wholePieces token s) = s := by
  rw [wholePieces, textOf_dissolved, textOf_occurrences]

theorem eq_token_of_mem (h : .found b text after ∈ (occurrence token).pieces s) : text = token := by
  obtain ⟨hne, htake⟩ := take_of_mem_piecesFrom h
  rw [occurrence] at hne htake
  split at hne
  · rename_i hpre
    rw [if_pos hpre] at htake
    rw [htake]
    exact (List.prefix_iff_eq_take.mp (List.isPrefixOf_iff_prefix.mp hpre)).symm
  · exact absurd rfl hne

theorem mem_wholePieces (h : .found b text after ∈ wholePieces token s) :
    text = token ∧ extended b after = false := by
  obtain ⟨hmem, hext⟩ := (mem_dissolved extended).mp h
  exact ⟨eq_token_of_mem hmem, hext⟩

theorem copies_iff_extended (htoken : token ≠ [])
    (h : .found (lastOf none l) token s ∈ (occurrence token).pieces (l ++ (token ++ s))) :
    Copies token l token s ↔ extended (lastOf none l) s = true := by
  constructor
  · rintro ⟨ps, qs, hpieces, -, hqs⟩
    by_contra hext
    have hplaced : Placed none (wholePieces token (l ++ (token ++ s))) := placed_wholePieces
    have hmem : .found (lastOf none l) token s ∈ wholePieces token (l ++ (token ++ s)) :=
      (mem_dissolved extended).mpr ⟨h, by simpa using hext⟩
    rw [hpieces] at hplaced hmem
    exact hplaced.not_mem_of_split htoken hqs hmem
  · exact exists_split_of_copied placed_occurrences textOf_occurrences h

end Occurrences

section Overlaps

theorem isWordChar_of_overlap {id : Id} {w₁ w₂ w₃ : List Char} (hl : id.text = w₁ ++ w₂)
    (hr : id.text = w₂ ++ w₃) (h₁ : w₁ ≠ []) (h₂ : w₂ ≠ []) : ∀ c ∈ id.text, isWordChar c = true := by
  rcases id.isWordChar_or_capital with hword | ⟨cs, hcs, ha⟩
  · exact hword
  · -- The overlap begins with the letter that does not come again after the head of the id.
    cases w₁ with
    | nil => exact absurd rfl h₁
    | cons c w₁ =>
      cases w₂ with
      | nil => exact absurd rfl h₂
      | cons d w₂ =>
        rw [hcs] at hl hr
        obtain ⟨-, rfl⟩ := List.cons.inj hl
        obtain ⟨rfl, -⟩ := List.cons.inj hr
        exact absurd (List.mem_append_right w₁ List.mem_cons_self) ha

theorem exists_of_overlap {w l l' s s' : List Char} (h : l ++ (w ++ s) = l' ++ (w ++ s'))
    (hlt : l.length < l'.length) (hover : l'.length < l.length + w.length) :
    ∃ w₁ w₂ w₃, w = w₁ ++ w₂ ∧ w = w₂ ++ w₃ ∧ w₁ ≠ [] ∧ w₂ ≠ [] ∧ w₃ ≠ [] ∧ l' = l ++ w₁ ∧ s = w₃ ++ s' := by
  -- The later occurrence begins after `w₁`, the earlier one ends after `w₂`, and the later one ends after `w₃`.
  obtain ⟨w₁, rfl, hafter⟩ := Lists.exists_append_of_length_le h hlt.le
  rw [List.length_append] at hlt hover
  obtain ⟨w₂, hw₂, hrest⟩ := Lists.exists_append_of_length_le hafter.symm (by omega)
  have hlen := congrArg List.length hw₂
  rw [List.length_append] at hlen
  obtain ⟨w₃, hw₃, rfl⟩ := Lists.exists_append_of_length_le hrest.symm (by omega)
  have hlen' := congrArg List.length hw₃
  rw [List.length_append] at hlen'
  have hne₁ : w₁ ≠ [] := List.length_pos_iff.mp (by omega)
  have hne₂ : w₂ ≠ [] := List.length_pos_iff.mp (by omega)
  have hne₃ : w₃ ≠ [] := List.length_pos_iff.mp (by omega)
  exact ⟨w₁, w₂, w₃, hw₂, hw₃, hne₁, hne₂, hne₃, rfl, rfl⟩

theorem extended_of_overlap {id : Id} {l l' s s' : List Char} (hid : IsAscii id.text)
    (h : l ++ (id.text ++ s) = l' ++ (id.text ++ s')) (hlt : l.length < l'.length)
    (hover : l'.length < l.length + id.text.length) (b : Option Char) :
    extended b s = true ∧ extended (lastOf none l') s' = true := by
  obtain ⟨w₁, w₂, w₃, hl, hr, hne₁, hne₂, hne₃, rfl, rfl⟩ := exists_of_overlap h hlt hover
  have hword := isWordChar_of_overlap hl hr hne₁ hne₂
  constructor
  · cases w₃ with
    | nil => exact absurd rfl hne₃
    | cons c w₃ =>
      have hc : c ∈ id.text := by simp [hr]
      have hext := hword c hc
      rw [isWordChar_ascii (hid c hc)] at hext
      simp [extended, extendsAfter, hext]
  · obtain ⟨u, c, rfl⟩ := (List.eq_nil_or_concat w₁).resolve_left hne₁
    have hc : c ∈ id.text := by simp [hl]
    have hext := extendsBefore_of_isWordChar (hid c hc) (hword c hc)
    simp [extended, lastOf_append, hext]

theorem copies_of_extended {id : Id} {l s : List Char} (hid : IsAscii id.text)
    (h : extended (lastOf none l) s = true) : Copies id.text l id.text s := by
  have hplaced : Placed none (wholePieces id.text (l ++ (id.text ++ s))) := placed_wholePieces
  apply hplaced.exists_split textOf_wholePieces
  intro b text after hmem
  obtain ⟨rfl, hwhole⟩ := mem_wholePieces hmem
  obtain ⟨l', hl', rfl⟩ := placed_wholePieces.of_mem hmem
  rw [textOf_wholePieces] at hl'
  have hlen := congrArg List.length hl'
  simp only [List.length_append] at hlen
  by_contra hnear
  -- A whole token that touches the occurrence would be the occurrence itself or overlap with it.
  rcases Nat.lt_trichotomy l.length l'.length with hlt | heq | hgt
  · have hover := extended_of_overlap hid hl' hlt (by omega) none
    rw [hover.2] at hwhole
    exact absurd hwhole (by decide)
  · obtain ⟨rfl, hrest⟩ := List.append_inj hl' heq
    obtain rfl := List.append_cancel_left hrest
    rw [h] at hwhole
    exact absurd hwhole (by decide)
  · have hover := extended_of_overlap hid hl'.symm hgt (by omega) (lastOf none l')
    rw [hover.1] at hwhole
    exact absurd hwhole (by decide)

end Overlaps

section Inside

variable {id longer : Id} {x y : List Char}

def isAsciiChar (c : Char) : Bool :=
  decide (c.toNat < 0x80)

theorem isAsciiChar_of_isAlphanum {c : Char} (h : c.isAlphanum = true) : isAsciiChar c = true := by
  rw [isAlphanum_iff] at h
  simp only [isAsciiChar, decide_eq_true_eq]
  omega

theorem isAlphanum_or_underscore {c : Char} (h : isWordChar c = true) :
    (c.isAlphanum || c == '_') = isAsciiChar c := by
  by_cases hc : c.toNat < 0x80
  · rw [← isWordChar_ascii hc, h]
    simp [isAsciiChar, hc]
  · have halnum : c.isAlphanum = false := by
      rw [Bool.eq_false_iff]
      intro ha
      exact hc (by simpa [isAsciiChar] using isAsciiChar_of_isAlphanum ha)
    have hunder : c ≠ '_' := by
      rintro rfl
      exact hc (by decide)
    simp [isAsciiChar, hc, halnum, hunder]

theorem not_separator_of_isWordChar {c : Char} (h : isWordChar c = true) : c ≠ '.' ∧ c ≠ '-' ∧ c ≠ '/' := by
  refine ⟨?_, ?_, ?_⟩
  all_goals
    rintro rfl
    exact absurd h (by decide)

theorem isDigit_eq_isAsciiChar {c : Char} (h : isDigit c = true) : c.isDigit = isAsciiChar c := by
  by_cases hc : c.toNat < 0x80
  · rw [← isDigit_ascii hc, h]
    simp [isAsciiChar, hc]
  · have hdigit : c.isDigit = false := by
      rw [Bool.eq_false_iff, ne_eq, isDigit_ascii_iff]
      omega
    simp [isAsciiChar, hc, hdigit]

theorem extendsBefore_inside (h : longer.text = x ++ (id.text ++ y)) (hx : x ≠ []) (b : Option Char) :
    (lastOf b x).any extendsBefore = x.getLast?.any isAsciiChar := by
  obtain ⟨u, c, rfl⟩ := (List.eq_nil_or_concat x).resolve_left hx
  -- No digit comes next, so that the last character before the id is no separator.
  obtain ⟨d, w, hd, hletter⟩ : ∃ d w, id.text = d :: w ∧ isDigit d = false := by
    rcases id.cases_text with ⟨cs, hcs⟩ | ⟨cs, hcs⟩
    · exact ⟨'A', '.' :: cs, hcs, by decide⟩
    · exact ⟨'P', 'C' :: '_' :: cs, hcs, by decide⟩
  have hchain := longer.shaped.chain
  rw [h, hd, List.concat_eq_append, List.append_assoc] at hchain
  have hnext := (List.isChain_cons_cons.mp (List.isChain_append.mp hchain).2.1).1
  have hc : isWordChar c = true := by simpa [hletter] using hnext
  have hdot := (not_separator_of_isWordChar hc).1
  simp only [List.concat_eq_append, lastOf_append, lastOf_cons, lastOf_nil, List.getLast?_concat, Option.any_some,
    extendsBefore]
  rw [isAlphanum_or_underscore hc]
  simp [hdot]

theorem extendsAfter_inside {l : List Char} (h : longer.text = l ++ y) (hy : y ≠ []) (v : List Char) :
    extendsAfter (y ++ v) = (y.find? isWordChar).any isAsciiChar := by
  have hshape := longer.shaped
  rw [h] at hshape
  cases y with
  | nil => exact absurd rfl hy
  | cons c y =>
    by_cases hc : isWordChar c = true
    · obtain ⟨hdot, hdash, hslash⟩ := not_separator_of_isWordChar hc
      rw [List.cons_append, extendsAfter, isAlphanum_or_underscore hc]
      simp [hdot, hdash, hslash, hc]
    · have hsep := (hshape.chars c (by simp)).resolve_left hc
      cases y with
      | nil => exact absurd (hshape.last c (by simp)) hc
      | cons d y =>
        have hd : isDigit d = true :=
          ((List.isChain_cons_cons.mp (List.isChain_append.mp hshape.chain).2.1).1).resolve_left hc
        have hnot : (c.isAlphanum || c == '_') = false ∧ (c == '.' || c == '-' || c == '/') = true := by
          rcases hsep with rfl | rfl | rfl <;> decide
        simp only [List.cons_append, extendsAfter, List.head?_cons, Option.any_some]
        rw [hnot.1, hnot.2, isDigit_eq_isAsciiChar hd, Bool.false_or, Bool.true_and]
        simp [hc, isWordChar_of_isDigit hd]

def Guarded (u x y v : List Char) : Prop :=
  (if x = [] then (lastOf none u).any extendsBefore = true else x.getLast?.any isAsciiChar = true) ∨
    if y = [] then extendsAfter v = true else (y.find? isWordChar).any isAsciiChar = true

theorem extended_iff_guarded (h : longer.text = x ++ (id.text ++ y)) (u v : List Char) :
    extended (lastOf none (u ++ x)) (y ++ v) = true ↔ Guarded u x y v := by
  have hbefore : (lastOf none (u ++ x)).any extendsBefore = true ↔
      if x = [] then (lastOf none u).any extendsBefore = true else x.getLast?.any isAsciiChar = true := by
    by_cases hx : x = []
    · simp [hx]
    · rw [if_neg hx, lastOf_append, extendsBefore_inside h hx]
  have hafter : extendsAfter (y ++ v) = true ↔
      if y = [] then extendsAfter v = true else (y.find? isWordChar).any isAsciiChar = true := by
    by_cases hy : y = []
    · simp [hy]
    · rw [← List.append_assoc] at h
      rw [if_neg hy, extendsAfter_inside h hy]
  rw [extended, Bool.or_eq_true, hbefore, hafter, Guarded]

theorem guarded_of_isAscii (h : longer.text = x ++ (id.text ++ y)) (hxy : x ++ y ≠ []) (hlonger : IsAscii longer.text)
    (u v : List Char) : Guarded u x y v := by
  rw [h, isAscii_append, isAscii_append] at hlonger
  obtain ⟨hx, -, hy⟩ := hlonger
  by_cases hne : x = []
  · right
    have hynil : y ≠ [] := by
      rintro rfl
      exact hxy (List.append_eq_nil_iff.mpr ⟨hne, rfl⟩)
    rw [if_neg hynil]
    have hshape := longer.shaped
    rw [h, ← List.append_assoc] at hshape
    obtain ⟨w, c, rfl⟩ := (List.eq_nil_or_concat y).resolve_left hynil
    have hc : isWordChar c = true := hshape.last c (by simp [← List.append_assoc])
    obtain ⟨d, hd⟩ : ∃ d, (w.concat c).find? isWordChar = some d :=
      Option.isSome_iff_exists.mp (List.find?_isSome.mpr ⟨c, by simp, hc⟩)
    have hascii := hy d (List.mem_of_find?_eq_some hd)
    rw [hd]
    simp [isAsciiChar, hascii]
  · left
    rw [if_neg hne]
    have hascii := hx _ (List.getLast_mem hne)
    simp [List.getLast?_eq_some_getLast hne, isAsciiChar, hascii]

/-- A short id within a match of the pattern for ids is copied if the match is ASCII. If it counts as an
occurrence, it is copied exactly where one of its neighbours guards it. -/
theorem copies_inside_match {before : Option Char} {u v : List Char}
    (hmatch : .found before (x ++ (id.text ++ y)) v ∈ idPattern.pieces (u ++ ((x ++ (id.text ++ y)) ++ v)))
    (hlonger : x ++ y ≠ []) :
    (∀ replacement s, replaceWhole id.text replacement s =
        (wholePieces id.text s).flatMap (written fun _ _ _ => replacement)) ∧
      (IsAscii (x ++ (id.text ++ y)) → Copies id.text (u ++ x) id.text (y ++ v)) ∧
      (.found (lastOf none (u ++ x)) id.text (y ++ v) ∈
          (occurrence id.text).pieces ((u ++ x) ++ (id.text ++ (y ++ v))) →
        (Copies id.text (u ++ x) id.text (y ++ v) ↔ Guarded u x y v)) := by
  obtain ⟨longer, hlong⟩ := exists_id_of_match hmatch
  have hguard := extended_iff_guarded hlong u v
  refine ⟨replaceWhole_eq_written id.text, ?_, ?_⟩
  · intro hascii
    have hid : IsAscii id.text := (isAscii_append.mp (isAscii_append.mp hascii).2).1
    exact copies_of_extended hid (hguard.mpr (guarded_of_isAscii hlong hlonger (hlong ▸ hascii) u v))
  · intro hcounts
    rw [copies_iff_extended id.ne_nil hcounts, hguard]

theorem copies_inside_match_branch :
    Copies "A.4".toList [] "A.4".toList "/1 OR A.4".toList ∧ Guarded [] [] "/1".toList " OR A.4".toList := by
  let id : Id := ⟨"A.4".toList, by decide⟩
  have hmatch : .found none ([] ++ (id.text ++ "/1".toList)) " OR A.4".toList ∈
      idPattern.pieces ([] ++ (([] ++ (id.text ++ "/1".toList)) ++ " OR A.4".toList)) := by decide +kernel
  obtain ⟨-, hcopies, hiff⟩ := copies_inside_match hmatch (by decide)
  have hascii : IsAscii ([] ++ (id.text ++ "/1".toList)) := by simp [IsAscii, id]
  exact ⟨hcopies hascii, (hiff (by decide +kernel)).mp (hcopies hascii)⟩

theorem not_copies_inside_match :
    ¬∀ (id : Id) (before : Option Char) (u x y v : List Char),
      .found before (x ++ (id.text ++ y)) v ∈ idPattern.pieces (u ++ ((x ++ (id.text ++ y)) ++ v)) →
        x ++ y ≠ [] → Copies id.text (u ++ x) id.text (y ++ v) := by
  intro h
  have hcopies : Copies "A.1".toList [] "A.1".toList ['\u0663'] :=
    h ⟨"A.1".toList, by decide⟩ none [] [] ['\u0663'] [] (by decide +kernel) (by decide)
  rw [copies_iff_extended (by decide) (by decide +kernel)] at hcopies
  exact absurd hcopies (by decide)

-- The digit three of the Arabic script goes on with an id, but not for the test at its end.
example : idPattern none ("A.1".toList ++ ['\u0663']) = 4 ∧
    replaceWhole "A.1".toList "true".toList ("A.1".toList ++ ['\u0663']) = "true".toList ++ ['\u0663'] := by
  decide

end Inside

end Applicability.Condition
