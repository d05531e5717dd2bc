import Applicability.Proofs.Lists
import Applicability.Proofs.Text.Pattern

namespace Applicability.Text.Pattern

def textOf (ps : List Piece) : List Char :=
  ps.flatMap Piece.text

theorem textOf_cons (piece : Piece) (ps : List Piece) : textOf (piece :: ps) = piece.text ++ textOf ps := rfl

theorem textOf_append (ps qs : List Piece) : textOf (ps ++ qs) = textOf ps ++ textOf qs :=
  List.flatMap_append

theorem textOf_map_plain (w : List Char) : textOf (w.map .plain) = w := by
  induction w with
  | nil => rfl
  | cons c w ih => rw [List.map_cons, textOf_cons, ih, Piece.text, List.singleton_append]

theorem mem_of_textOf_lt {ps ps' qs qs' : List Piece} {a b : Piece} (h : ps ++ a :: ps' = qs ++ b :: qs')
    (hlt : (textOf ps).length < (textOf qs).length) : a ∈ qs := by
  rcases List.append_eq_append_iff.mp h with ⟨x, rfl, hx⟩ | ⟨x, rfl, -⟩
  · cases x with
    | nil =>
      rw [List.append_nil] at hlt
      exact absurd hlt (Nat.lt_irrefl _)
    | cons c x =>
      obtain ⟨rfl, -⟩ := List.cons.inj hx
      simp
  · rw [textOf_append, List.length_append] at hlt
    omega

theorem eq_map_plain {ps : List Piece} (h : ∀ b text after, .found b text after ∉ ps) :
    ps = (textOf ps).map .plain := by
  induction ps with
  | nil => rfl
  | cons piece ps ih =>
    have hps := ih fun b text after hmem => h b text after (List.mem_cons_of_mem _ hmem)
    cases piece with
    | plain c => exact congrArg (Piece.plain c :: ·) hps
    | found b text after => exact absurd List.mem_cons_self (h b text after)

theorem textOf_piecesFrom (p : Pattern) (before : Option Char) (n : Nat) (s : List Char) :
    textOf (piecesFrom p before n s) = s.drop n := by
  induction s generalizing before n with
  | nil => cases n <;> rfl
  | cons c s ih =>
    cases n with
    | succ n => exact ih (some c) n
    | zero =>
      rw [piecesFrom]
      split
      · rw [textOf_cons, ih]
        rfl
      · rename_i n _
        rw [textOf_cons, ih, Piece.text, List.cons_append, List.take_append_drop]
        rfl

def Placed : Option Char → List Piece → Prop
  | _, [] => True
  | before, piece :: ps =>
    piece.text ≠ [] ∧ (∀ b text after, piece = .found b text after → b = before ∧ after = textOf ps) ∧
      Placed (lastOf before piece.text) ps

theorem placed_piecesFrom (p : Pattern) (before : Option Char) (n : Nat) (s : List Char) :
    Placed (lastOf before (s.take n)) (piecesFrom p before n s) := by
  induction s generalizing before n with
  | nil => cases n <;> trivial
  | cons c s ih =>
    cases n with
    | succ n => exact ih (some c) n
    | zero =>
      rw [piecesFrom]
      split
      · refine ⟨List.cons_ne_nil c [], ?_, ih (some c) 0⟩
        rintro b text after ⟨⟩
      · rename_i n _
        refine ⟨List.cons_ne_nil c _, ?_, ih (some c) n⟩
        rintro b text after ⟨⟩
        exact ⟨rfl, (textOf_piecesFrom p (some c) n s).symm⟩

theorem piecesFrom_skip (p : Pattern) (before : Option Char) (n : Nat) (s : List Char) :
    piecesFrom p before n s = piecesFrom p (lastOf before (s.take n)) 0 (s.drop n) := by
  induction s generalizing before n with
  | nil => cases n <;> rfl
  | cons c s ih =>
    cases n with
    | zero => rfl
    | succ n => exact ih (some c) n

theorem piecesFrom_right {p : Pattern} {before : Option Char} {s : List Char} {ps qs : List Piece}
    (h : piecesFrom p before 0 s = ps ++ qs) : qs = piecesFrom p (lastOf before (textOf ps)) 0 (textOf qs) := by
  induction ps generalizing before s with
  | nil =>
    have hs := textOf_piecesFrom p before 0 s
    rw [h, List.nil_append, List.drop_zero] at hs
    rw [hs]
    exact h.symm
  | cons piece ps ih =>
    rw [textOf_cons, lastOf_append]
    cases s with
    | nil => cases h
    | cons c s =>
      rw [piecesFrom, List.cons_append] at h
      split at h
      · obtain ⟨rfl, hrest⟩ := List.cons.inj h
        exact ih hrest
      · rename_i n _
        obtain ⟨rfl, hrest⟩ := List.cons.inj h
        rw [piecesFrom_skip] at hrest
        exact ih hrest

namespace Placed

variable {before : Option Char} {ps qs : List Piece}

theorem append_right (h : Placed before (ps ++ qs)) : Placed (lastOf before (textOf ps)) qs := by
  induction ps generalizing before with
  | nil => exact h
  | cons piece ps ih =>
    rw [textOf_cons, lastOf_append]
    exact ih h.2.2

theorem sides {b : Option Char} {text after : List Char} (h : Placed before (ps ++ .found b text after :: qs)) :
    b = lastOf before (textOf ps) ∧ after = textOf qs := by
  obtain ⟨-, hfound, -⟩ := h.append_right
  exact hfound b text after rfl

theorem of_mem {b : Option Char} {text after : List Char} (h : Placed before ps) (hmem : .found b text after ∈ ps) :
    ∃ l, textOf ps = l ++ (text ++ after) ∧ b = lastOf before l := by
  obtain ⟨qs, rs, rfl⟩ := List.append_of_mem hmem
  obtain ⟨rfl, rfl⟩ := h.sides
  exact ⟨textOf qs, by rw [textOf_append, textOf_cons, Piece.text], rfl⟩

theorem not_mem_of_split {w s : List Char} {b : Option Char} (h : Placed before (ps ++ (w.map .plain ++ qs)))
    (hw : w ≠ []) (hs : textOf qs = s) : .found b w s ∉ ps ++ (w.map .plain ++ qs) := by
  intro hmem
  have hlen := List.length_pos_iff.mpr hw
  rcases List.mem_append.mp hmem with hps | hrest
  · obtain ⟨ps, ps', rfl⟩ := List.append_of_mem hps
    rw [List.append_assoc, List.cons_append] at h
    have hafter := congrArg List.length h.sides.2
    rw [textOf_append, textOf_append, textOf_map_plain, hs, List.length_append, List.length_append] at hafter
    omega
  · rcases List.mem_append.mp hrest with hplain | hqs
    · obtain ⟨c, -, hc⟩ := List.mem_map.mp hplain
      cases hc
    · obtain ⟨_, hl, -⟩ := h.append_right.append_right.of_mem hqs
      have hafter := congrArg List.length hl
      rw [hs, List.length_append, List.length_append] at hafter
      omega

theorem exists_parts {l s : List Char} (h : Placed before ps) (htext : textOf ps = l ++ s)
    (hplace : ∀ b text after, .found b text after ∈ ps →
      s.length ≤ after.length ∨ text.length + after.length ≤ s.length) :
    ∃ qs rs, ps = qs ++ rs ∧ textOf qs = l ∧ textOf rs = s := by
  induction ps generalizing before l with
  | nil =>
    obtain ⟨rfl, rfl⟩ := List.append_eq_nil_iff.mp htext.symm
    exact ⟨[], [], rfl, rfl, rfl⟩
  | cons piece ps ih =>
    obtain ⟨-, hfound, hrest⟩ := h
    cases l with
    | nil => exact ⟨[], piece :: ps, rfl, rfl, htext⟩
    | cons d l =>
      rw [textOf_cons] at htext
      obtain ⟨l', hl', htail⟩ : ∃ l', d :: l = piece.text ++ l' ∧ textOf ps = l' ++ s := by
        cases piece with
        | plain c =>
          obtain ⟨rfl, htail⟩ := List.cons.inj htext
          exact ⟨l, rfl, htail⟩
        | found b text after =>
          obtain ⟨-, rfl⟩ := hfound b text after rfl
          have hlen := congrArg List.length htext
          have hor := hplace b text _ List.mem_cons_self
          rw [List.length_append, List.length_append, Piece.text] at hlen
          have hpos : 0 < (d :: l).length := Nat.succ_pos _
          have hle : text.length ≤ (d :: l).length := by omega
          exact Lists.exists_append_of_length_le htext hle
      obtain ⟨qs, rs, rfl, rfl, hrs⟩ := ih hrest htail
        fun b text after hmem => hplace b text after (List.mem_cons_of_mem _ hmem)
      exact ⟨piece :: qs, rs, rfl, by rw [textOf_cons, hl'], hrs⟩

theorem exists_split {l w s : List Char} (h : Placed before ps) (htext : textOf ps = l ++ (w ++ s))
    (hapart : ∀ b text after, .found b text after ∈ ps →
      w.length + s.length ≤ after.length ∨ text.length + after.length ≤ s.length) :
    ∃ qs rs, ps = qs ++ (w.map .plain ++ rs) ∧ textOf qs = l ∧ textOf rs = s := by
  obtain ⟨qs, rest, rfl, hqs, hrest⟩ := h.exists_parts htext fun b text after hmem => by
    have hor := hapart b text after hmem
    rw [List.length_append]
    omega
  have hright := h.append_right
  obtain ⟨ms, rs, rfl, hms, hrs⟩ := hright.exists_parts hrest fun b text after hmem => by
    have hor := hapart b text after (List.mem_append_right qs hmem)
    omega
  have hplain : ∀ b text after, .found b text after ∉ ms := by
    intro b text after hmem
    have hor := hapart b text after (List.mem_append_right qs (List.mem_append_left rs hmem))
    obtain ⟨ms, ms', rfl⟩ := List.append_of_mem hmem
    rw [List.append_assoc, List.cons_append] at hright
    obtain ⟨hne, -⟩ := hright.append_right
    obtain ⟨-, rfl⟩ := hright.sides
    have hpos : 0 < text.length := List.length_pos_iff.mpr hne
    have hlen := congrArg List.length hms
    rw [textOf_append, textOf_cons, Piece.text, List.length_append, List.length_append] at hlen
    rw [textOf_append, List.length_append, hrs] at hor
    omega
  exact ⟨qs, rs, by rw [← hms, ← eq_map_plain hplain], hqs, hrs⟩

end Placed

section Known

variable {p : Pattern} {before : Option Char} {l w r : List Char}

theorem exists_found (hw : w ≠ []) (hmatch : p (lastOf before l) (w ++ r) = w.length)
    (hclear : ∀ l' text after, .found (lastOf before l') text after ∈ piecesFrom p before 0 (l ++ (w ++ r)) →
      l' ++ (text ++ after) = l ++ (w ++ r) → l'.length < l.length → l'.length + text.length ≤ l.length) :
    ∃ ps qs, piecesFrom p before 0 (l ++ (w ++ r)) = ps ++ .found (lastOf before l) w r :: qs ∧ textOf ps = l ∧
      textOf qs = r := by
  have hplaced : Placed before (piecesFrom p before 0 (l ++ (w ++ r))) := placed_piecesFrom p before 0 _
  have htext : textOf (piecesFrom p before 0 (l ++ (w ++ r))) = l ++ (w ++ r) := textOf_piecesFrom p before 0 _
  obtain ⟨ps, rest, hparts, rfl, hrest⟩ := hplaced.exists_parts htext fun b text after hmem => by
    obtain ⟨l', hl', rfl⟩ := hplaced.of_mem hmem
    rw [htext] at hl'
    have hreach := hclear l' text after hmem hl'.symm
    have hlen := congrArg List.length hl'
    simp only [List.length_append] at hlen ⊢
    omega
  have hright := piecesFrom_right hparts
  rw [hrest, piecesFrom_match hw hmatch] at hright
  exact ⟨ps, _, by rw [hparts, hright], rfl, textOf_piecesFrom p _ 0 r⟩

end Known

section Parts

def partsOf : List Piece → List (List Char)
  | [] => [[]]
  | .plain c :: ps => (partsOf ps).modifyHead (c :: ·)
  | .found _ _ _ :: ps => [] :: partsOf ps

variable {ps qs : List Piece} {us ws : List (List Char)}

theorem exists_partsOf (ps : List Piece) : ∃ w ws, partsOf ps = w :: ws := by
  induction ps with
  | nil => exact ⟨[], [], rfl⟩
  | cons piece ps ih =>
    cases piece with
    | plain c =>
      obtain ⟨w, ws, h⟩ := ih
      exact ⟨c :: w, ws, by rw [partsOf, h, List.modifyHead_cons]⟩
    | found b text after => exact ⟨[], partsOf ps, rfl⟩

theorem partsOf_ne_nil (ps : List Piece) : partsOf ps ≠ [] := by
  obtain ⟨w, ws, h⟩ := exists_partsOf ps
  rw [h]
  exact List.cons_ne_nil w ws

theorem intercalate_partsOf (w : List Char) (ps : List Piece) :
    w.intercalate (partsOf ps) = ps.flatMap (written fun _ _ _ => w) := by
  induction ps with
  | nil => exact List.intercalate_singleton
  | cons piece ps ih =>
    obtain ⟨v, vs, h⟩ := exists_partsOf ps
    rw [List.flatMap_cons, ← ih]
    cases piece with
    | plain c =>
      rw [partsOf, h, List.modifyHead_cons, written]
      cases vs with
      | nil => rw [List.intercalate_singleton, List.intercalate_singleton, List.singleton_append]
      | cons u us => simp only [List.intercalate_cons_cons, List.cons_append, List.nil_append]
    | found b text after =>
      rw [partsOf, h, List.intercalate_cons_cons, List.nil_append, written]

theorem intercalate_partsOf_eq {w : List Char} (h : ∀ b text after, .found b text after ∈ ps → text = w) :
    w.intercalate (partsOf ps) = textOf ps := by
  rw [intercalate_partsOf, textOf]
  apply List.flatMap_congr
  intro piece hpiece
  cases piece with
  | plain c => rfl
  | found b text after => exact (h b text after hpiece).symm

theorem partsOf_append_found (ps qs : List Piece) (b : Option Char) (text after : List Char) :
    partsOf (ps ++ .found b text after :: qs) = partsOf ps ++ partsOf qs := by
  induction ps with
  | nil => rfl
  | cons piece ps ih =>
    rw [List.cons_append]
    cases piece with
    | plain c =>
      obtain ⟨w, ws, h⟩ := exists_partsOf ps
      rw [partsOf, partsOf, ih, h, List.cons_append, List.modifyHead_cons, List.modifyHead_cons, List.cons_append]
    | found b' text' after' => rw [partsOf, partsOf, ih, List.cons_append]

theorem exists_of_partsOf_append (h : partsOf ps = us ++ ws) (hus : us ≠ []) (hws : ws ≠ []) :
    ∃ qs rs b text after, ps = qs ++ .found b text after :: rs ∧ partsOf qs = us ∧ partsOf rs = ws := by
  induction ps generalizing us with
  | nil =>
    have hlen := congrArg List.length h
    have hus := List.length_pos_iff.mpr hus
    have hws := List.length_pos_iff.mpr hws
    rw [partsOf, List.length_singleton, List.length_append] at hlen
    omega
  | cons piece ps ih =>
    obtain ⟨u, us, rfl⟩ := List.exists_cons_of_ne_nil hus
    rw [List.cons_append] at h
    cases piece with
    | plain c =>
      obtain ⟨v, vs, hps⟩ := exists_partsOf ps
      rw [partsOf, hps, List.modifyHead_cons] at h
      obtain ⟨rfl, rfl⟩ := List.cons.inj h
      rw [← List.cons_append] at hps
      obtain ⟨qs, rs, b, text, after, rfl, hqs, hrs⟩ := ih hps (List.cons_ne_nil v us)
      exact ⟨.plain c :: qs, rs, b, text, after, rfl, by rw [partsOf, hqs, List.modifyHead_cons], hrs⟩
    | found b text after =>
      rw [partsOf] at h
      obtain ⟨rfl, hrest⟩ := List.cons.inj h
      by_cases hnil : us = []
      · subst hnil
        exact ⟨[], ps, b, text, after, rfl, rfl, hrest⟩
      · obtain ⟨qs, rs, b', text', after', rfl, hqs, hrs⟩ := ih hrest hnil
        exact ⟨.found b text after :: qs, rs, b', text', after', rfl, by rw [partsOf, hqs], hrs⟩

end Parts

section Dissolving

variable (copied : Option Char → List Char → Bool)

def dissolve : Piece → List Piece
  | .plain c => [.plain c]
  | .found before text after => if copied before after then text.map .plain else [.found before text after]

def dissolved (ps : List Piece) : List Piece :=
  ps.flatMap (dissolve copied)

theorem textOf_dissolve (piece : Piece) : textOf (dissolve copied piece) = piece.text := by
  cases piece with
  | plain c => rfl
  | found before text after =>
    rw [dissolve]
    split
    · exact textOf_map_plain text
    · simp [textOf]

theorem textOf_dissolved (ps : List Piece) : textOf (dissolved copied ps) = textOf ps := by
  induction ps with
  | nil => rfl
  | cons piece ps ih =>
    rw [dissolved, List.flatMap_cons, textOf_append, textOf_dissolve, ← dissolved, ih, textOf_cons]

theorem placed_plain_append {before : Option Char} {w : List Char} {ps : List Piece}
    (h : Placed (lastOf before w) ps) : Placed before (w.map .plain ++ ps) := by
  induction w generalizing before with
  | nil => exact h
  | cons c w ih =>
    refine ⟨List.cons_ne_nil c [], ?_, ih h⟩
    rintro b text after ⟨⟩

theorem placed_dissolved {before : Option Char} {ps : List Piece} (h : Placed before ps) :
    Placed before (dissolved copied ps) := by
  induction ps generalizing before with
  | nil => trivial
  | cons piece ps ih =>
    obtain ⟨hne, hfound, hrest⟩ := h
    have hps := ih hrest
    rw [dissolved, List.flatMap_cons, ← dissolved]
    cases piece with
    | plain c => exact ⟨hne, by rintro b text after ⟨⟩, hps⟩
    | found b text after =>
      rw [dissolve]
      split
      · exact placed_plain_append hps
      · refine ⟨hne, ?_, hps⟩
        rintro b' text' after' ⟨⟩
        exact (textOf_dissolved copied ps).symm ▸ hfound b text after rfl

theorem mem_dissolved {ps : List Piece} {b : Option Char} {text after : List Char} :
    .found b text after ∈ dissolved copied ps ↔ .found b text after ∈ ps ∧ copied b after = false := by
  rw [dissolved, List.mem_flatMap]
  constructor
  · rintro ⟨piece, hmem, hpiece⟩
    cases piece with
    | plain c => simp [dissolve] at hpiece
    | found b' text' after' =>
      rw [dissolve] at hpiece
      split at hpiece
      · simp at hpiece
      · rename_i hcopied
        cases List.mem_singleton.mp hpiece
        exact ⟨hmem, by simpa using hcopied⟩
  · rintro ⟨hmem, hcopied⟩
    exact ⟨_, hmem, by simp [dissolve, hcopied]⟩

theorem replaceIn_eq_dissolved (p : Pattern) (replacement s : List Char) :
    p.replaceIn (fun before text after => if copied before after then text else replacement) s =
      (dissolved copied (p.pieces s)).flatMap (written fun _ _ _ => replacement) := by
  have hpiece : ∀ piece, written (fun before text after => if copied before after then text else replacement) piece =
      (dissolve copied piece).flatMap (written fun _ _ _ => replacement) := by
    intro piece
    cases piece with
    | plain c => rfl
    | found before text after =>
      by_cases hc : copied before after = true
      · simp [dissolve, hc, written, flatMap_written_plain]
      · simp [dissolve, hc, written]
  rw [replaceIn, dissolved, List.flatMap_assoc]
  exact congrArg (p.pieces s).flatMap (funext hpiece)

variable {copied}

theorem dissolved_append_found {b : Option Char} {after : List Char} (h : copied b after = false) (ps qs : List Piece)
    (text : List Char) :
    dissolved copied (ps ++ .found b text after :: qs) =
      dissolved copied ps ++ .found b text after :: dissolved copied qs := by
  simp [dissolved, dissolve, h]

theorem exists_split_of_copied {before : Option Char} {ps : List Piece} {l text after : List Char} {b : Option Char}
    (h : Placed before ps) (htext : textOf ps = l ++ (text ++ after)) (hmem : .found b text after ∈ ps)
    (hcopied : copied b after = true) :
    ∃ qs rs, dissolved copied ps = qs ++ (text.map .plain ++ rs) ∧ textOf qs = l ∧ textOf rs = after := by
  obtain ⟨qs, rs, rfl⟩ := List.append_of_mem hmem
  obtain ⟨-, rfl⟩ := h.sides
  rw [textOf_append, textOf_cons] at htext
  refine ⟨dissolved copied qs, dissolved copied rs, ?_, ?_, textOf_dissolved copied rs⟩
  · simp [dissolved, dissolve, hcopied]
  · rw [textOf_dissolved]
    exact List.append_cancel_right htext

end Dissolving

end Applicability.Text.Pattern
