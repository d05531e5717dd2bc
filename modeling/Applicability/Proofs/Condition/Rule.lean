import Applicability.Condition.Rule
import Applicability.Proofs.Condition.Repair

namespace Applicability

namespace Rule

open Boolean Capability Condition Text Pattern

theorem afterBlanks?_of_spaced {w s : List Char} {xs : List Lexeme}
    (hs : Spaced true (.word w :: xs) s) (hw : (Lexeme.word w).Proper) :
    ∃ r, afterBlanks? s = some (w ++ r) ∧ Spaced true xs r := by
  cases hs with
  | @cons _ g r _ _ hg hb hr =>
    refine ⟨r, ?_, hr⟩
    obtain ⟨c, g, rfl⟩ := List.exists_cons_of_ne_nil (hb rfl rfl)
    obtain ⟨hc, hg⟩ := List.forall_mem_cons.mp hg
    obtain ⟨d, w, rfl⟩ := List.exists_cons_of_ne_nil hw.1
    have hd : isBlank d = false := Lexeme.not_isBlank hw d List.mem_cons_self
    have htrim : trimStart (g ++ (d :: w ++ r)) = d :: w ++ r := by
      rw [trimStart_append hg]
      simp [trimStart, hd]
    simp only [List.cons_append, Lexeme.text] at htrim ⊢
    rw [afterBlanks?, if_pos hc, htrim]

theorem statusAt?_of_spells {status : Status} {v : List Char} (h : SpellsStatus status v) (s : List Char) :
    statusAt? (v ++ s) = some (status, s) := by
  obtain ⟨h, hs⟩ := h
  have hlen := h.length
  cases status with
  | error => exact absurd rfl hs
  | notApplicable =>
    have hv : afterLetters? ['N', '/', 'A'] (v ++ s) = some s := afterLetters?_upper h s
    simp [statusAt?, hv]
  | required =>
    obtain ⟨c, rfl⟩ := List.length_eq_one_iff.mp hlen
    have hc : c.toUpper = 'R' := (List.cons.inj h).1
    simp [statusAt?, afterLetters?, isLetter, hc]
  | mandatory =>
    obtain ⟨c, rfl⟩ := List.length_eq_one_iff.mp hlen
    have hc : c.toUpper = 'M' := (List.cons.inj h).1
    simp [statusAt?, afterLetters?, isLetter, hc]
  | optional =>
    obtain ⟨c, rfl⟩ := List.length_eq_one_iff.mp hlen
    have hc : c.toUpper = 'O' := (List.cons.inj h).1
    simp [statusAt?, afterLetters?, isLetter, hc]

theorem branch?_of_spaced {keyword : String} {k v r : List Char} {status : Status} {xs : List Lexeme}
    (hk : Spells keyword k) (hv : SpellsStatus status v) (hr : Spaced true (.word v :: xs) r) :
    ∃ s, branch? keyword (k ++ r) = some (status, s) ∧ Spaced true xs s := by
  obtain ⟨s, hs, hxs⟩ := afterBlanks?_of_spaced hr hv.proper
  exact ⟨s, by simp [branch?, afterLetters?_upper hk, hs, statusAt?_of_spells hv], hxs⟩

theorem trim_of_spaced_nil {b : Bool} {s : List Char} (hs : Spaced b [] s) : trim s = [] := by
  cases hs with
  | nil hg => exact dropEndWhile_of_forall fun c hc => hg c ((List.dropWhile_sublist _).mem hc)

theorem trim_of_spaced_word {b : Bool} {s w : List Char} {xs : List Lexeme}
    (hw : (Lexeme.word w).Proper) (hs : Spaced b (.word w :: xs) s) : ∃ r, trim s = w ++ r := by
  cases hs with
  | @cons _ g r _ _ hg hb hr =>
    have hblank := Lexeme.not_isBlank hw
    obtain ⟨c, w, rfl⟩ := List.exists_cons_of_ne_nil hw.1
    have hc : isBlank c = false := hblank c List.mem_cons_self
    have hstart : trimStart (g ++ (c :: w ++ r)) = c :: w ++ r := by
      rw [trimStart_append hg]
      simp [trimStart, hc]
    refine ⟨trimEnd r, ?_⟩
    rw [Lexeme.text, trim, hstart, trimEnd, dropEndWhile_word_append hw.1 hblank]
    rfl

theorem branches?_of_spaced {onTrue onFalse : Status} {t r : List Char} {ys : List Lexeme}
    (ht : Spells "THEN" t) (hys : WritesBranches onTrue onFalse ys) (hr : Spaced true ys r) :
    branches? (t ++ r) = some (onTrue, onFalse) := by
  cases hys with
  | whole hv hf hw =>
    have hproper := proper_of_spells hf (by decide) (by decide)
    obtain ⟨s, hs, hspaced⟩ := branch?_of_spaced ht hv hr
    obtain ⟨q, hq⟩ := trim_of_spaced_word hproper hspaced
    have hne : trim s ≠ [] := by simp [hq, hproper.1]
    obtain ⟨s', hs', hspaced'⟩ := afterBlanks?_of_spaced hspaced hproper
    obtain ⟨q, hq, hend⟩ := branch?_of_spaced hf hw hspaced'
    simp [branches?, hs, hne, hs', hq, trim_of_spaced_nil hend]
  | short hv =>
    obtain ⟨s, hs, hend⟩ := branch?_of_spaced ht hv hr
    simp [branches?, hs, trim_of_spaced_nil hend]

theorem branches?_eq_none {before : Option Char} {s : List Char} (hb : isOpenSide before = true)
    (h : word "THEN" before s = 0) : branches? s = none := by
  have hbranch : branch? "THEN" s = none := by
    cases hr : afterLetters? ['T', 'H', 'E', 'N'] s with
    | none => simp [branch?, hr]
    | some r =>
      have hside : isOpenSide r.head? = false := by
        by_contra hside
        simp only [Bool.not_eq_false] at hside
        exact absurd h (by simp [word, hb, hr, hside])
      cases r with
      | nil => simp [isOpenSide] at hside
      | cons c r =>
        have hc : isBlank c = false := by
          rw [Bool.eq_false_iff]
          intro hblank
          have hword := isWordChar_of_isEdge (isEdge_of_isBlank hblank)
          simp [isOpenSide, hword] at hside
        simp [branch?, hr, afterBlanks?, hc]
  simp [branches?, hbranch]

theorem splitFrom?_of_cutFrom? {before : Option Char} {s a t : List Char} {p : Status × Status}
    (h : cutFrom? (word "THEN") before s = some (a, t)) (ht : branches? t = some p) :
    splitFrom? before s = some (a, p) := by
  induction s generalizing before a with
  | nil => simp [cutFrom?] at h
  | cons c s ih =>
    by_cases hz : word "THEN" before (c :: s) = 0
    · rw [cutFrom?, if_pos hz] at h
      obtain ⟨⟨a', t'⟩, hcut, heq⟩ := Option.map_eq_some_iff.mp h
      simp only [Prod.mk.injEq] at heq
      obtain ⟨rfl, rfl⟩ := heq
      have hrest := ih hcut
      by_cases hb : isOpenSide before = true
      · simp [splitFrom?, branches?_eq_none hb hz, hrest]
      · simp [splitFrom?, hb, hrest]
    · rw [cutFrom?, if_neg hz] at h
      simp only [Option.some.injEq, Prod.mk.injEq] at h
      obtain ⟨rfl, rfl⟩ := h
      have hb : isOpenSide before = true := by
        by_contra hb
        exact hz (by simp [word, hb])
      simp [splitFrom?, hb, ht]

theorem occursIn_keyword {symbols : List (Symbol Id)} {xs : List Lexeme} {s : List Char}
    (hx : List.Forall₂ Shows symbols xs) (hs : Spaced false xs s) : keyword.occursIn s = false := by
  have hmiss : ∀ {k : String} {c : Char} {cs : List Char}, k.toList = c :: cs → c.isUpper = true →
      c ∉ ['A', 'O', 'N', 'P'] → Misses (word k) none s [] := fun hk hu hne =>
    hs.misses (blind_word hk hu) (fun w hw => avoids_word hk (forall₂_bars hx hu hne w hw)) (.inr rfl)
  have hif : Misses (word "IF") none s [] := hmiss rfl (by decide) (by decide)
  have hthen : Misses (word "THEN") none s [] := hmiss rfl (by decide) (by decide)
  have helse : Misses (word "ELSE") none s [] := hmiss rfl (by decide) (by decide)
  exact occursIn_eq_false_iff.mpr ((hif.orElse hthen).orElse helse)

theorem ofChars?_of_spaced {i t r : List Char} {xs ys : List Lexeme} {symbols : List (Symbol Id)}
    {onTrue onFalse : Status} (hi : Spells "IF" i) (hx : List.Forall₂ Shows symbols xs) (ht : Spells "THEN" t)
    (hys : WritesBranches onTrue onFalse ys) (hr : Spaced true (xs ++ .word t :: ys) r) :
    ∃ a, ofChars? (i ++ r) = some ⟨String.ofList a, onTrue, onFalse⟩ ∧ Spaced false xs a := by
  have hne : t ≠ [] := (proper_of_spells (w := t) ht (by decide) (by decide)).1
  have havoid : ∀ w, .word w ∈ xs → Avoids (word "THEN") w := fun w hw =>
    avoids_word rfl (forall₂_bars hx (by decide) (by decide) w hw)
  obtain ⟨a, q, hcut, ha, hq⟩ := hr.cut (blind_word rfl (by decide)) havoid (takes_word ht) hne
  have hsplit := splitFrom?_of_cutFrom? hcut (branches?_of_spaced ht hys hq)
  have hspaced := ha.trim (forall₂_proper hx)
  have hletters : afterLetters? ['I', 'F'] (i ++ r) = some r := afterLetters?_upper hi r
  have hside : isOpenSide r.head? = true := isOpenSide_of_all_isEdge hr.atEdge
  refine ⟨trim a, ?_, hspaced⟩
  simp [ofChars?, hletters, hside, hsplit, occursIn_keyword hx hspaced]

end Rule

namespace Condition

open Boolean Capability Text

theorem ofLiteral?_of_spaced {i s : List Char} {xs : List Lexeme} {b : Bool} (hi : Spells "IF" i)
    (hs : Spaced b (.word i :: xs) s) : Status.ofLiteral? s = none := by
  obtain ⟨r, hr⟩ := Rule.trim_of_spaced_word (proper_of_spells hi (by decide) (by decide)) hs
  have hup : upper (trim s) = 'I' :: 'F' :: upper r := by
    rw [hr, upper, List.map_append]
    exact congrArg (· ++ upper r) hi
  simp [Status.ofLiteral?, hup]

theorem classify_of_shows {i t : List Char} {xs ys : List Lexeme} {symbols : List (Symbol Id)}
    {onTrue onFalse : Status} {text : String} (hi : Spells "IF" i) (hx : List.Forall₂ Shows symbols xs)
    (ht : Spells "THEN" t) (hys : WritesBranches onTrue onFalse ys)
    (hs : Spaced false (.word i :: (xs ++ .word t :: ys)) text.toList) :
    ∃ a, classify text = .rule ⟨String.ofList a, onTrue, onFalse⟩ ∧
      Spaced false (xs ++ List.replicate (depthAfter 0 symbols) .closing) a := by
  have hproper : (Lexeme.word i).Proper := proper_of_spells hi (by decide) (by decide)
  have htrim := hs.trim (List.forall_mem_cons.mpr ⟨hproper, proper_of_then hx ht hys⟩)
  obtain ⟨r, hr, hspaced⟩ := repairChars_of_spaced hi hx ht hys htrim
  rw [← List.append_assoc] at hspaced
  obtain ⟨a, ha, hantecedent⟩ := Rule.ofChars?_of_spaced hi (shows_closed hx) ht hys hspaced
  obtain ⟨q, hq⟩ := Rule.trim_of_spaced_word hproper hs
  have hne : trim text.toList ≠ [] := by simp [hq, hproper.1]
  refine ⟨a, ?_, hantecedent⟩
  simp [classify, hne, ofLiteral?_of_spaced hi htrim, hr, ha]

theorem classify_of_spaced {xs : List Lexeme} {e : Formula Id} {onTrue onFalse : Status} {text : String}
    (h : WritesRule e onTrue onFalse xs) (hs : Spaced false xs text.toList) :
    ∃ a zs, classify text = .rule ⟨String.ofList a, onTrue, onFalse⟩ ∧ WritesFormula e zs ∧
      Spaced false zs a := by
  cases h with
  | @intro i t zs ys hi hzs ht hys =>
    obtain ⟨symbols, hd, hx⟩ := hzs
    obtain ⟨a, ha, hspaced⟩ := classify_of_shows hi hx ht hys hs
    rw [hd.depthAfter 0, List.replicate_zero, List.append_nil] at hspaced
    exact ⟨a, zs, ha, ⟨symbols, hd, hx⟩, hspaced⟩

end Condition

end Applicability
