import Applicability.Proofs.Condition.Written
import Applicability.Proofs.Text.Replacing

namespace Applicability.Condition

open Boolean Capability Text Pattern

def Glues (p : Pattern) : Prop :=
  ∀ before s, p before s ≠ 0 → ∃ l r, s = l ++ '(' :: r ∧ p before s = l.length + 1 ∧ l ≠ [] ∧
    ∀ c ∈ l, isEdge c = false

theorem glues_wordAtParen {keyword : String} (hne : keyword.length ≠ 0)
    (hk : ∀ k ∈ keyword.toList, k.isUpper = true) : Glues (wordAtParen keyword) := by
  intro before s h
  unfold wordAtParen at h ⊢
  split at h
  · split at h
    · rename_i _ r hr
      obtain ⟨l, rfl, hlen, hl⟩ := afterLetters?_eq_some hr
      have hlen' : l.length = keyword.length := by simpa [String.length_toList] using hlen
      refine ⟨l, r, rfl, by simp_all, ?_, ?_⟩
      · rintro rfl
        exact hne hlen'.symm
      · intro c hc
        obtain ⟨k, hkm, hkc⟩ := hl c hc
        rw [Bool.eq_false_iff]
        intro he
        rw [isLetter_eq_false_of_isEdge (hk k hkm) he] at hkc
        exact absurd hkc (by decide)
    · exact absurd rfl h
  · exact absurd rfl h

theorem Glues.orElse {p q : Pattern} (hp : Glues p) (hq : Glues q) : Glues (p.orElse q) := by
  intro before s h
  unfold Pattern.orElse at h ⊢
  cases hz : p before s with
  | zero =>
    simp only [hz] at h ⊢
    exact hq before s h
  | succ n =>
    simpa [hz] using hp before s (by simp [hz])

theorem glues_gluedOperator : Glues gluedOperator :=
  ((glues_wordAtParen (by decide) (by decide)).orElse
    (glues_wordAtParen (by decide) (by decide))).orElse (glues_wordAtParen (by decide) (by decide))

theorem Glues.blind {p : Pattern} (hp : Glues p) : Blind p := by
  intro c hc before s
  by_contra h
  obtain ⟨l, r, hl, -, hne, hedge⟩ := hp before (c :: s) h
  cases l with
  | nil => exact hne rfl
  | cons d l =>
    obtain rfl : c = d := (List.cons.inj hl).1
    exact absurd hc (by simp [hedge c List.mem_cons_self])

def opened (_ : Option Char) (text _ : List Char) : List Char :=
  text.dropLast ++ [' ', '(']

theorem Glues.replaceFrom_word {p : Pattern} (hp : Glues p) {w s : List Char}
    (hw : ∀ c ∈ w, isEdge c = false) (hs : AtEdge s) (before : Option Char) :
    ∃ g, (∀ c ∈ g, isBlank c = true) ∧
      replaceFrom p opened before (w ++ s) = w ++ (g ++ replaceFrom p opened (lastOf before w) s) := by
  induction w generalizing before with
  | nil => exact ⟨[], by simp, rfl⟩
  | cons c w ih =>
    by_cases h : p before (c :: (w ++ s)) = 0
    · obtain ⟨g, hg, hrest⟩ := ih (List.forall_mem_cons.mp hw).2 (some c)
      refine ⟨g, hg, ?_⟩
      have hskip := replaceFrom_misses (f := opened) (w := [c]) (s := w ++ s) ⟨h, trivial⟩
      simpa [hrest] using hskip
    · obtain ⟨l, r, hl, hlen, -, hedge⟩ := hp before _ h
      have hparen : AtEdge ('(' :: r) := atEdge_cons.mpr (by decide)
      rw [← List.cons_append] at hl hlen
      obtain ⟨rfl, rfl⟩ := append_inj_of_atEdge hl hw hedge hs hparen
      refine ⟨[' '], by decide, ?_⟩
      have hglued : p before (((c :: w) ++ ['(']) ++ r) = ((c :: w) ++ ['(']).length := by simpa using hlen
      have hmatch := replaceFrom_match (f := opened) (by simp) hglued
      have hmiss := replaceFrom_misses (f := opened)
        (misses_of_isEdge hp.blind (g := ['(']) (by decide) (lastOf before (c :: w)) r)
      rw [List.append_assoc] at hmatch
      simp only [List.singleton_append] at hmatch hmiss
      rw [hmatch, hmiss, opened, List.dropLast_concat, lastOf_append]
      simp

theorem spaced_replaceFrom_opened {p : Pattern} (hp : Glues p) {b : Bool} {xs : List Lexeme}
    {s : List Char} (hpr : ∀ x ∈ xs, x.Proper) (h : Spaced b xs s) (before : Option Char) :
    Spaced b xs (replaceFrom p opened before s) := by
  induction h generalizing before with
  | @nil b g hg =>
    have hs := replaceFrom_misses (f := opened)
      (misses_of_isEdge hp.blind (fun c hc => isEdge_of_isBlank (hg c hc)) before [])
    rw [List.append_nil] at hs
    rw [hs]
    exact .nil (by simpa [Pattern.replaceFrom, piecesFrom] using hg)
  | @cons b g s x xs hg hb hs ih =>
    obtain ⟨hx, hxs⟩ := List.forall_mem_cons.mp hpr
    rw [replaceFrom_misses (misses_of_isEdge hp.blind (fun c hc => isEdge_of_isBlank (hg c hc)) _ _)]
    cases x with
    | word w =>
      obtain ⟨g', hg', hw⟩ := hp.replaceFrom_word hx.2 hs.atEdge (lastOf before g)
      rw [Lexeme.text, hw]
      exact .cons hg hb ((ih hxs _).blanks_append hg' .inl)
    | opening | closing =>
      rw [replaceFrom_misses (misses_of_not_isWord hp.blind rfl _ _)]
      exact .cons hg hb (ih hxs _)

theorem closeBeforeThen_of_spaced {i t r : List Char} {xs ys : List Lexeme} {symbols : List (Symbol Id)}
    (hi : Spells "IF" i) (ht : Spells "THEN" t) (hx : List.Forall₂ Shows symbols xs)
    (hr : Spaced true (xs ++ .word t :: ys) r) :
    ∃ q, closeBeforeThen (i ++ r) = i ++ q ∧
      Spaced true (xs ++ (List.replicate (depthAfter 0 symbols) .closing ++ .word t :: ys)) q := by
  have hproper : (Lexeme.word i).Proper := proper_of_spells hi (by decide) (by decide)
  have hthen : (Lexeme.word t).Proper := proper_of_spells ht (by decide) (by decide)
  have havoid : ∀ w, .word w ∈ xs → Avoids (word "THEN") w := fun w hw =>
    avoids_word rfl (forall₂_bars hx (by decide) (by decide) w hw)
  have hskip : Misses (word "THEN") none i r := misses_word rfl (hi.bars rfl (by decide) (by decide)) none r
  obtain ⟨a, q, -, hcut, ha, hq, -⟩ : ∃ a q, r = a ++ (t ++ q) ∧
      cutFrom? (word "THEN") (lastOf none i) r = some (a, t ++ q) ∧ Spaced true xs a ∧ Spaced true ys q ∧
        (lastOf (lastOf none i) a).all isEdge = true :=
    hr.cutFrom (blind_word rfl (by decide)) havoid (takes_word ht) hthen.1 (.inl rfl)
  have htrim := ha.trimEnd (forall₂_proper hx)
  have hend : trimEnd (i ++ a) = i ++ trimEnd a :=
    dropEndWhile_word_append hproper.1 (Lexeme.not_isBlank hproper) a
  have hunclosed : unclosed (i ++ trimEnd a) 0 = depthAfter 0 symbols := by
    rw [unclosed_append (ne_paren_of_not_isEdge hproper.2), unclosed_eq_depthAfter htrim hx]
  have hcut' : (word "THEN").cut? (i ++ r) = some (i ++ a, t ++ q) := by
    rw [cut?, cutFrom?_misses hskip, hcut]
    rfl
  simp only [closeBeforeThen, hcut', hend, hunclosed]
  cases depthAfter 0 symbols with
  | zero => exact ⟨r, rfl, hr⟩
  | succ n =>
    refine ⟨trimEnd a ++ (List.replicate (n + 1) ')' ++ ' ' :: (t ++ q)), by simp, ?_⟩
    have hrest : Spaced false (.word t :: ys) (' ' :: (t ++ q)) :=
      .cons (g := [' ']) (by decide) (by simp) hq
    exact htrim.append (hrest.replicate_paren rfl rfl n)

theorem isLower_of_isStop {c : Char} (h : isStop c = true) : c.isLower = false := by
  simp only [isStop, Bool.or_eq_true, beq_iff_eq] at h
  rcases h with rfl | rfl <;> decide

theorem tidy_of_spaced {i v s : List Char} {xs : List Lexeme} {b : Bool} (hi : (Lexeme.word i).Proper)
    (hstop : ∀ c ∈ i, isStop c = false) (hxs : ∀ x ∈ xs ++ [.word v], x.Proper)
    (hv : ∀ c ∈ v, isStop c = false) (hs : Spaced b (.word i :: (xs ++ [.word v])) s) :
    ∃ r, tidy s = i ++ r ∧ Spaced true (xs ++ [.word v]) r := by
  cases hs with
  | @cons _ g r _ _ hg hb hr =>
    have hblank := Lexeme.not_isBlank hi
    have hcollapse : collapse (g ++ (i ++ r)) = i ++ (joint r ++ collapse r) := by
      rw [collapse_of_blanks hg, collapse_append hi.1 hblank]
    have hvne : v ≠ [] := (hxs (.word v) (by simp)).1
    obtain ⟨u, c, rfl⟩ : ∃ u c, v = u ++ [c] := ⟨_, _, (List.dropLast_append_getLast hvne).symm⟩
    have hr₁ := hr.joint_collapse hxs
    have hr₂ := hr₁.dropEndWhile (p := isStop) (x := .word (u ++ [c])) rfl (hv c (by simp))
    refine ⟨_, ?_, hr₂.trimEnd hxs⟩
    rw [tidy, Lexeme.text, hcollapse, dropEndWhile_word_append hi.1 hstop, trimEnd,
      dropEndWhile_word_append hi.1 hblank]
    rfl

theorem SpellsStatus.isStop {status : Status} {v : List Char} (h : SpellsStatus status v) :
    ∀ c ∈ v, isStop c = false :=
  h.spells.eq_false (fun _ => isLower_of_isStop) (by cases status <;> decide)

theorem repairChars_of_spaced {i t s : List Char} {xs ys : List Lexeme} {symbols : List (Symbol Id)} {b : Bool}
    {onTrue onFalse : Status} (hi : Spells "IF" i) (hx : List.Forall₂ Shows symbols xs) (ht : Spells "THEN" t)
    (hys : WritesBranches onTrue onFalse ys) (hs : Spaced b (.word i :: (xs ++ .word t :: ys)) s) :
    ∃ r, repairChars s = i ++ r ∧
      Spaced true (xs ++ (List.replicate (depthAfter 0 symbols) .closing ++ .word t :: ys)) r := by
  obtain ⟨zs, v, status, rfl, hv⟩ := hys.exists_last
  have hproper : (Lexeme.word i).Proper := proper_of_spells hi (by decide) (by decide)
  have hrest := proper_of_then hx ht hys
  have hassoc : xs ++ .word t :: (zs ++ [.word v]) = (xs ++ .word t :: zs) ++ [.word v] := by simp
  rw [hassoc] at hs hrest
  obtain ⟨r, htidy, hr⟩ := tidy_of_spaced hproper (hi.eq_false (fun _ => isLower_of_isStop) (by decide))
    hrest hv.isStop hs
  obtain ⟨g, hg, hopened⟩ := glues_gluedOperator.replaceFrom_word hproper.2 hr.atEdge none
  have hr' := (spaced_replaceFrom_opened glues_gluedOperator hrest hr (lastOf none i)).blanks_append hg .inl
  rw [← hassoc] at hr'
  obtain ⟨q, hq, hspaced⟩ := closeBeforeThen_of_spaced hi ht hx hr'
  refine ⟨q, ?_, hspaced⟩
  rw [repairChars, htidy]
  change closeBeforeThen (replaceFrom gluedOperator opened none (i ++ r)) = _
  rw [hopened, hq]

end Applicability.Condition
