import Applicability.Proofs.Condition.Repair
import Applicability.Proofs.Text.Cased
import Applicability.Proofs.Text.Collapsed

namespace Applicability.Condition

open Text Pattern

structure Local (p : Pattern) : Prop where
  side : ∀ b b' s, isOpenSide b = isOpenSide b' → p b s = p b' s
  shut : ∀ b l r r', p b (l ++ '(' :: r) = p b (l ++ '(' :: r')

theorem wordAtParen_eq_succ_iff {keyword : String} {b : Option Char} {s : List Char} {n : Nat} :
    wordAtParen keyword b s = n + 1 ↔
      keyword.length = n ∧ isOpenSide b = true ∧ ∃ w r, Cased keyword.toList w ∧ s = w ++ '(' :: r := by
  unfold wordAtParen
  constructor
  · intro h
    split at h
    · rename_i hb
      split at h
      · rename_i _ r hr
        obtain ⟨w, hw, hs⟩ := afterLetters?_eq_some_iff.mp hr
        exact ⟨Nat.succ.inj h, hb, w, r, hw, hs⟩
      · cases h
    · cases h
  · rintro ⟨rfl, hb, w, r, hw, rfl⟩
    simp only [hb, if_true, afterLetters?_eq_some_iff.mpr ⟨w, hw, rfl⟩]

theorem local_wordAtParen {keyword : String} (hk : ∀ k ∈ keyword.toList, k.isUpper = true) :
    Local (wordAtParen keyword) := by
  constructor
  · intro b b' s hb
    simp only [wordAtParen, hb]
  · intro b l r r'
    have hmove : ∀ r r' n, wordAtParen keyword b (l ++ '(' :: r) = n + 1 →
        wordAtParen keyword b (l ++ '(' :: r') = n + 1 := by
      intro r r' n h
      obtain ⟨hn, hb, w, q, hw, heq⟩ := wordAtParen_eq_succ_iff.mp h
      obtain ⟨x, rfl⟩ := exists_eq_append_of_atEdge heq (atEdge_cons.mpr (by decide)) (hw.not_isEdge hk)
      rw [List.append_assoc] at heq ⊢
      apply wordAtParen_eq_succ_iff.mpr
      cases x with
      | nil => exact ⟨hn, hb, w, r', hw, rfl⟩
      | cons c x =>
        obtain ⟨rfl, -⟩ := List.cons.inj (List.append_cancel_left heq)
        exact ⟨hn, hb, w, x ++ '(' :: r', hw, rfl⟩
    cases h : wordAtParen keyword b (l ++ '(' :: r) with
    | succ n => exact (hmove r r' n h).symm
    | zero =>
      cases h' : wordAtParen keyword b (l ++ '(' :: r') with
      | zero => rfl
      | succ n =>
        rw [hmove r' r n h'] at h
        cases h

theorem Local.orElse {p q : Pattern} (hp : Local p) (hq : Local q) : Local (p.orElse q) := by
  constructor
  · intro b b' s hb
    simp only [Pattern.orElse, hp.side b b' s hb, hq.side b b' s hb]
  · intro b l r r'
    simp only [Pattern.orElse, hp.shut b l r r', hq.shut b l r r']

theorem local_gluedOperator : Local gluedOperator :=
  ((local_wordAtParen (by decide)).orElse (local_wordAtParen (by decide))).orElse
    (local_wordAtParen (by decide))

variable {p : Pattern} {b : Option Char} {s : List Char}

theorem Glues.induction (hp : Glues p) {motive : Option Char → List Char → Prop} (nil : ∀ b, motive b [])
    (plain : ∀ b c s, p b (c :: s) = 0 → motive (some c) s → motive b (c :: s))
    (glued : ∀ b l s, l ≠ [] → (∀ c ∈ l, isEdge c = false) → p b (l ++ '(' :: s) = l.length + 1 →
      motive (some '(') s → motive b (l ++ '(' :: s)) (b : Option Char) (s : List Char) : motive b s := by
  induction hn : s.length using Nat.strongRecOn generalizing b s with
  | ind n ih =>
    by_cases hz : p b s = 0
    · cases s with
      | nil => exact nil b
      | cons c s =>
        apply plain b c s hz
        rw [List.length_cons] at hn
        exact ih s.length (by omega) (some c) s rfl
    · obtain ⟨l, r, rfl, hlen, hne, hl⟩ := hp b s hz
      apply glued b l r hne hl hlen
      rw [List.length_append, List.length_cons] at hn
      exact ih r.length (by omega) (some '(') r rfl

theorem Local.misses_of_side (hp : Local p) {b' : Option Char} {t : List Char}
    (hb : isOpenSide b = isOpenSide b') (h : Misses p b s t) : Misses p b' s t := by
  cases s with
  | nil => trivial
  | cons c s => exact ⟨(hp.side b b' _ hb).symm.trans h.1, h.2⟩

theorem replaceFrom_glued {l : List Char} (h : p b (l ++ '(' :: s) = l.length + 1) :
    replaceFrom p opened b (l ++ '(' :: s) = l ++ ' ' :: '(' :: replaceFrom p opened (some '(') s := by
  have hassoc : l ++ '(' :: s = (l ++ ['(']) ++ s := by simp
  rw [hassoc] at h ⊢
  rw [replaceFrom_match (by simp) (by simpa using h), opened, List.dropLast_concat, lastOf_append]
  simp

theorem Glues.head_replaceFrom (hp : Glues p) (b : Option Char) (s : List Char) :
    (replaceFrom p opened b s).head? = s.head? := by
  induction b, s using hp.induction with
  | nil b => rfl
  | plain b c s hz _ => rw [replaceFrom_cons hz, List.head?_cons, List.head?_cons]
  | glued b l s hne hl hlen _ =>
    obtain ⟨c, l, rfl⟩ := List.exists_cons_of_ne_nil hne
    rw [replaceFrom_glued hlen]
    rfl

theorem Glues.filter_replaceFrom (hp : Glues p) {q : Char → Bool} (hq : q ' ' = false) (b : Option Char)
    (s : List Char) : (replaceFrom p opened b s).filter q = s.filter q := by
  induction b, s using hp.induction with
  | nil b => rfl
  | plain b c s hz ih => rw [replaceFrom_cons hz, List.filter_cons, List.filter_cons, ih]
  | glued b l s hne hl hlen ih => simp [replaceFrom_glued hlen, List.filter_append, List.filter_cons, hq, ih]

theorem Glues.exists_of_replaceFrom (hp : Glues p) {w r : List Char} (hw : ∀ c ∈ w, isEdge c = false)
    (h : replaceFrom p opened b s = w ++ '(' :: r) : ∃ r', s = w ++ '(' :: r' := by
  induction b, s using hp.induction generalizing w with
  | nil b =>
    have hnil : [] = w ++ '(' :: r := h
    simp at hnil
  | plain b c s hz ih =>
    rw [replaceFrom_cons hz] at h
    cases w with
    | nil =>
      obtain ⟨rfl, -⟩ := List.cons.inj h
      exact ⟨s, rfl⟩
    | cons d w =>
      rw [List.cons_append] at h
      obtain ⟨rfl, htail⟩ := List.cons.inj h
      obtain ⟨r', rfl⟩ := ih (List.forall_mem_cons.mp hw).2 htail
      exact ⟨r', rfl⟩
  | glued b l s hne hl hlen ih =>
    rw [replaceFrom_glued hlen] at h
    obtain ⟨-, heq⟩ := append_inj_of_atEdge h hl hw (atEdge_cons.mpr (by decide)) (atEdge_cons.mpr (by decide))
    exact absurd (List.cons.inj heq).1 (by decide)

theorem Glues.misses_of_atEdge (hp : Glues p) (hlocal : Local p) {t t' : List Char} (h : Misses p b s t)
    (ht : AtEdge t') (hparen : t'.head? ≠ some '(') : Misses p b s t' := by
  induction s generalizing b with
  | nil => trivial
  | cons c s ih =>
    obtain ⟨hzero, hrest⟩ := h
    refine ⟨?_, ih hrest⟩
    by_contra hmatch
    obtain ⟨l, r, heq, -, -, hl⟩ := hp b _ hmatch
    rw [← List.cons_append] at heq
    obtain ⟨x, hx⟩ := exists_eq_append_of_atEdge heq ht hl
    rw [hx, List.append_assoc] at heq
    have hrest := List.append_cancel_left heq
    cases x with
    | nil =>
      rw [List.nil_append] at hrest
      exact hparen (by rw [hrest, List.head?_cons])
    | cons d x =>
      obtain ⟨rfl, -⟩ := List.cons.inj hrest
      rw [← List.cons_append, hx, List.append_assoc, List.cons_append] at hzero hmatch
      exact hmatch ((hlocal.shut b l _ _).trans hzero)

theorem Glues.misses_replaceFrom (hp : Glues p) (hlocal : Local p) (b : Option Char) (s : List Char) :
    Misses p b (replaceFrom p opened b s) [] := by
  induction b, s using hp.induction with
  | nil b => trivial
  | plain b c s hz ih =>
    rw [replaceFrom_cons hz]
    refine ⟨?_, ih⟩
    rw [List.append_nil]
    by_contra hmatch
    obtain ⟨l, r, heq, -, hne, hl⟩ := hp b _ hmatch
    rw [← replaceFrom_cons hz] at heq
    obtain ⟨r', hr'⟩ := hp.exists_of_replaceFrom hl heq
    rw [← replaceFrom_cons (f := opened) hz, heq, hlocal.shut b l r r', ← hr'] at hmatch
    exact hmatch hz
  | glued b l s hne hl hlen ih =>
    rw [replaceFrom_glued hlen]
    apply misses_append.mpr
    constructor
    · -- Between the letters and the parenthesis there is a space now.
      have hnone : ∀ b (l' : List Char), (∀ c ∈ l', isEdge c = false) →
          ∀ t, p b (l' ++ ' ' :: t) = 0 := by
        intro b l' hl' t
        by_contra hmatch
        obtain ⟨m, r, heq, -, -, hm⟩ := hp b _ hmatch
        obtain ⟨-, hr⟩ := append_inj_of_atEdge heq hl' hm (atEdge_cons.mpr (by decide)) (atEdge_cons.mpr (by decide))
        exact absurd (List.cons.inj hr).1 (by decide)
      clear hlen hne
      induction l generalizing b with
      | nil => trivial
      | cons c l ihl => exact ⟨hnone b (c :: l) hl _, ihl (some c) (List.forall_mem_cons.mp hl).2⟩
    · exact ⟨hp.blind ' ' (by decide) _ _, hp.blind '(' (by decide) _ _, ih⟩

theorem Glues.misses_stray_replaceFrom (hp : Glues p) {b' : Option Char} (hb : b'.all isBlank = b.all isBlank)
    (h : Misses stray b s []) : Misses stray b' (replaceFrom p opened b s) [] := by
  induction b, s using hp.induction generalizing b' with
  | nil b => trivial
  | plain b c s hz ih =>
    rw [replaceFrom_cons hz]
    refine ⟨?_, ih rfl h.2⟩
    by_cases hc : isBlank c = true
    · have hhead := hp.head_replaceFrom (some c) s
      have hzero := (stray_eq_zero_iff hc).mp h.1
      rw [List.append_nil] at hzero ⊢
      apply (stray_eq_zero_iff hc).mpr
      rwa [hb, hhead]
    · exact stray_of_not_isBlank (by simpa using hc) b' _
  | glued b l s hne hl hlen ih =>
    rw [replaceFrom_glued hlen]
    obtain ⟨c, l, rfl⟩ := List.exists_cons_of_ne_nil hne
    have hblank : ∀ d ∈ c :: l, isBlank d = false := fun d hd => not_isBlank_of_not_isEdge (hl d hd)
    have hlast : (lastOf b' (c :: l)).all isBlank = false := by
      obtain ⟨u, d, hu⟩ : ∃ u d, c :: l = u ++ [d] :=
        ⟨_, _, (List.dropLast_append_getLast (List.cons_ne_nil c l)).symm⟩
      have hd := hblank d (by simp [hu])
      simp [hu, lastOf_append, hd]
    obtain ⟨-, hparen⟩ := misses_append.mp h
    apply misses_append.mpr
    constructor
    · exact misses_of_forall fun d hd => stray_of_not_isBlank (hblank d hd)
    · refine ⟨(stray_eq_zero_iff (by decide)).mpr ⟨rfl, hlast, rfl⟩, stray_of_not_isBlank (by decide) _ _, ?_⟩
      exact ih rfl hparen.2

end Applicability.Condition
