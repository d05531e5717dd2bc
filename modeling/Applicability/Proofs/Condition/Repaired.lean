import Applicability.Proofs.Condition.Gluing

namespace Applicability.Condition

open Text Pattern

def Closed (s : List Char) : Prop :=
  ∀ a r, (word "THEN").cut? s = some (a, r) → unclosed (trimEnd a) 0 = 0

structure Repaired (s : List Char) : Prop where
  collapsed : Collapsed s
  unglued : Misses gluedOperator none s []
  closed : Closed s

theorem Repaired.trim_eq {s : List Char} (h : Repaired s) : trim s = s :=
  h.collapsed.trim_eq

theorem Repaired.last {s : List Char} (h : Repaired s) : s.getLast?.any isBlank = false :=
  h.collapsed.last

def EndsInStop (s : List Char) : Prop :=
  s.getLast?.any isStop = true

instance (s : List Char) : Decidable (EndsInStop s) :=
  inferInstanceAs (Decidable (_ = true))

variable {s : List Char}

section Tidying

theorem collapse_trim (s : List Char) : collapse (trim s) = collapse s := by
  obtain ⟨g, hg, hblank⟩ := dropEndWhile_spec isBlank (trimStart s)
  have hstart : collapse (trimStart s) = collapse s := by
    conv_rhs => rw [← List.takeWhile_append_dropWhile (p := isBlank) (l := s)]
    exact (collapse_of_blanks (fun c hc => List.mem_takeWhile_imp hc) _).symm
  rw [← hstart]
  conv_rhs => rw [hg]
  rw [collapse, collapse, words_append_blanks hblank]
  rfl

theorem collapsed_tidy (s : List Char) : Collapsed (tidy s) := by
  obtain ⟨g, hg, -⟩ := dropEndWhile_spec isStop (collapse s)
  have h := collapsed_collapse s
  rw [hg] at h
  exact h.trimEnd_of_append

theorem tidy_of_collapsed (h : Collapsed s) (hs : ¬EndsInStop s) : tidy s = s := by
  rw [EndsInStop, Bool.not_eq_true] at hs
  rw [tidy, h.collapse_eq, dropEndWhile_of_last hs, trimEnd, dropEndWhile_of_last h.last]

theorem length_filter_tidy (h : Collapsed s) (hs : EndsInStop s) :
    ((tidy s).filter isStop).length < (s.filter isStop).length := by
  obtain ⟨g, hg, hstop⟩ := dropEndWhile_spec isStop s
  obtain ⟨g', hg', -⟩ := dropEndWhile_spec isBlank (dropEndWhile isStop s)
  have hne : g ≠ [] := by
    rintro rfl
    rw [List.append_nil] at hg
    have hlast := last_dropEndWhile isStop s
    rw [← hg] at hlast
    rw [EndsInStop, hlast] at hs
    cases hs
  have htidy : tidy s = dropEndWhile isBlank (dropEndWhile isStop s) := by
    rw [tidy, h.collapse_eq, trimEnd]
  have hlen : (s.filter isStop).length =
      ((tidy s).filter isStop).length + (g'.filter isStop).length + g.length := by
    conv_lhs => rw [hg, hg']
    rw [htidy, List.filter_append, List.filter_append, List.length_append, List.length_append,
      List.filter_eq_self.mpr hstop]
  have hpos := List.length_pos_iff.mpr hne
  omega

end Tidying

section Closing

theorem unclosed_concat (s t : List Char) (n : Nat) : unclosed (s ++ t) n = unclosed t (unclosed s n) := by
  induction s generalizing n with
  | nil => rfl
  | cons c s ih =>
    simp only [List.cons_append, unclosed]
    split
    · exact ih _
    · split
      · exact ih _
      · exact ih _

theorem unclosed_replicate (n : Nat) : unclosed (List.replicate n ')') n = 0 := by
  induction n with
  | zero => rfl
  | succ n ih => simpa [List.replicate_succ, unclosed] using ih

def padded (n : Nat) (a r : List Char) : List Char :=
  a ++ (List.replicate (n + 1) ')' ++ ' ' :: r)

theorem closeBeforeThen_cases (s : List Char) :
    (closeBeforeThen s = s ∧ Closed s) ∨
      ∃ a r n, (word "THEN").cut? s = some (a, r) ∧ unclosed (trimEnd a) 0 = n + 1 ∧
        closeBeforeThen s = padded n (trimEnd a) r := by
  unfold closeBeforeThen Closed padded
  cases hcut : (word "THEN").cut? s with
  | none => exact .inl ⟨rfl, by simp⟩
  | some cut =>
    obtain ⟨a, r⟩ := cut
    cases hn : unclosed (trimEnd a) 0 with
    | zero =>
      refine .inl ⟨by simp [hn], ?_⟩
      rintro a' r' heq
      cases heq
      exact hn
    | succ n => exact .inr ⟨a, r, n, rfl, hn, by simp [hn]⟩

theorem closeBeforeThen_of_closed (h : Closed s) : closeBeforeThen s = s := by
  rcases closeBeforeThen_cases s with ⟨heq, -⟩ | ⟨a, r, n, hcut, hn, -⟩
  · exact heq
  · rw [h a r hcut] at hn
    cases hn

theorem filter_closeBeforeThen {q : Char → Bool} (hblank : ∀ c, isBlank c = true → q c = false)
    (hparen : q ')' = false) (s : List Char) : (closeBeforeThen s).filter q = s.filter q := by
  rcases closeBeforeThen_cases s with ⟨heq, -⟩ | ⟨a, r, n, hcut, -, heq⟩
  · rw [heq]
  · obtain ⟨rfl, -⟩ := cutFrom?_eq_some_iff.mp hcut
    obtain ⟨g, hg, hgblank⟩ := dropEndWhile_spec isBlank a
    have hgap : g.filter q = [] := List.filter_eq_nil_iff.mpr fun c hc => by simp [hblank c (hgblank c hc)]
    have hspace : q ' ' = false := hblank ' ' (by decide)
    rw [heq, padded]
    conv_rhs => rw [hg]
    simp [trimEnd, List.filter_append, hgap, hparen, hspace]

structure CutsAtThen (s a g r : List Char) : Prop where
  eq : s = a ++ (g ++ r)
  last : a.getLast?.any isBlank = false
  blanks : ∀ c ∈ g, isBlank c = true
  misses : Misses (word "THEN") none a (g ++ r)
  side : isOpenSide (lastOf none (a ++ g)) = true
  takes : word "THEN" (some ' ') r ≠ 0

theorem cutsAtThen_of_cut {a r : List Char} (hcut : (word "THEN").cut? s = some (a, r)) :
    ∃ g, a = trimEnd a ++ g ∧ CutsAtThen s (trimEnd a) g r := by
  obtain ⟨rfl, -, hmiss, hmatch⟩ := cutFrom?_eq_some_iff.mp hcut
  obtain ⟨g, hg, hblank⟩ := dropEndWhile_spec isBlank a
  obtain ⟨hside, w, x, hw, rfl, hopen⟩ := (word_ne_zero_iff (by decide)).mp hmatch
  refine ⟨g, hg, ?_, last_dropEndWhile isBlank a, hblank, ?_, ?_, ?_⟩
  · conv_lhs => rw [hg]
    rw [List.append_assoc, trimEnd]
  · rw [hg] at hmiss
    exact (misses_append.mp hmiss).1
  · rwa [trimEnd, ← hg]
  · exact (word_ne_zero_iff (by decide)).mpr ⟨by decide, w, x, hw, rfl, hopen⟩

theorem isEdge_of_mem_replicate {n : Nat} : ∀ c ∈ List.replicate n ')', isEdge c = true := by
  intro c hc
  rw [List.eq_of_mem_replicate hc]
  decide

namespace CutsAtThen

variable {a g r : List Char}

theorem exists_keyword (h : CutsAtThen s a g r) :
    ∃ w x, Cased "THEN".toList w ∧ r = w ++ x ∧ isOpenSide x.head? = true :=
  ((word_ne_zero_iff (by decide)).mp h.takes).2

theorem ne_nil (h : CutsAtThen s a g r) : r ≠ [] := by
  obtain ⟨w, x, hw, rfl, -⟩ := h.exists_keyword
  have hlen := hw.length_eq
  rintro hnil
  obtain ⟨rfl, -⟩ := List.append_eq_nil_iff.mp hnil
  cases hlen

theorem head (h : CutsAtThen s a g r) : r.head?.any isBlank = false := by
  obtain ⟨w, x, hw, rfl, -⟩ := h.exists_keyword
  cases w with
  | nil => cases hw
  | cons c w =>
    simpa using not_isBlank_of_not_isEdge (hw.not_isEdge (by decide) c List.mem_cons_self)

theorem collapsed_padded (h : CutsAtThen s a g r) (hs : Collapsed s) (n : Nat) : Collapsed (padded n a r) := by
  rw [h.eq] at hs
  have hbefore := hs.of_append h.last
  have hafter := (misses_append.mp (misses_append.mp hs).2).2
  apply misses_append.mpr
  constructor
  · exact misses_stray_of_last hbefore h.last _
  apply misses_append.mpr
  constructor
  · apply misses_of_forall
    intro c hc
    rw [List.eq_of_mem_replicate hc]
    exact stray_of_not_isBlank (by decide)
  · rw [List.replicate_succ', lastOf_append]
    refine ⟨(stray_eq_zero_iff (by decide)).mpr ⟨rfl, rfl, ?_⟩, misses_stray_of_head hafter h.head _⟩
    cases r with
    | nil => exact absurd rfl h.ne_nil
    | cons c r => simpa using h.head

theorem unglued_padded (h : CutsAtThen s a g r) (hs : Misses gluedOperator none s []) (n : Nat) :
    Misses gluedOperator none (padded n a r) [] := by
  have hblind := glues_gluedOperator.blind
  rw [h.eq] at hs
  have hbefore := (misses_append.mp hs).1
  have hafter := (misses_append.mp (misses_append.mp hs).2).2
  rw [← lastOf_append] at hafter
  apply misses_append.mpr
  constructor
  · apply glues_gluedOperator.misses_of_atEdge local_gluedOperator hbefore
    · exact atEdge_cons.mpr (by decide)
    · simp [List.replicate_succ]
  apply misses_append.mpr
  constructor
  · exact misses_of_isEdge hblind isEdge_of_mem_replicate _ _
  · refine ⟨hblind ' ' (by decide) _ _, ?_⟩
    exact local_gluedOperator.misses_of_side (h.side.trans (by decide)) hafter

theorem cut_padded (h : CutsAtThen s a g r) (n : Nat) :
    (word "THEN").cut? (padded n a r) = some (a ++ List.replicate (n + 1) ')' ++ [' '], r) := by
  have hkept : Misses (word "THEN") none a (List.replicate (n + 1) ')' ++ ' ' :: r) := by
    apply misses_word_of_atEdge (by decide) (by decide) h.misses
    · cases g with
      | nil =>
        right
        simpa using h.side
      | cons c g =>
        left
        have hc := isEdge_of_isBlank (h.blanks c List.mem_cons_self)
        exact isOpenSide_of_all_isEdge (by simpa using hc)
    · exact atEdge_cons.mpr (by decide)
  have hblind : Blind (word "THEN") := blind_word (k := 'T') rfl (by decide)
  apply cutFrom?_eq_some_iff.mpr
  refine ⟨by simp [padded], h.ne_nil, ?_, ?_⟩
  · rw [List.append_assoc]
    apply misses_append.mpr
    constructor
    · simpa using hkept
    apply misses_append.mpr
    constructor
    · exact misses_of_isEdge hblind isEdge_of_mem_replicate _ _
    · exact ⟨hblind ' ' (by decide) _ _, trivial⟩
  · rw [lastOf_append]
    exact h.takes

theorem closed_padded (h : CutsAtThen s a g r) {n : Nat} (hn : unclosed a 0 = n + 1) : Closed (padded n a r) := by
  intro a' r' hcut
  rw [h.cut_padded n] at hcut
  cases hcut
  have htrim : trimEnd (a ++ List.replicate (n + 1) ')' ++ [' ']) = a ++ List.replicate (n + 1) ')' := by
    have hparen : isBlank ')' = false := by decide
    have hspace : dropEndWhile isBlank [' '] = [] := by decide
    have hdrop := dropEndWhile_append hparen (a ++ List.replicate n ')') [' ']
    rw [hspace] at hdrop
    rw [List.replicate_succ', trimEnd]
    simpa using hdrop
  rw [htrim, unclosed_concat, hn, unclosed_replicate]

end CutsAtThen

theorem repaired_closeBeforeThen (hcollapsed : Collapsed s) (hunglued : Misses gluedOperator none s []) :
    Repaired (closeBeforeThen s) := by
  rcases closeBeforeThen_cases s with ⟨heq, hclosed⟩ | ⟨a, r, n, hcut, hn, heq⟩
  · rw [heq]
    exact ⟨hcollapsed, hunglued, hclosed⟩
  · obtain ⟨g, -, h⟩ := cutsAtThen_of_cut hcut
    rw [heq]
    exact ⟨h.collapsed_padded hcollapsed n, h.unglued_padded hunglued n, h.closed_padded hn⟩

end Closing

theorem repaired_repairChars (s : List Char) : Repaired (repairChars s) := by
  have hcollapsed : Collapsed (spaceOperators (tidy s)) :=
    glues_gluedOperator.misses_stray_replaceFrom rfl (collapsed_tidy s)
  have hunglued : Misses gluedOperator none (spaceOperators (tidy s)) [] :=
    glues_gluedOperator.misses_replaceFrom local_gluedOperator none (tidy s)
  exact repaired_closeBeforeThen hcollapsed hunglued

theorem spaceOperators_of_misses (h : Misses gluedOperator none s []) : spaceOperators s = s := by
  have hcopy := replaceFrom_misses (f := opened) h
  rw [List.append_nil] at hcopy
  have hnil : replaceFrom gluedOperator opened (lastOf none s) [] = [] := rfl
  rw [hnil, List.append_nil] at hcopy
  exact hcopy

theorem repairChars_of_repaired (h : Repaired s) (hs : ¬EndsInStop s) : repairChars s = s := by
  rw [repairChars, tidy_of_collapsed h.collapsed hs, spaceOperators_of_misses h.unglued,
    closeBeforeThen_of_closed h.closed]

theorem not_isStop_of_isBlank {c : Char} (h : isBlank c = true) : isStop c = false := by
  rw [Bool.eq_false_iff]
  intro hstop
  simp only [isStop, Bool.or_eq_true, beq_iff_eq] at hstop
  rcases hstop with rfl | rfl <;> exact absurd h (by decide)

theorem filter_repairChars (s : List Char) : (repairChars s).filter isStop = (tidy s).filter isStop := by
  rw [repairChars, filter_closeBeforeThen (fun _ => not_isStop_of_isBlank) (by decide)]
  exact glues_gluedOperator.filter_replaceFrom (by decide) none (tidy s)

theorem repairChars_eq_self_iff (h : Repaired s) : repairChars s = s ↔ ¬EndsInStop s := by
  constructor
  · intro heq hstop
    have hlt := length_filter_tidy h.collapsed hstop
    rw [← filter_repairChars, heq] at hlt
    omega
  · exact repairChars_of_repaired h

section Keys

theorem repairChars_trim (s : List Char) : repairChars (trim s) = repairChars s := by
  rw [repairChars, repairChars, tidy, tidy, collapse_trim]

theorem toList_repair (text : String) : (repair text).toList = repairChars text.toList :=
  String.toList_ofList

theorem cacheKey_eq (text : String) : cacheKey text = repair text := by
  rw [cacheKey, repair, repair, trimmed, String.toList_ofList, repairChars_trim]

theorem repair_repair_eq_iff (text : String) :
    repair (repair text) = repair text ↔ ¬EndsInStop (repair text).toList := by
  rw [← repairChars_eq_self_iff (by rw [toList_repair]; exact repaired_repairChars text.toList)]
  constructor
  · intro h
    rw [← toList_repair, h]
  · intro h
    rw [repair, h, String.ofList_toList]

end Keys

end Applicability.Condition
