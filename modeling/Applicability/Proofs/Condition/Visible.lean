import Applicability.Proofs.Condition.Repaired

namespace Applicability.Condition

open Text Pattern

def visible (s : List Char) : List Char :=
  s.filter fun c => !isBlank c

structure SingleSpaced (s : List Char) : Prop where
  space : ∀ c ∈ s, isBlank c = true → c = ' '
  head : s.head?.any isBlank = false
  last : s.getLast?.any isBlank = false
  single : s.IsChain fun c d => isBlank c = false ∨ isBlank d = false

/-- Read from left to right, the text leaves this many parentheses open. One that closes nothing does not count. -/
inductive LeavesOpen : List Char → Nat → Prop where
  | nil : LeavesOpen [] 0
  | opening {s : List Char} {k : Nat} (h : LeavesOpen s k) : LeavesOpen (s ++ ['(']) (k + 1)
  | closing {s : List Char} {k : Nat} (h : LeavesOpen s (k + 1)) : LeavesOpen (s ++ [')']) k
  | stray {s : List Char} (h : LeavesOpen s 0) : LeavesOpen (s ++ [')']) 0
  | other {s : List Char} {k : Nat} {c : Char} (h : LeavesOpen s k) (hopen : c ≠ '(') (hclose : c ≠ ')') :
      LeavesOpen (s ++ [c]) k

/-- The text shows the characters `kept`, and right before its first `THEN` the parentheses that close those left
open by the characters before it. Without a `THEN` there are none. -/
inductive Closes : List Char → List Char → Prop where
  | free {s : List Char} (h : (word "THEN").cut? s = none) : Closes (visible s) s
  | rule {s before rest kept : List Char} {k : Nat} (h : (word "THEN").cut? s = some (before, rest))
      (hkept : LeavesOpen kept k) (hbefore : visible before = kept ++ List.replicate k ')')
      (hclosed : LeavesOpen before 0) : Closes (kept ++ visible rest) s

section LeavesOpen

variable {s : List Char} {k : Nat}

theorem LeavesOpen.unclosed_eq (h : LeavesOpen s k) : unclosed s 0 = k := by
  induction h with
  | nil => rfl
  | opening _ ih | closing _ ih | stray _ ih =>
    rw [unclosed_concat, ih]
    rfl
  | other _ hopen hclose ih =>
    rw [unclosed_concat, ih]
    simp [unclosed, hopen, hclose]

theorem leavesOpen_unclosed (s : List Char) : LeavesOpen s (unclosed s 0) := by
  induction s using List.reverseRecOn with
  | nil => exact .nil
  | append_singleton s c ih =>
    rw [unclosed_concat]
    by_cases hopen : c = '('
    · subst hopen
      exact ih.opening
    by_cases hclose : c = ')'
    · subst hclose
      cases hk : unclosed s 0 with
      | zero => exact (hk ▸ ih).stray
      | succ k => exact (hk ▸ ih).closing
    · have hstay : unclosed [c] (unclosed s 0) = unclosed s 0 := by simp [unclosed, hopen, hclose]
      rw [hstay]
      exact ih.other hopen hclose

theorem leavesOpen_iff : LeavesOpen s k ↔ unclosed s 0 = k :=
  ⟨LeavesOpen.unclosed_eq, fun h => h ▸ leavesOpen_unclosed s⟩

end LeavesOpen

section Visible

theorem visible_append (s t : List Char) : visible (s ++ t) = visible s ++ visible t :=
  List.filter_append ..

theorem visible_of_blanks {g : List Char} (hg : ∀ c ∈ g, isBlank c = true) : visible g = [] :=
  List.filter_eq_nil_iff.mpr fun c hc => by simp [hg c hc]

theorem visible_of_not_isBlank {s : List Char} (hs : ∀ c ∈ s, isBlank c = false) : visible s = s :=
  List.filter_eq_self.mpr fun c hc => by simp [hs c hc]

theorem visible_trimEnd (s : List Char) : visible (trimEnd s) = visible s := by
  obtain ⟨g, hg, hblank⟩ := dropEndWhile_spec isBlank s
  conv_rhs => rw [hg, visible_append, visible_of_blanks hblank, List.append_nil]
  rw [trimEnd]

theorem visible_joint (s : List Char) : visible (joint s) = [] := by
  apply visible_of_blanks
  intro c hc
  unfold joint at hc
  split at hc
  · cases hc
  · rw [List.mem_singleton.mp hc]
    decide

theorem visible_collapse (s : List Char) : visible (collapse s) = visible s := by
  induction s with
  | nil => rfl
  | cons c s ih =>
    by_cases hc : isBlank c = true
    · have hskip : collapse (c :: s) = collapse s := collapse_of_blanks (g := [c]) (by simpa using hc) s
      rw [hskip, ih]
      simp [visible, hc]
    · rw [Bool.not_eq_true] at hc
      rw [collapse_cons hc, ← List.singleton_append, visible_append, visible_append, visible_joint, ih,
        List.nil_append, ← visible_append, List.singleton_append]

theorem unclosed_visible (s : List Char) (n : Nat) : unclosed (visible s) n = unclosed s n := by
  induction s generalizing n with
  | nil => rfl
  | cons c s ih =>
    by_cases hc : isBlank c = true
    · have hparen : c ≠ '(' ∧ c ≠ ')' := by
        constructor
        all_goals
          rintro rfl
          exact absurd hc (by decide)
      have hskip : visible (c :: s) = visible s := by simp [visible, hc]
      rw [hskip, ih]
      simp [unclosed, hparen]
    · have hkeep : visible (c :: s) = c :: visible s := by simp [visible, hc]
      rw [hkeep]
      simp only [unclosed, ih]

end Visible

theorem exists_stops (s : List Char) :
    ∃ stops, (∀ c ∈ stops, isStop c = true) ∧ visible s = visible (tidy s) ++ stops := by
  obtain ⟨stops, hstops, hstop⟩ := dropEndWhile_spec isStop (collapse s)
  have hshown : ∀ c ∈ stops, isBlank c = false := by
    intro c hc
    rw [Bool.eq_false_iff]
    intro hblank
    have hnot := not_isStop_of_isBlank hblank
    rw [hstop c hc] at hnot
    cases hnot
  refine ⟨stops, hstop, ?_⟩
  rw [tidy, visible_trimEnd, ← visible_collapse s]
  conv_lhs => rw [hstops, visible_append, visible_of_not_isBlank hshown]

theorem visible_spaceOperators (s : List Char) : visible (spaceOperators s) = visible s :=
  glues_gluedOperator.filter_replaceFrom (by decide) none s

theorem closes_of_closed {s : List Char} (h : Closed s) : Closes (visible s) s := by
  cases hcut : (word "THEN").cut? s with
  | none => exact .free hcut
  | some cut =>
    obtain ⟨before, rest⟩ := cut
    have hclosed : unclosed before 0 = 0 := by
      rw [← unclosed_visible, ← visible_trimEnd, unclosed_visible, h before rest hcut]
    have hs : s = before ++ rest := (cutFrom?_eq_some_iff.mp hcut).1
    have hkept : LeavesOpen (visible before) 0 := by
      rw [leavesOpen_iff, unclosed_visible, hclosed]
    rw [hs, visible_append, ← hs]
    exact .rule hcut hkept (List.append_nil _).symm (leavesOpen_iff.mpr hclosed)

theorem closes_padded {s a g r : List Char} {n : Nat} (h : CutsAtThen s a g r) (hn : unclosed a 0 = n + 1) :
    Closes (visible s) (padded n a r) := by
  have hs : visible s = visible a ++ visible r := by
    rw [h.eq, visible_append, visible_append, visible_of_blanks h.blanks, List.nil_append]
  have hparens : ∀ c ∈ List.replicate (n + 1) ')', isBlank c = false := by
    intro c hc
    rw [List.eq_of_mem_replicate hc]
    decide
  have hspace : visible [' '] = [] := visible_of_blanks (by decide)
  rw [hs]
  apply Closes.rule (h.cut_padded n)
  · rw [leavesOpen_iff, unclosed_visible, hn]
  · rw [visible_append, visible_append, visible_of_not_isBlank hparens, hspace, List.append_nil]
  · rw [leavesOpen_iff, unclosed_concat, unclosed_concat, hn, unclosed_replicate]
    rfl

theorem closes_closeBeforeThen (s : List Char) : Closes (visible s) (closeBeforeThen s) := by
  rcases closeBeforeThen_cases s with ⟨heq, hclosed⟩ | ⟨a, r, n, hcut, hn, heq⟩
  · rw [heq]
    exact closes_of_closed hclosed
  · obtain ⟨g, -, h⟩ := cutsAtThen_of_cut hcut
    rw [heq]
    exact closes_padded h hn

theorem singleSpaced_of_collapsed {s : List Char} (h : Collapsed s) : SingleSpaced s := by
  refine ⟨?_, h.head, h.last, ?_⟩
  · intro c hc hblank
    obtain ⟨l, r, rfl⟩ := List.append_of_mem hc
    exact ((stray_eq_zero_iff hblank).mp (misses_iff.mp h l c r rfl)).1
  · apply List.isChain_iff_forall_rel_of_append_cons_cons.mpr
    rintro c d l r rfl
    by_cases hc : isBlank c = true
    · obtain ⟨-, -, hd⟩ := (stray_eq_zero_iff hc).mp (misses_iff.mp h l c (d :: r) rfl)
      exact .inr (by simpa using hd)
    · exact .inl (by simpa using hc)

theorem closes_repairChars (s : List Char) : Closes (visible (tidy s)) (repairChars s) := by
  rw [repairChars, ← visible_spaceOperators]
  exact closes_closeBeforeThen _

theorem singleSpaced_repairChars (s : List Char) : SingleSpaced (repairChars s) :=
  singleSpaced_of_collapsed (repaired_repairChars s).collapsed

/-- Repair drops a run of full stops and semicolons at the end, closes what is open before the first `THEN` right
there, and leaves single spaces; it keeps all other characters in their order. -/
theorem repair_keeps (text : String) :
    ∃ kept stops, visible text.toList = kept ++ stops ∧ (∀ c ∈ stops, isStop c = true) ∧
      Closes kept (repair text).toList ∧ SingleSpaced (repair text).toList := by
  obtain ⟨stops, hstop, hstops⟩ := exists_stops text.toList
  rw [toList_repair]
  exact ⟨_, stops, hstops, hstop, closes_repairChars _, singleSpaced_repairChars _⟩

example : repair "IF (A.1 AND) (A.2 OR (A.3 THEN M (x; ." = "IF (A.1 AND) (A.2 OR (A.3)) THEN M (x;" := by
  decide +kernel

end Applicability.Condition
