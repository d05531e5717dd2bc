import Applicability.Proofs.Condition.Plain
import Applicability.Proofs.Condition.Rule

namespace Applicability.Rule

open Condition Text Pattern

structure Gap (g : List Char) : Prop where
  ne_nil : g ≠ []
  blanks : ∀ c ∈ g, isBlank c = true

inductive Branch (keyword : String) (status : Status) : List Char → Prop where
  | intro {k g v : List Char} (hk : Cased keyword.toList k) (hg : Gap g) (hv : SpellsStatus status v) :
      Branch keyword status (k ++ (g ++ v))

inductive Branches (onTrue : Status) : Status → List Char → Prop where
  | short {b : List Char} (h : Branch "THEN" onTrue b) : Branches onTrue .notApplicable b
  | whole {onFalse : Status} {b g b' : List Char} (h : Branch "THEN" onTrue b) (hg : Gap g)
      (h' : Branch "ELSE" onFalse b') : Branches onTrue onFalse (b ++ (g ++ b'))

/-- The text is `IF`, then `p`, and then the branches. Neither keyword runs into a word character of `p`. -/
inductive Reads (onTrue onFalse : Status) (p : List Char) : List Char → Prop where
  | intro {i r : List Char} (hi : Cased "IF".toList i) (hr : Branches onTrue onFalse r)
      (hafter : isOpenSide (p ++ r).head? = true) (hbefore : isOpenSide (i ++ p).getLast? = true) :
      Reads onTrue onFalse p (i ++ (p ++ r))

def KeywordFree (s : List Char) : Prop :=
  ∀ k ∈ ["IF", "THEN", "ELSE"], ∀ l w r, s = l ++ (w ++ r) → Cased k.toList w →
    isOpenSide l.getLast? = true → isOpenSide r.head? = false

/-- The text is the rule, and no keyword is a word of its antecedent. -/
def IsRule (s : List Char) (rule : Rule) : Prop :=
  ∃ p, Reads rule.onTrue rule.onFalse p s ∧ trim p = rule.antecedent.toList ∧ KeywordFree (trim p)

section Branches

variable {keyword : String} {status onTrue onFalse : Status} {s r b : List Char}

theorem afterBlanks?_eq_some_iff :
    afterBlanks? s = some r ↔ ∃ g, Gap g ∧ s = g ++ r ∧ r.head?.any isBlank = false := by
  cases s with
  | nil =>
    constructor
    · intro h
      cases h
    · rintro ⟨g, hg, h, -⟩
      exact absurd (List.append_eq_nil_iff.mp h.symm).1 hg.ne_nil
  | cons c s =>
    rw [afterBlanks?]
    constructor
    · intro h
      split at h
      · rename_i hc
        cases h
        refine ⟨c :: s.takeWhile isBlank, ⟨by simp, ?_⟩, ?_, head_trimStart s⟩
        · exact List.forall_mem_cons.mpr ⟨hc, fun d hd => List.mem_takeWhile_imp hd⟩
        · exact congrArg (c :: ·) List.takeWhile_append_dropWhile.symm
      · cases h
    · rintro ⟨g, hg, h, hr⟩
      obtain ⟨d, g, rfl⟩ := List.exists_cons_of_ne_nil hg.ne_nil
      rw [List.cons_append] at h
      obtain ⟨rfl, rfl⟩ := List.cons.inj h
      obtain ⟨hc, hg⟩ := List.forall_mem_cons.mp hg.blanks
      rw [if_pos hc, trimStart_append hg, trimStart_of_head hr]

theorem statusAt?_eq_some_iff : statusAt? s = some (status, r) ↔ ∃ v, SpellsStatus status v ∧ s = v ++ r := by
  constructor
  · intro h
    unfold statusAt? at h
    split at h
    · rename_i rest hrest
      cases h
      obtain ⟨v, hv, hs⟩ := afterLetters?_eq_some_iff.mp hrest
      exact ⟨v, ⟨hv.upper_eq (by decide) (by decide), by decide⟩, hs⟩
    · cases h
    · rename_i c cs hnone
      have hletter : ∀ {k : Char} {status : Status}, status.token.toList = [k] → 'S' ∉ [k] → 'K' ∉ [k] →
          status ≠ .error → isLetter k c = true → SpellsStatus status [c] := by
        intro k status htoken hS hK hne hc
        refine ⟨?_, hne⟩
        rw [Spells, htoken]
        exact Cased.upper_eq (.cons hc .nil) hS hK
      split at h
      · rename_i hc
        cases h
        exact ⟨[c], hletter rfl (by decide) (by decide) (by decide) hc, rfl⟩
      split at h
      · rename_i hc
        cases h
        exact ⟨[c], hletter rfl (by decide) (by decide) (by decide) hc, rfl⟩
      split at h
      · rename_i hc
        cases h
        exact ⟨[c], hletter rfl (by decide) (by decide) (by decide) hc, rfl⟩
      · cases h
  · rintro ⟨v, hv, rfl⟩
    exact statusAt?_of_spells hv r

theorem not_isBlank_of_isLetter {k c : Char} (hk : k.isUpper = true) (h : isLetter k c = true) :
    isBlank c = false := by
  rw [Bool.eq_false_iff]
  intro hc
  rw [isLetter_eq_false_of_isEdge hk (isEdge_of_isBlank hc)] at h
  cases h

theorem head_of_spells {v : List Char} (hv : SpellsStatus status v) (r : List Char) :
    (v ++ r).head?.any isBlank = false := by
  obtain ⟨c, v, rfl⟩ := List.exists_cons_of_ne_nil hv.proper.1
  simpa using Lexeme.not_isBlank hv.proper c List.mem_cons_self

theorem branch?_eq_some_iff :
    branch? keyword s = some (status, r) ↔ ∃ b, Branch keyword status b ∧ s = b ++ r := by
  simp only [branch?, bind, Option.bind_eq_some_iff, afterLetters?_eq_some_iff, afterBlanks?_eq_some_iff,
    statusAt?_eq_some_iff]
  constructor
  · rintro ⟨_, ⟨k, hk, rfl⟩, _, ⟨g, hg, rfl, -⟩, v, hv, rfl⟩
    exact ⟨_, .intro hk hg hv, by simp⟩
  · rintro ⟨_, hb, rfl⟩
    cases hb with
    | @intro k g v hk hg hv =>
      exact ⟨g ++ (v ++ r), ⟨k, hk, by simp⟩, v ++ r, ⟨g, hg, rfl, head_of_spells hv r⟩, v, hv, rfl⟩

theorem Branch.exists_cons {k : Char} {ks : List Char} (hks : keyword.toList = k :: ks)
    (h : Branch keyword status b) :
    ∃ c w g v, b = c :: (w ++ (g ++ v)) ∧ isLetter k c = true ∧ Cased ks w ∧ Gap g ∧ SpellsStatus status v := by
  cases h with
  | @intro k' g v hk' hg hv =>
    rw [hks] at hk'
    cases hk' with
    | @cons _ c _ w hc hw => exact ⟨c, w, g, v, rfl, hc, hw, hg, hv⟩

theorem Branch.head {k : Char} {ks : List Char} (h : Branch keyword status b) (hks : keyword.toList = k :: ks)
    (hk : k.isUpper = true) (r : List Char) : (b ++ r).head?.any isBlank = false := by
  obtain ⟨c, w, g, v, rfl, hc, -⟩ := h.exists_cons hks
  simpa using not_isBlank_of_isLetter hk hc

theorem Branch.branch?_append (h : Branch keyword status b) (r : List Char) :
    branch? keyword (b ++ r) = some (status, r) :=
  branch?_eq_some_iff.mpr ⟨b, h, rfl⟩

theorem Gap.afterBlanks?_append {g : List Char} (hg : Gap g) (hr : r.head?.any isBlank = false) :
    afterBlanks? (g ++ r) = some r :=
  afterBlanks?_eq_some_iff.mpr ⟨g, hg, rfl, hr⟩

theorem branches?_eq_some_iff :
    branches? s = some (onTrue, onFalse) ↔
      ∃ a z, Branches onTrue onFalse a ∧ (∀ c ∈ z, isBlank c = true) ∧ s = a ++ z := by
  constructor
  · intro h
    simp only [branches?, bind, Option.bind_eq_some_iff] at h
    obtain ⟨⟨x, rest⟩, hthen, h⟩ := h
    obtain ⟨b, hb, rfl⟩ := branch?_eq_some_iff.mp hthen
    split at h
    · rename_i hblank
      cases h
      exact ⟨b, rest, .short hb, trim_eq_nil_iff.mp (List.isEmpty_iff.mp hblank), rfl⟩
    · simp only [Option.bind_eq_some_iff] at h
      obtain ⟨t, ht, ⟨y, rest'⟩, helse, h⟩ := h
      obtain ⟨g, hg, rfl, -⟩ := afterBlanks?_eq_some_iff.mp ht
      obtain ⟨b', hb', rfl⟩ := branch?_eq_some_iff.mp helse
      split at h
      · rename_i hblank
        cases h
        exact ⟨b ++ (g ++ b'), rest', .whole hb hg hb', trim_eq_nil_iff.mp (List.isEmpty_iff.mp hblank), by simp⟩
      · cases h
  · rintro ⟨a, z, ha, hz, rfl⟩
    have hend : trim z = [] := trim_eq_nil_iff.mpr hz
    cases ha with
    | short hb => simp [branches?, hb.branch?_append z, hend]
    | @whole _ b g b' hb hg hb' =>
      have hmore : trim (g ++ (b' ++ z)) ≠ [] := by
        rw [ne_eq, trim_eq_nil_iff]
        obtain ⟨c, w, g', v, rfl, hc, -⟩ := hb'.exists_cons rfl
        intro hall
        have hblank := not_isBlank_of_isLetter (by decide) hc
        rw [hall c (by simp)] at hblank
        cases hblank
      rw [List.append_assoc, List.append_assoc]
      simp [branches?, hb.branch?_append, hmore, hg.afterBlanks?_append (hb'.head rfl (by decide) z),
        hb'.branch?_append z, hend]

theorem Branches.exists_last (h : Branches onTrue onFalse s) :
    ∃ t v status, s = t ++ v ∧ SpellsStatus status v := by
  cases h with
  | short hb =>
    cases hb with
    | @intro k g v hk hg hv => exact ⟨k ++ g, v, onTrue, by simp, hv⟩
  | @whole _ b g _ hb hg hb' =>
    cases hb' with
    | @intro k g' v hk hg' hv => exact ⟨b ++ (g ++ (k ++ g')), v, onFalse, by simp, hv⟩

theorem not_isLetter_of_spells {v : List Char} (h : SpellsStatus status v) : ∀ c ∈ v, isLetter 'T' c = false := by
  intro c hc
  rw [Bool.eq_false_iff]
  intro hletter
  have hup : c.toUpper = 'T' := by simpa [isLetter] using hletter
  have hmem : c.toUpper ∈ status.token.toList := h.spells ▸ List.mem_map_of_mem hc
  rw [hup] at hmem
  cases status <;> revert hmem <;> decide

theorem not_isLetter_of_blanks {g : List Char} (hg : ∀ c ∈ g, isBlank c = true) :
    ∀ c ∈ g, isLetter 'T' c = false :=
  fun c hc => isLetter_eq_false_of_isEdge (by decide) (isEdge_of_isBlank (hg c hc))

theorem not_isLetter_of_parts {ks w g v : List Char} (hw : Cased ks w) (hk : ∀ k ∈ ks, k.isUpper = true)
    (hne : 'T' ∉ ks) (hg : Gap g) (hv : SpellsStatus status v) :
    ∀ c ∈ w ++ (g ++ v), isLetter 'T' c = false := by
  simp only [List.forall_mem_append]
  exact ⟨hw.not_isLetter hk (by decide) hne, not_isLetter_of_blanks hg.blanks, not_isLetter_of_spells hv⟩

theorem exists_of_branches? (h : branches? s = some (onTrue, onFalse)) :
    ∃ c t, s = c :: t ∧ isLetter 'T' c = true ∧ ∀ d ∈ t, isLetter 'T' d = false := by
  obtain ⟨a, z, ha, hz, rfl⟩ := branches?_eq_some_iff.mp h
  have hend := not_isLetter_of_blanks hz
  cases ha with
  | short hb =>
    obtain ⟨c, w, g, v, rfl, hc, hw, hg, hv⟩ := hb.exists_cons rfl
    refine ⟨c, w ++ (g ++ v) ++ z, rfl, hc, List.forall_mem_append.mpr ⟨?_, hend⟩⟩
    exact not_isLetter_of_parts hw (by decide) (by decide) hg hv
  | @whole _ _ g' _ hb hg' hb' =>
    obtain ⟨c, w, g, v, rfl, hc, hw, hg, hv⟩ := hb.exists_cons rfl
    cases hb' with
    | @intro k g'' v' hk hg'' hv' =>
      refine ⟨c, w ++ (g ++ v) ++ (g' ++ (k ++ (g'' ++ v'))) ++ z, rfl, hc, ?_⟩
      have hthen := not_isLetter_of_parts hw (by decide) (by decide) hg hv
      have helse := not_isLetter_of_parts hk (by decide) (by decide) hg'' hv'
      have hrest := List.forall_mem_append.mpr ⟨not_isLetter_of_blanks hg'.blanks, helse⟩
      exact List.forall_mem_append.mpr ⟨List.forall_mem_append.mpr ⟨hthen, hrest⟩, hend⟩

end Branches

section Splitting

variable {onTrue onFalse : Status} {before : Option Char} {s p : List Char}

theorem splitFrom?_eq_some_iff :
    splitFrom? before s = some (p, onTrue, onFalse) ↔
      ∃ r, s = p ++ r ∧ branches? r = some (onTrue, onFalse) ∧ isOpenSide (lastOf before p) = true := by
  induction s generalizing before p with
  | nil =>
    constructor
    · intro h
      cases h
    · rintro ⟨r, h, hr, -⟩
      obtain ⟨-, rfl⟩ := List.append_eq_nil_iff.mp h.symm
      cases hr
  | cons c s ih =>
    rw [splitFrom?]
    split
    · rename_i x y hside hhere
      constructor
      · intro h
        cases h
        exact ⟨c :: s, rfl, hhere, hside⟩
      · rintro ⟨r, heq, hr, -⟩
        -- Both parts begin at the last `T` of the text.
        obtain ⟨d, t, rfl, hd, ht⟩ := exists_of_branches? hr
        obtain ⟨d', t', heq', hd', ht'⟩ := exists_of_branches? hhere
        rw [heq'] at heq
        obtain ⟨rfl, hsame⟩ := Lists.append_cons_inj_of_last (p := []) heq hd' ht' hd ht
        rw [heq', hsame, hr] at hhere
        cases hhere
        rfl
    · rename_i hhere
      rw [Option.map_eq_some_iff]
      constructor
      · rintro ⟨⟨p', x⟩, hrest, heq⟩
        cases heq
        obtain ⟨r, rfl, hr, hside⟩ := ih.mp hrest
        exact ⟨r, rfl, hr, hside⟩
      · rintro ⟨r, heq, hr, hside⟩
        cases p with
        | nil =>
          rw [List.nil_append] at heq
          subst heq
          exact absurd hr (hhere onTrue onFalse hside)
        | cons d p =>
          rw [List.cons_append] at heq
          obtain ⟨rfl, rfl⟩ := List.cons.inj heq
          exact ⟨(p, onTrue, onFalse), ih.mpr ⟨r, rfl, hr, hside⟩, rfl⟩

theorem keywordFree_iff : keyword.occursIn s = false ↔ KeywordFree s := by
  rw [occursIn_eq_false_iff, keyword, misses_orElse_iff, misses_orElse_iff, misses_word_iff (by decide),
    misses_word_iff (by decide), misses_word_iff (by decide)]
  simp only [KeywordFree, List.forall_mem_cons, and_assoc, List.not_mem_nil, false_imp_iff, implies_true, and_true]

theorem eq_nil_of_blanks {t z : List Char} (hz : ∀ c ∈ z, isBlank c = true)
    (h : (t ++ z).getLast?.any isBlank = false) : z = [] := by
  rcases List.eq_nil_or_concat z with rfl | ⟨z, c, rfl⟩
  · rfl
  · have hc : isBlank c = true := hz c (by simp)
    simp [hc, ← List.append_assoc] at h

theorem isOpenSide_getLast?_iff {i : List Char} (hi : Cased "IF".toList i) :
    isOpenSide (i ++ p).getLast? = true ↔ p ≠ [] ∧ isOpenSide (lastOf none p) = true := by
  rw [lastOf_eq, Option.or_none]
  cases p with
  | nil =>
    have hne : i ≠ [] := by
      rintro rfl
      cases hi
    have hclosed : isOpenSide (lastOf none i) = false := isOpenSide_lastOf hne (hi.isWordChar (by decide))
    rw [lastOf_eq, Option.or_none] at hclosed
    simp [hclosed]
  | cons c p => simp [List.getLast?_append, List.getLast?_cons]

theorem isOpenSide_of_branches? {r : List Char} (h : branches? r = some (onTrue, onFalse)) :
    isOpenSide r.head? = false := by
  obtain ⟨c, t, rfl, hc, -⟩ := exists_of_branches? h
  simp [isOpenSide, isWordChar_of_isLetter (by decide) hc]

end Splitting

section Reading

variable {onTrue onFalse : Status} {s p : List Char}

theorem Reads.exists_split (h : Reads onTrue onFalse p s) :
    ∃ i rest, Cased "IF".toList i ∧ s = i ++ rest ∧ isOpenSide rest.head? = true ∧
      splitFrom? none rest = some (p, onTrue, onFalse) := by
  cases h with
  | @intro i r hi hr hafter hbefore =>
    have hbranches := branches?_eq_some_iff.mpr ⟨r, [], hr, by simp, (List.append_nil r).symm⟩
    have hside := ((isOpenSide_getLast?_iff hi).mp hbefore).2
    exact ⟨i, p ++ r, hi, rfl, hafter, splitFrom?_eq_some_iff.mpr ⟨r, rfl, hbranches, hside⟩⟩

theorem reads_of_split {i rest : List Char} (hi : Cased "IF".toList i) (hafter : isOpenSide rest.head? = true)
    (hsplit : splitFrom? none rest = some (p, onTrue, onFalse))
    (hlast : (i ++ rest).getLast?.any isBlank = false) : Reads onTrue onFalse p (i ++ rest) := by
  obtain ⟨r, rfl, hr, hside⟩ := splitFrom?_eq_some_iff.mp hsplit
  obtain ⟨a, z, ha, hz, rfl⟩ := branches?_eq_some_iff.mp hr
  rw [← List.append_assoc, ← List.append_assoc] at hlast
  obtain rfl := eq_nil_of_blanks hz hlast
  rw [List.append_nil] at hr hafter ⊢
  have hne : p ≠ [] := by
    rintro rfl
    rw [List.nil_append, isOpenSide_of_branches? hr] at hafter
    cases hafter
  exact .intro hi ha hafter ((isOpenSide_getLast?_iff hi).mpr ⟨hne, hside⟩)

theorem Reads.unique {onTrue' onFalse' : Status} {p' : List Char} (h : Reads onTrue onFalse p s)
    (h' : Reads onTrue' onFalse' p' s) : p = p' ∧ onTrue = onTrue' ∧ onFalse = onFalse' := by
  obtain ⟨i, rest, hi, rfl, -, hsplit⟩ := h.exists_split
  obtain ⟨i', rest', hi', heq, -, hsplit'⟩ := h'.exists_split
  obtain ⟨-, rfl⟩ := List.append_inj heq (hi.length_eq.trans hi'.length_eq.symm)
  rw [hsplit] at hsplit'
  simpa using hsplit'

theorem Reads.not_endsInStop (h : Reads onTrue onFalse p s) : ¬EndsInStop s := by
  cases h with
  | @intro i r hi hr hafter hbefore =>
    obtain ⟨t, v, status, rfl, hv⟩ := hr.exists_last
    have hend := hv.not_endsInStop (i ++ (p ++ t))
    rwa [List.append_assoc, List.append_assoc] at hend

theorem ofChars?_eq_some_iff {rule : Rule} (hs : s.getLast?.any isBlank = false) :
    ofChars? s = some rule ↔ IsRule s rule := by
  constructor
  · intro h
    simp only [ofChars?, bind, Option.bind_eq_some_iff] at h
    obtain ⟨rest, hletters, h⟩ := h
    obtain ⟨i, hi, rfl⟩ := afterLetters?_eq_some_iff.mp hletters
    split at h
    · cases h
    rename_i hafter
    obtain ⟨⟨p, x, y⟩, hsplit, hrule⟩ := Option.bind_eq_some_iff.mp h
    split at hrule
    · cases hrule
    rename_i hfree
    cases hrule
    refine ⟨p, reads_of_split hi (by simpa using hafter) hsplit hs, ?_, ?_⟩
    · rw [String.toList_ofList]
    · exact keywordFree_iff.mp (by simpa using hfree)
  · rintro ⟨p, hreads, htrim, hfree⟩
    obtain ⟨i, rest, hi, rfl, hafter, hsplit⟩ := hreads.exists_split
    have hletters : afterLetters? ['I', 'F'] (i ++ rest) = some rest := afterLetters?_eq_some_iff.mpr ⟨i, hi, rfl⟩
    have hkeyword : keyword.occursIn rule.antecedent.toList = false := htrim ▸ keywordFree_iff.mpr hfree
    simp [ofChars?, hletters, hafter, hsplit, hkeyword, htrim]

theorem isRule_repair_iff {text : String} {rule : Rule} :
    IsRule (repair text).toList rule ↔ ofChars? (repairChars text.toList) = some rule := by
  rw [toList_repair]
  exact (ofChars?_eq_some_iff (repaired_repairChars text.toList).last).symm

end Reading

/-- Texts that name no status by themselves are rules by the grammar, which reads a repaired text in one way at most,
and freeform otherwise. No rule has a blank antecedent exactly where the text has no reading with one. -/
theorem classify_eq_rule_iff {text : String} (h : plainStatus? text.toList = none) :
    (∀ rule, classify text = .rule rule ↔ IsRule (repair text).toList rule) ∧
      ((∀ rule, ¬IsRule (repair text).toList rule) → classify text = .freeform (repair text)) ∧
      (∀ v w v' w' p p', Reads v w p (repair text).toList → Reads v' w' p' (repair text).toList →
        p = p' ∧ v = v' ∧ w = w') ∧
      ((∀ rule, classify text = .rule rule ↔ IsRule (repair text).toList rule ∧ rule.antecedent ≠ "") ↔
        ∀ v w p, Reads v w p (repair text).toList → trim p ≠ []) := by
  have hrule : ∀ rule, classify text = .rule rule ↔ IsRule (repair text).toList rule := by
    intro rule
    rw [isRule_repair_iff, classify_of_not_plain h]
    cases ofChars? (repairChars text.toList) <;> simp
  refine ⟨hrule, ?_, fun v w v' w' p p' hp hp' => hp.unique hp', ?_⟩
  · intro hnone
    rw [classify_of_not_plain h]
    cases hs : ofChars? (repairChars text.toList) with
    | none => rfl
    | some rule => exact absurd (isRule_repair_iff.mpr hs) (hnone rule)
  constructor
  · intro hclaim v w p hreads hblank
    have hfree : KeywordFree (trim p) := by
      rw [hblank]
      exact keywordFree_iff.mp rfl
    have hclass := (hrule ⟨"", v, w⟩).mpr ⟨p, hreads, hblank, hfree⟩
    exact ((hclaim ⟨"", v, w⟩).mp hclass).2 rfl
  · intro hreads rule
    rw [hrule rule]
    refine ⟨fun hisrule => ⟨hisrule, ?_⟩, fun hisrule => hisrule.1⟩
    obtain ⟨p, hp, htrim, -⟩ := hisrule
    intro hempty
    rw [hempty] at htrim
    exact hreads _ _ p hp htrim

theorem classify_eq_rule_iff_mixed_case :
    plainStatus? " If A.1  then\nm.".toList = none ∧
      classify " If A.1  then\nm." = .rule ⟨"A.1", .mandatory, .notApplicable⟩ := by
  have h : plainStatus? " If A.1  then\nm.".toList = none := by decide +kernel
  have hrepair : (repair " If A.1  then\nm.").toList = ['I', 'f'] ++ ([' ', 'A', '.', '1', ' '] ++
      (['t', 'h', 'e', 'n'] ++ ([' '] ++ ['m']))) := by decide +kernel
  have hif : Cased "IF".toList ['I', 'f'] := .cons (by decide) (.cons (by decide) .nil)
  have hthen : Cased "THEN".toList ['t', 'h', 'e', 'n'] :=
    .cons (by decide) (.cons (by decide) (.cons (by decide) (.cons (by decide) .nil)))
  have hbranches : Branches .mandatory .notApplicable (['t', 'h', 'e', 'n'] ++ ([' '] ++ ['m'])) :=
    .short (.intro hthen ⟨by decide, by decide⟩ ⟨rfl, by decide⟩)
  have hreads := Reads.intro (p := [' ', 'A', '.', '1', ' ']) hif hbranches (by decide +kernel) (by decide +kernel)
  rw [← hrepair] at hreads
  refine ⟨h, ((classify_eq_rule_iff h).1 _).mpr ⟨_, hreads, by decide +kernel, ?_⟩⟩
  exact keywordFree_iff.mp (by decide +kernel)

theorem not_classify_eq_rule_iff_of_antecedent :
    ¬∀ text : String, plainStatus? text.toList = none → ∀ rule,
      (classify text = .rule rule ↔ IsRule (repair text).toList rule ∧ rule.antecedent ≠ "") := by
  intro hclaim
  have h : plainStatus? "IF THEN M".toList = none := by decide +kernel
  have hclass : classify "IF THEN M" = .rule ⟨"", .mandatory, .notApplicable⟩ := by decide +kernel
  exact ((hclaim "IF THEN M" h _).mp hclass).2 rfl

end Applicability.Rule
