import Applicability.Proofs.Condition.Evaluation
import Applicability.Proofs.Condition.WholeIds

namespace Applicability.Condition

open Capability Text Pattern

variable (v : List Char → Bool)

def assignWhole (ids : List (List Char)) (before : Option Char) (s : List Char) : List Char :=
  replaceFrom (wholeId ids) (fun _ text _ => constant (v text)) before s

variable {v} {ids : List (List Char)} {before : Option Char} {s : List Char}

theorem assignWhole_nil : assignWhole v ids before [] = [] := rfl

theorem assignWhole_cons {c : Char} (h : wholeId ids before (c :: s) = 0) :
    assignWhole v ids before (c :: s) = c :: assignWhole v ids (some c) s :=
  replaceFrom_cons h

theorem assignWhole_id {id : Id} (h : wholeId ids before (id.text ++ s) = id.text.length) :
    assignWhole v ids before (id.text ++ s) =
      constant (v id.text) ++ assignWhole v ids (lastOf before id.text) s :=
  replaceFrom_match id.ne_nil h

theorem extendsAfter_id (id : Id) (s : List Char) : extendsAfter (id.text ++ s) = true := by
  rcases id.cases_text with ⟨cs, hcs⟩ | ⟨cs, hcs⟩ <;> rw [hcs] <;> rfl

theorem extendsAfter_constant (b : Bool) (s : List Char) : extendsAfter (constant b ++ s) = true := by
  cases b <;> rfl

theorem not_isDigit_id (id : Id) (s : List Char) : (id.text ++ s).head?.any Char.isDigit = false := by
  rcases id.cases_text with ⟨cs, hcs⟩ | ⟨cs, hcs⟩ <;> rw [hcs] <;> rfl

theorem not_isDigit_constant (b : Bool) (s : List Char) :
    (constant b ++ s).head?.any Char.isDigit = false := by
  cases b <;> rfl

theorem isAscii_constant (b : Bool) : IsAscii (constant b) := by
  cases b <;> simp [IsAscii, constant, Rule.boolText]

theorem extendsBefore_constant (b : Bool) (before : Option Char) :
    (lastOf before (constant b)).any extendsBefore = true := by
  cases b <;> rfl

theorem extendsBefore_id {id : Id} (hid : IsAscii id.text) (before : Option Char) :
    (lastOf before id.text).any extendsBefore = true := by
  obtain ⟨w, c, hw⟩ := (List.eq_nil_or_concat' id.text).resolve_left id.ne_nil
  have hc := id.shaped.last c (by simp [hw])
  rw [hw, isAscii_append, isAscii_cons] at hid
  rw [hw, lastOf_append]
  simpa using extendsBefore_of_isWordChar hid.2.1 hc

theorem misses_constant (b : Bool) (before : Option Char) (s : List Char) :
    Misses (wholeId ids) before (constant b) s := by
  apply misses_of_forall
  intro c hc before s
  apply wholeId_of_head
  · rintro rfl
    cases b <;> exact absurd hc (by decide)
  · rintro rfl
    cases b <;> exact absurd hc (by decide)

theorem assignWhole_cases (v : List Char → Bool) (ids : List (List Char)) (before : Option Char) (c : Char)
    (s : List Char) :
    (∃ id : Id, ∃ r, c :: s = id.text ++ r ∧ id.text ∈ ids ∧ before.any extendsBefore = false ∧
      assignWhole v ids before (c :: s) =
        constant (v id.text) ++ assignWhole v ids (lastOf before id.text) r) ∨
    (wholeId ids before (c :: s) = 0 ∧
      assignWhole v ids before (c :: s) = c :: assignWhole v ids (some c) s) := by
  by_cases h : wholeId ids before (c :: s) = 0
  · exact .inr ⟨h, assignWhole_cons h⟩
  · obtain ⟨id, r, hr, hmem, hb, -, -, hlen⟩ := wholeId_cases h
    refine .inl ⟨id, r, hr, hmem, hb, ?_⟩
    rw [hr] at hlen ⊢
    exact assignWhole_id hlen

theorem any_isDigit_assignWhole (v : List Char → Bool) (ids : List (List Char)) (before : Option Char)
    (s : List Char) : (assignWhole v ids before s).head?.any Char.isDigit = s.head?.any Char.isDigit := by
  cases s with
  | nil => rfl
  | cons c s =>
    rcases assignWhole_cases v ids before c s with ⟨id, r, hr, -, -, h⟩ | ⟨-, h⟩
    · rw [h, hr, not_isDigit_constant, not_isDigit_id]
    · rw [h]
      rfl

theorem extendsAfter_assignWhole (v : List Char → Bool) (ids : List (List Char)) (before : Option Char)
    (s : List Char) : extendsAfter (assignWhole v ids before s) = extendsAfter s := by
  cases s with
  | nil => rfl
  | cons c s =>
    rcases assignWhole_cases v ids before c s with ⟨id, r, hr, -, -, h⟩ | ⟨-, h⟩
    · rw [h, hr, extendsAfter_constant, extendsAfter_id]
    · rw [h, extendsAfter, extendsAfter, any_isDigit_assignWhole]

theorem isAscii_assignWhole (h : IsAscii s) : IsAscii (assignWhole v ids before s) := by
  induction before, s using whole_induction ids with
  | hnil before => exact h
  | hid before id s hlen ih =>
    rw [assignWhole_id hlen, isAscii_append]
    exact ⟨isAscii_constant _, ih (isAscii_append.mp h).2⟩
  | hskip before c s hskip ih =>
    rw [isAscii_cons] at h
    rw [assignWhole_cons hskip, isAscii_cons]
    exact ⟨h.1, ih h.2⟩

theorem exists_of_assignWhole {c : Char} {w y : List Char} (hw : IsAscii (c :: w))
    (hchain : (c :: w).IsChain fun x y => isWordChar x = true ∨ isDigit y = true)
    (h : wholeId ids before s = 0) (heq : assignWhole v ids before s = c :: w ++ y) :
    ∃ z, s = c :: w ++ z ∧ y = assignWhole v ids (lastOf before (c :: w)) z := by
  induction w generalizing c s before with
  | nil =>
    cases s with
    | nil => exact absurd heq (by simp [assignWhole_nil])
    | cons x s =>
      rw [assignWhole_cons h] at heq
      obtain ⟨rfl, rfl⟩ := List.cons.inj heq
      exact ⟨s, rfl, rfl⟩
  | cons d w ih =>
    cases s with
    | nil => exact absurd heq (by simp [assignWhole_nil])
    | cons x s =>
      rw [assignWhole_cons h] at heq
      obtain ⟨rfl, hrest⟩ := List.cons.inj heq
      obtain ⟨hx, hw⟩ := isAscii_cons.mp hw
      rw [List.isChain_cons_cons] at hchain
      -- A constant would stand after a character that ends no id, and begin with a letter.
      have hzero : wholeId ids (some x) s = 0 := by
        by_contra hne
        obtain ⟨id, r, rfl, -, hb, -, -, hlen⟩ := wholeId_cases hne
        rcases hchain.1 with hword | hdigit
        · have hext := extendsBefore_of_isWordChar hx hword
          simp [hext] at hb
        · rw [assignWhole_id hlen] at hrest
          generalize v id.text = b at hrest
          cases b <;> obtain rfl := (List.cons.inj hrest).1 <;> exact absurd hdigit (by decide)
      obtain ⟨z, hz, hy⟩ := ih hw hchain.2 hzero hrest
      exact ⟨z, by rw [hz]; rfl, hy⟩

section

variable {r : List Char} {before' : Option Char}

theorem wholeId_assignWhole (hs : IsAscii s) (hb : before.any extendsBefore = before'.any extendsBefore)
    (h : wholeId (r :: ids) before s = 0) : wholeId [r] before' (assignWhole v ids before s) = 0 := by
  by_contra hne
  obtain ⟨id, y, hy, hmem, hopen, hstop, -⟩ := wholeId_cases hne
  obtain rfl : id.text = r := by simpa using hmem
  have hascii : IsAscii (assignWhole v ids before s) := isAscii_assignWhole hs
  rw [hy, isAscii_append] at hascii
  have hchain := id.shaped.chain
  have hexists : ∃ z, s = id.text ++ z ∧ y = assignWhole v ids (lastOf before id.text) z := by
    rcases hid : id.text with _ | ⟨c, w⟩
    · exact absurd hid id.ne_nil
    · rw [hid] at hascii hchain hy
      exact exists_of_assignWhole hascii.1 hchain (wholeId_of_cons hs h) hy
  obtain ⟨z, rfl, rfl⟩ := hexists
  rw [extendsAfter_assignWhole] at hstop
  exact wholeId_ne_zero (wholeId_eq List.mem_cons_self (hb.trans hopen) hstop (isAscii_append.mp hs).2) h

theorem assignWhole_known {id : Id} (h : wholeId ids before (id.text ++ s) = id.text.length) :
    assignWhole v [r] before' (assignWhole v ids before (id.text ++ s)) =
      constant (v id.text) ++ assignWhole v [r] (lastOf before' (constant (v id.text)))
        (assignWhole v ids (lastOf before id.text) s) := by
  rw [assignWhole_id h]
  exact replaceFrom_misses (misses_constant _ _ _)

theorem assignWhole_new {id : Id} (hs : IsAscii (id.text ++ s))
    (hb : before.any extendsBefore = before'.any extendsBefore)
    (hfirst : wholeId ids before (id.text ++ s) = 0)
    (h : wholeId (r :: ids) before (id.text ++ s) = id.text.length) :
    assignWhole v [r] before' (assignWhole v ids before (id.text ++ s)) =
      constant (v id.text) ++ assignWhole v [r] (lastOf before' id.text)
        (assignWhole v ids (lastOf before id.text) s) := by
  obtain ⟨hid, hascii⟩ := isAscii_append.mp hs
  have hcopy : assignWhole v ids before (id.text ++ s) =
      id.text ++ assignWhole v ids (lastOf before id.text) s :=
    replaceFrom_misses (misses_wholeId hid hfirst)
  obtain ⟨hmem, hopen, hstop⟩ := whole_of_wholeId h
  have hr : id.text ∈ [r] := by
    rcases List.mem_cons.mp hmem with hr | hids
    · simpa using hr
    · exact absurd hfirst (wholeId_ne_zero (wholeId_eq hids hopen hstop hascii))
  have htake : wholeId [r] before' (id.text ++ assignWhole v ids (lastOf before id.text) s) = id.text.length := by
    apply wholeId_eq hr (hb ▸ hopen)
    · rwa [extendsAfter_assignWhole]
    · exact isAscii_assignWhole hascii
  rw [hcopy, assignWhole_id htake]

theorem assignWhole_assignWhole (hs : IsAscii s) (hb : before.any extendsBefore = before'.any extendsBefore) :
    assignWhole v [r] before' (assignWhole v ids before s) = assignWhole v (r :: ids) before s := by
  -- What stands before the rest differs in the two passes, but it is an end of a word in both or in none.
  induction before, s using whole_induction (r :: ids) generalizing before' with
  | hnil before => rfl
  | hid before id s hlen ih =>
    obtain ⟨hid, hascii⟩ := isAscii_append.mp hs
    rw [assignWhole_id hlen]
    by_cases hfirst : wholeId ids before (id.text ++ s) = 0
    · rw [assignWhole_new hs hb hfirst hlen, ih hascii]
      rw [extendsBefore_id hid, extendsBefore_id hid]
    · have hknown : wholeId ids before (id.text ++ s) = id.text.length := by
        rw [wholeId_eq_idPattern hfirst, ← wholeId_eq_idPattern (wholeId_ne_zero hlen), hlen]
      rw [assignWhole_known hknown, ih hascii]
      rw [extendsBefore_id hid, extendsBefore_constant]
  | hskip before c s hskip ih =>
    have hsecond := wholeId_assignWhole (v := v) hs hb hskip
    have hfirst := wholeId_of_cons hs hskip
    rw [assignWhole_cons hfirst] at hsecond
    rw [assignWhole_cons hfirst, assignWhole_cons hsecond, assignWhole_cons hskip, ih (isAscii_cons.mp hs).2 rfl]

end

theorem assignWhole_of_nil : assignWhole v [] before s = s := by
  have hmiss : Misses (wholeId []) before s [] :=
    misses_of_forall fun c _ before s => by simp [wholeId]
  simpa [assignWhole, replaceFrom, piecesFrom] using
    replaceFrom_misses (f := fun _ text _ => constant (v text)) hmiss

theorem replaceWhole_eq (id : Id) (hs : IsAscii s) :
    replaceWhole id.text (constant (v id.text)) s = assignWhole v [id.text] none s := by
  apply replaceFrom_narrow (A := IsAscii) (fun w s h => (isAscii_append.mp h).2) _ _ hs
  · intro before s hs h
    obtain ⟨found, r, rfl, hmem, hopen, hstop, -, hlen⟩ := wholeId_cases h
    have heq : found.text = id.text := by simpa using hmem
    rw [heq] at hlen ⊢
    exact ⟨id.text, r, rfl, id.ne_nil, by simp [occurrence], hlen, by simp [hopen, hstop]⟩
  · intro before s hs hzero hocc
    have hpre : id.text <+: s := by
      by_contra hpre
      exact hocc (by simp [occurrence, hpre])
    obtain ⟨r, rfl⟩ := hpre
    obtain ⟨hid, hr⟩ := isAscii_append.mp hs
    exact ⟨id.text, r, rfl, id.ne_nil, by simp [occurrence],
      if_pos (extends_of_wholeId hzero List.mem_cons_self hr), misses_wholeId hid hzero⟩

theorem foldl_replaceWhole {refs : List (List Char)} (hrefs : ∀ r ∈ refs, ∃ id : Id, r = id.text)
    (hs : IsAscii s) :
    refs.foldl (fun t r => replaceWhole r (constant (v r)) t) (assignWhole v ids none s) =
      assignWhole v (refs.reverse ++ ids) none s := by
  induction refs generalizing ids with
  | nil => rfl
  | cons r refs ih =>
    obtain ⟨⟨id, hid⟩, hrest⟩ := List.forall_mem_cons.mp hrefs
    subst hid
    rw [List.foldl_cons, replaceWhole_eq id (isAscii_assignWhole hs), assignWhole_assignWhole hs rfl, ih hrest,
      List.reverse_cons, List.append_assoc, List.singleton_append]

/-- Writes the constants in one pass over the ids of a text, where an id that is part of a longer word stays. -/
def substituteWhole (v : List Char → Bool) (s : List Char) : List Char :=
  idPattern.replaceIn
    (fun before text after =>
      if before.any extendsBefore || extendsAfter after then text else constant (v text))
    s

theorem substituteWhole_eq (hids : ∀ w ∈ idPattern.allIn s, w ∈ ids) (hs : IsAscii s) :
    substituteWhole v s = assignWhole v ids none s := by
  have hlisted : substituteWhole v s = replaceFrom idPattern
      (fun before text after =>
        if before.any extendsBefore || extendsAfter after || !ids.contains text then text
        else constant (v text)) none s := by
    apply List.flatMap_congr
    intro piece hpiece
    cases piece with
    | plain c => rfl
    | found before text after =>
      have hmem : text ∈ ids := hids text (List.mem_filterMap.mpr ⟨_, hpiece, rfl⟩)
      simp [written, hmem]
  rw [hlisted]
  apply replaceFrom_narrow (A := IsAscii) (fun w s h => (isAscii_append.mp h).2) _ _ hs
  · intro before s hs h
    obtain ⟨id, r, rfl, hmem, hopen, hstop, hlen, hlenq⟩ := wholeId_cases h
    exact ⟨id.text, r, rfl, id.ne_nil, hlen, hlenq, by simp [hopen, hstop, hmem]⟩
  · intro before s hs hzero hne
    obtain ⟨id, r, rfl, hlen⟩ := exists_id hne
    obtain ⟨hid, hr⟩ := isAscii_append.mp hs
    refine ⟨id.text, r, rfl, id.ne_nil, hlen, if_pos ?_, misses_wholeId hid hzero⟩
    by_cases hmem : id.text ∈ ids
    · simp [extends_of_wholeId hzero hmem hr]
    · simp [hmem]

theorem substitute_eq_substituteWhole (profile : Profile) (rule : Rule) (extra : List String)
    (h : IsAscii rule.antecedent.toList) :
    Rule.substitute profile (rule.references extra) rule.antecedent.toList =
      substituteWhole (fun id => profile.supports (String.ofList id)) rule.antecedent.toList := by
  generalize hv : (fun id => profile.supports (String.ofList id)) = v
  generalize hr : references rule.antecedent.toList (extra.map String.toList) = refs
  have hids : ∀ r ∈ refs, ∃ id : Id, r = id.text := fun r hmem =>
    exists_id_of_mem_references (hr ▸ hmem)
  have hlisted : ∀ w ∈ idPattern.allIn rule.antecedent.toList, w ∈ refs.reverse ++ [] := by
    intro w hw
    simpa [← hr] using mem_references_of_mem_allIn hw
  have hfold : refs.foldl (fun t r => replaceWhole r (constant (v r)) t)
      (assignWhole v [] none rule.antecedent.toList) = assignWhole v (refs.reverse ++ []) none rule.antecedent.toList :=
    foldl_replaceWhole hids h
  rw [assignWhole_of_nil] at hfold
  rw [substitute_eq, hr, substituteWhole_eq hlisted h, ← hfold, ← hv]

def missingStep (profile : Profile) (ids : List String) : List String :=
  let missing := ids.filter fun id => (profile.get? id).isNone
  if missing.isEmpty then [] else ["Missing PICS references: " ++ ", ".intercalate missing]

def settle (rule : Rule) (text : List Char) : Status × List String :=
  let (balanced, padded) := balance (writeOperators text)
  let steps :=
    (if padded then ["Balanced parentheses after substitution"] else []) ++
      ["Substituted: " ++ String.ofList balanced]
  match Boolean.evaluate balanced with
  | .ok value =>
    let status := if value then rule.onTrue else rule.onFalse
    (status, steps ++ ["Antecedent evaluates to " ++ Rule.boolText value, "Result: " ++ status.token])
  | .error e => (.notApplicable, steps ++ ["Evaluation failed: " ++ e.message ++ "; defaulting to N/A"])

theorem evaluate_eq_settle {profile : Profile} {rule : Rule} {logic : String} {extra : List String}
    {text : List Char} (h : Rule.substitute profile (rule.references extra) rule.antecedent.toList = text) :
    rule.evaluate profile logic extra =
      .of (settle rule text).1 logic
        (("Antecedent: " ++ rule.antecedent) ::
          ((rule.references extra).map (Rule.valueStep profile) ++ missingStep profile (rule.references extra) ++
            (settle rule text).2)) := by
  subst h
  simp only [Rule.evaluate, Rule.expression, settle, missingStep]
  generalize balance (writeOperators (Rule.substitute profile (rule.references extra) rule.antecedent.toList)) = b
  cases Boolean.evaluate b.1 with
  | ok value => simp only [List.append_assoc, List.cons_append, List.nil_append]
  | error e => simp only [List.append_assoc, List.cons_append, List.nil_append]

/-- Whatever references a rule is given, its antecedent becomes the text in which the whole ids have become
constants at once, so that only the trace can differ: there are more values, and the missing references are listed
with those among the given ones. -/
theorem substitution_simultaneous (profile : Profile) (rule : Rule) (logic : String) (extra : List String)
    (h : IsAscii rule.antecedent.toList) :
    Rule.substitute profile (rule.references extra) rule.antecedent.toList =
        substituteWhole (fun id => profile.supports (String.ofList id)) rule.antecedent.toList ∧
      (rule.evaluate profile logic extra).status = (rule.evaluate profile logic []).status ∧
      (rule.references []).Sublist (rule.references extra) ∧
      ∃ rest,
        (rule.evaluate profile logic []).steps = ("Antecedent: " ++ rule.antecedent) ::
          ((rule.references []).map (Rule.valueStep profile) ++ missingStep profile (rule.references []) ++
            rest) ∧
        (rule.evaluate profile logic extra).steps = ("Antecedent: " ++ rule.antecedent) ::
          ((rule.references extra).map (Rule.valueStep profile) ++ missingStep profile (rule.references extra) ++
            rest) := by
  have hextra := substitute_eq_substituteWhole profile rule extra h
  have hnone := substitute_eq_substituteWhole profile rule [] h
  refine ⟨hextra, ?_, (references_sublist _ _).map _, ?_⟩
  · rw [evaluate_eq_settle hextra, evaluate_eq_settle hnone]
    rfl
  · rw [evaluate_eq_settle hextra, evaluate_eq_settle hnone]
    exact ⟨_, rfl, rfl⟩

theorem substitution_simultaneous_overlapping :
    IsAscii "(PC_A OR A.1) AND NOT A.1.2".toList ∧
      Rule.substitute (.ofList [("A.1", true)])
          ((Rule.mk "(PC_A OR A.1) AND NOT A.1.2" .mandatory .optional).references [" A.3 ", "A.1", "B"])
          "(PC_A OR A.1) AND NOT A.1.2".toList =
        "(false OR true) AND NOT false".toList ∧
      ((Rule.mk "(PC_A OR A.1) AND NOT A.1.2" .mandatory .optional).evaluate (.ofList [("A.1", true)]) ""
        [" A.3 ", "A.1", "B"]).status = .mandatory := by
  have hascii : IsAscii "(PC_A OR A.1) AND NOT A.1.2".toList := by simp [IsAscii]
  obtain ⟨htext, hstatus, -⟩ := substitution_simultaneous (.ofList [("A.1", true)])
    (Rule.mk "(PC_A OR A.1) AND NOT A.1.2" .mandatory .optional) "" [" A.3 ", "A.1", "B"] hascii
  exact ⟨hascii, htext.trans (by decide +kernel), hstatus.trans (by decide +kernel)⟩

theorem not_steps_sublist :
    ¬∀ (profile : Profile) (rule : Rule) (logic : String) (extra : List String),
      IsAscii rule.antecedent.toList →
        Rule.substitute profile (rule.references extra) rule.antecedent.toList =
            substituteWhole (fun id => profile.supports (String.ofList id)) rule.antecedent.toList ∧
          (rule.evaluate profile logic extra).status = (rule.evaluate profile logic []).status ∧
          (rule.evaluate profile logic []).steps.Sublist (rule.evaluate profile logic extra).steps := by
  intro h
  have hascii : IsAscii (Rule.mk "A.1" .mandatory .notApplicable).antecedent.toList := by
    simp [IsAscii]
  obtain ⟨-, -, hsteps⟩ := h .empty (Rule.mk "A.1" .mandatory .notApplicable) "" ["A.2"] hascii
  revert hsteps
  decide +kernel

end Applicability.Condition
