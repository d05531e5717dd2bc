import Applicability.Proofs.Catalog.Shapes
import Applicability.Proofs.Condition.Plain
import Mathlib.Logic.Relation

namespace Applicability.Catalog

open Text

def SameId (a b : String) : Prop :=
  List.Forall₂ (fun c d => c.toUpper = d.toUpper) (trim a.toList) (trim b.toList)

theorem sameId_iff {a b : String} : SameId a b ↔ normalId a = normalId b := by
  rw [SameId, normalId, normalId, String.ofList_inj, upper, upper, ← List.forall₂_eq_eq_eq, List.forall₂_map_left_iff,
    List.forall₂_map_right_iff]

def Plain (reference : String) : Prop :=
  trim reference.toList = [] ∨ ∃ status, Condition.SpellsStatus status (trim reference.toList)

/-- What a reference stands for: itself if it is plain, the last of the definitions of its id, and itself again if
there is none. -/
inductive Resolves (pairs : List (String × String)) (reference : String) : String → Prop
  | plain (h : Plain reference) : Resolves pairs reference (trimmed reference)
  | named {before after : List (String × String)} {p : String × String} (hplain : ¬Plain reference)
      (hpairs : pairs = before ++ p :: after) (hp : SameId p.1 reference) (hlast : ∀ q ∈ after, ¬SameId q.1 reference) :
      Resolves pairs reference p.2
  | unnamed (hplain : ¬Plain reference) (h : ∀ p ∈ pairs, ¬SameId p.1 reference) :
      Resolves pairs reference (trimmed reference)

/-- Neighbours that define different ids change places, or an id is spelled in another way. -/
inductive Rearranges : List (String × String) → List (String × String) → Prop
  | swap {p q : String × String} (before after : List (String × String)) (h : ¬SameId p.1 q.1) :
      Rearranges (before ++ p :: q :: after) (before ++ q :: p :: after)
  | respell {id id' : String} (before : List (String × String)) (expression : String) (after : List (String × String))
      (h : SameId id id') : Rearranges (before ++ (id, expression) :: after) (before ++ (id', expression) :: after)

section Latest

variable {id : String} {pairs pairs' : List (String × String)}

theorem latest_append (id : String) (pairs pairs' : List (String × String)) :
    latest id (pairs ++ pairs') = (latest id pairs').or (latest id pairs) := by
  by_cases hid : id = ""
  · simp [latest, hid]
  · simp [latest, hid, List.find?_append, Option.map_or]

theorem latest_cons (p : String × String) (pairs : List (String × String)) :
    latest id (p :: pairs) = (latest id pairs).or (latest id [p]) :=
  latest_append id [p] pairs

theorem latest_singleton (id : String) (p : String × String) :
    latest id [p] = if id ≠ "" ∧ normalId p.1 = id then some p.2 else none := by
  by_cases hid : id = "" <;> by_cases hp : normalId p.1 = id <;> simp [latest, hid, hp]

theorem latest_split {before after : List (String × String)} {p : String × String} (hid : id ≠ "")
    (hp : normalId p.1 = id) (hlast : ∀ q ∈ after, normalId q.1 ≠ id) :
    latest id (before ++ p :: after) = some p.2 := by
  rw [List.append_cons, latest_append, latest_of_forall_ne hlast, latest_append, latest_singleton, if_pos ⟨hid, hp⟩]
  rfl

theorem exists_split (h : ∃ p ∈ pairs, normalId p.1 = id) :
    ∃ before p after, pairs = before ++ p :: after ∧ normalId p.1 = id ∧ ∀ q ∈ after, normalId q.1 ≠ id := by
  induction pairs with
  | nil =>
    obtain ⟨p, hp, -⟩ := h
    cases hp
  | cons p pairs ih =>
    by_cases hrest : ∃ q ∈ pairs, normalId q.1 = id
    · obtain ⟨before, q, after, rfl, hq⟩ := ih hrest
      exact ⟨p :: before, q, after, rfl, hq⟩
    · obtain ⟨q, hq, hid⟩ := h
      rcases List.mem_cons.mp hq with rfl | hq
      · exact ⟨[], q, pairs, rfl, hid, fun r hr heq => hrest ⟨r, hr, heq⟩⟩
      · exact absurd ⟨q, hq, hid⟩ hrest

theorem Rearranges.latest_eq (h : Rearranges pairs pairs') (id : String) : latest id pairs' = latest id pairs := by
  cases h with
  | @swap p q before after hne =>
    rw [sameId_iff] at hne
    -- At most one of the two neighbours has the id.
    have hcomm : ∀ o : Option String,
        (o.or (latest id [q])).or (latest id [p]) = (o.or (latest id [p])).or (latest id [q]) := by
      intro o
      rw [latest_singleton, latest_singleton]
      by_cases hp : normalId p.1 = id
      · have hq : normalId q.1 ≠ id := fun hq => hne (hp.trans hq.symm)
        simp [hq]
      · simp [hp]
    rw [latest_append, latest_append, latest_cons q, latest_cons p after, latest_cons p (q :: after),
      latest_cons q after, hcomm]
  | @respell id₀ id' before expression after hsame =>
    rw [sameId_iff] at hsame
    have hrespell : latest id [(id', expression)] = latest id [(id₀, expression)] := by
      rw [latest_singleton, latest_singleton, hsame]
    rw [latest_append, latest_append, latest_cons, latest_cons (id₀, _), hrespell]

theorem latest_eq_of_rearranges (h : Relation.ReflTransGen Rearranges pairs pairs') (id : String) :
    latest id pairs' = latest id pairs := by
  induction h with
  | refl => rfl
  | tail _ hstep ih => exact (hstep.latest_eq id).trans ih

end Latest

section Expressions

variable {pairs pairs' : List (String × String)} {reference reference' expression : String}

theorem plain_iff : Plain reference ↔
    ((trim reference.toList).isEmpty || (Status.ofLiteral? (trim reference.toList)).isSome) = true := by
  simp only [Plain, Bool.or_eq_true, List.isEmpty_iff, Option.isSome_iff_exists, Condition.ofLiteral?_eq_some_iff,
    trim_trim]

theorem expressionFor_of_plain (h : Plain reference) (conditions : Conditions) :
    expressionFor reference conditions = trimmed reference := by
  rw [expressionFor, if_pos (plain_iff.mp h)]
  rfl

theorem expressionFor_of_not_plain (h : ¬Plain reference) (pairs : List (String × String)) :
    expressionFor reference (.collect pairs) = (latest (normalId reference) pairs).getD (trimmed reference) := by
  have hid : normalId (String.ofList (trim reference.toList)) = normalId reference := by
    rw [normalId, String.toList_ofList, trim_trim, normalId]
  rw [expressionFor, if_neg (mt plain_iff.mpr h), hid, get?_collect]
  rfl

theorem normalId_ne_empty (h : ¬Plain reference) : normalId reference ≠ "" := by
  intro hempty
  apply h
  left
  simpa [normalId, upper] using hempty

theorem expressionFor_of_resolves (h : Resolves pairs reference expression) :
    expressionFor reference (.collect pairs) = expression := by
  cases h with
  | plain h => exact expressionFor_of_plain h _
  | named hplain hpairs hp hlast =>
    simp only [sameId_iff] at hp hlast
    rw [expressionFor_of_not_plain hplain, hpairs, latest_split (normalId_ne_empty hplain) hp hlast]
    rfl
  | unnamed hplain h =>
    simp only [sameId_iff] at h
    rw [expressionFor_of_not_plain hplain, latest_of_forall_ne h]
    rfl

theorem exists_resolves (pairs : List (String × String)) (reference : String) :
    ∃ expression, Resolves pairs reference expression := by
  by_cases hplain : Plain reference
  · exact ⟨_, .plain hplain⟩
  by_cases hsome : ∃ p ∈ pairs, normalId p.1 = normalId reference
  · obtain ⟨before, p, after, hpairs, hp, hlast⟩ := exists_split hsome
    simp only [ne_eq, ← sameId_iff] at hp hlast
    exact ⟨_, .named hplain hpairs hp hlast⟩
  · refine ⟨_, .unnamed hplain fun p hp hsame => hsome ⟨p, hp, sameId_iff.mp hsame⟩⟩

theorem expressionFor_eq_iff :
    expressionFor reference (.collect pairs) = expression ↔ Resolves pairs reference expression := by
  refine ⟨?_, expressionFor_of_resolves⟩
  rintro rfl
  obtain ⟨expression, h⟩ := exists_resolves pairs reference
  rwa [expressionFor_of_resolves h]

theorem plain_congr (h : SameId reference' reference) : Plain reference' ↔ Plain reference := by
  have hupper : upper (trim reference'.toList) = upper (trim reference.toList) := String.ofList_inj.mp (sameId_iff.mp h)
  have hplain : ∀ r, Plain r ↔
      upper (trim r.toList) = [] ∨ ∃ status : Status, upper (trim r.toList) = status.token.toList ∧ status ≠ .error := by
    intro r
    rw [Plain, upper, List.map_eq_nil_iff]
    refine or_congr_right (exists_congr fun status => ?_)
    exact ⟨fun h => ⟨h.1, h.2⟩, fun h => ⟨h.1, h.2⟩⟩
  rw [hplain, hplain, hupper]

theorem expressionFor_of_rearranges (h : Relation.ReflTransGen Rearranges pairs pairs') (reference : String) :
    expressionFor reference (.collect pairs') = expressionFor reference (.collect pairs) := by
  by_cases hplain : Plain reference
  · rw [expressionFor_of_plain hplain, expressionFor_of_plain hplain]
  · rw [expressionFor_of_not_plain hplain, expressionFor_of_not_plain hplain, latest_eq_of_rearranges h]

theorem expressionFor_of_trim (h : trim reference'.toList = trim reference.toList) (conditions : Conditions) :
    expressionFor reference' conditions = expressionFor reference conditions := by
  rw [expressionFor, expressionFor, h]

theorem expressionFor_of_sameId (h : SameId reference' reference) (hplain : ¬Plain reference)
    (hsome : ∃ p ∈ pairs, SameId p.1 reference) :
    expressionFor reference' (.collect pairs) = expressionFor reference (.collect pairs) := by
  simp only [sameId_iff] at hsome
  obtain ⟨before, p, after, rfl, hp, hlast⟩ := exists_split hsome
  rw [expressionFor_of_not_plain (mt (plain_congr h).mp hplain), expressionFor_of_not_plain hplain, sameId_iff.mp h,
    latest_split (normalId_ne_empty hplain) hp hlast]
  rfl

/-- A reference stands for the expression that it resolves to. Definitions of different ids may change places and ids
may be spelled in any way without a change of it. So may the reference where it names a definition; where it stands for
itself, the white space around it does not count, and its letter case does. -/
theorem expressionFor_collect (pairs : List (String × String)) (reference : String) :
    (∀ expression, expressionFor reference (.collect pairs) = expression ↔ Resolves pairs reference expression) ∧
      (∀ pairs', Relation.ReflTransGen Rearranges pairs pairs' →
        expressionFor reference (.collect pairs') = expressionFor reference (.collect pairs)) ∧
      (∀ reference', trim reference'.toList = trim reference.toList →
        expressionFor reference' (.collect pairs) = expressionFor reference (.collect pairs)) ∧
      ∀ reference', SameId reference' reference →
        (¬Plain reference → (∃ p ∈ pairs, SameId p.1 reference) →
          expressionFor reference' (.collect pairs) = expressionFor reference (.collect pairs)) ∧
        (Plain reference ∨ (∀ p ∈ pairs, ¬SameId p.1 reference) →
          expressionFor reference' (.collect pairs) = trimmed reference') := by
  refine ⟨fun _ => expressionFor_eq_iff, fun _ h => expressionFor_of_rearranges h reference,
    fun _ h => expressionFor_of_trim h _, fun reference' h => ⟨expressionFor_of_sameId h, ?_⟩⟩
  intro hself
  by_cases hplain : Plain reference'
  · exact expressionFor_of_plain hplain _
  · have hnone := hself.resolve_left (mt (plain_congr h).mpr hplain)
    apply expressionFor_of_resolves
    refine .unnamed hplain fun p hp hsame => hnone p hp ?_
    rw [sameId_iff] at hsame h ⊢
    exact hsame.trans h

theorem expressionFor_collect_spellings :
    let pairs := [("c1", "O"), ("C1 ", "IF A.1 THEN M"), ("c2", "R")]
    let pairs' := [("c1", "O"), ("C2", "R"), ("C1 ", "IF A.1 THEN M")]
    expressionFor "C1" (.collect pairs) = "IF A.1 THEN M" ∧ expressionFor " c1" (.collect pairs') = "IF A.1 THEN M" := by
  intro pairs pairs'
  have hsame : ∀ {a b : String}, normalId a = normalId b → SameId a b := sameId_iff.mpr
  have hplain : ¬Plain "C1" := by
    rw [plain_iff]
    decide
  obtain ⟨hresolves, hrearranges, -, -⟩ := expressionFor_collect pairs "C1"
  have hnamed : Resolves pairs "C1" "IF A.1 THEN M" := by
    refine @Resolves.named pairs "C1" [("c1", "O")] [("c2", "R")] ("C1 ", "IF A.1 THEN M") hplain rfl
      (hsame (by decide)) ?_
    rw [List.forall_mem_singleton, sameId_iff]
    decide
  have hswapped : Relation.ReflTransGen Rearranges pairs pairs' := by
    have hspelled : SameId "c2" "C2" := hsame (by decide)
    refine .tail (.single (.respell [("c1", "O"), ("C1 ", "IF A.1 THEN M")] "R" [] hspelled)) ?_
    exact .swap [("c1", "O")] [] (by rw [sameId_iff]; decide)
  have hfirst := (hresolves _).mpr hnamed
  obtain ⟨-, -, -, hspelled⟩ := expressionFor_collect pairs' "C1"
  have hrespelled := (hspelled " c1" (hsame (by decide))).1 hplain ⟨("c1", "O"), by simp [pairs'], hsame (by decide)⟩
  exact ⟨hfirst, hrespelled.trans ((hrearranges pairs' hswapped).trans hfirst)⟩

theorem not_expressionFor_eq_of_sameId :
    ¬∀ (pairs : List (String × String)) (reference reference' : String), SameId reference' reference →
      expressionFor reference' (.collect pairs) = expressionFor reference (.collect pairs) := by
  intro h
  have heq := h [] "IF A.1 THEN M" "if a.1 then m" (sameId_iff.mpr (by decide))
  revert heq
  decide

end Expressions

end Applicability.Catalog
