import Applicability.Proofs.Capability.Profile
import Applicability.Proofs.Condition.Operators
import Applicability.Proofs.Condition.Rule

namespace Applicability.Condition

open Boolean Capability Text

theorem assign_of_not_mem {v : List Char → Bool} {refs : List (List Char)} {w : List Char}
    (hrefs : ∀ r ∈ refs, ∃ id : Id, r = id.text) (hw : hasSeparator w = false) : assign v refs w = w := by
  refine if_neg fun hmem => ?_
  obtain ⟨id, rfl⟩ := hrefs w hmem
  rw [hasSeparator_id] at hw
  exact absurd hw (by decide)

theorem spelled_assign {v : List Char → Bool} {refs : List (List Char)} {symbols : List (Symbol Id)}
    {xs : List Lexeme} (hrefs : ∀ r ∈ refs, ∃ id : Id, r = id.text)
    (hatoms : ∀ id : Id, .atom id ∈ symbols → id.text ∈ refs) (hx : List.Forall₂ Shows symbols xs) :
    List.Forall₂ (Spelled (fun id => v id.text) (Spells "AND") (Spells "OR") (Spells "NOT")) symbols
      (xs.map (Lexeme.mapWord (assign v refs))) := by
  induction hx with
  | nil => exact .nil
  | @cons σ x symbols xs h _ ih =>
    refine .cons ?_ (ih fun id hid => hatoms id (List.mem_cons_of_mem _ hid))
    cases h with
    | atom id =>
      have hmem := hatoms id List.mem_cons_self
      rw [Lexeme.mapWord, assign, if_pos hmem]
      exact .atom id
    | conj h =>
      rw [Lexeme.mapWord, assign_of_not_mem hrefs (hasSeparator_of_isAlphanum (h.isAlphanum (by decide)))]
      exact .conj h
    | disj h =>
      rw [Lexeme.mapWord, assign_of_not_mem hrefs (hasSeparator_of_isAlphanum (h.isAlphanum (by decide)))]
      exact .disj h
    | neg h =>
      rw [Lexeme.mapWord, assign_of_not_mem hrefs (hasSeparator_of_isAlphanum (h.isAlphanum (by decide)))]
      exact .neg h
    | opening => exact .opening
    | closing => exact .closing

theorem substitute_eq (profile : Profile) (rule : Rule) (extra : List String) :
    Rule.substitute profile (rule.references extra) rule.antecedent.toList =
      (references rule.antecedent.toList (extra.map String.toList)).foldl
        (fun text r => replaceWhole r (constant (profile.supports (String.ofList r))) text)
        rule.antecedent.toList := by
  simp [Rule.substitute, Rule.references, List.foldl_map, constant]

theorem expression_snd (profile : Profile) (rule : Rule) (extra : List String) :
    (rule.expression profile extra).2 =
      (balance (writeOperators
        (Rule.substitute profile (rule.references extra) rule.antecedent.toList))).1 := by
  rw [Rule.expression]

theorem status_of_value {profile : Profile} {rule : Rule} {logic : String} {extra : List String} {b : Bool}
    (h : Boolean.evaluate (rule.expression profile extra).2 = .ok b) :
    (rule.evaluate profile logic extra).status = if b then rule.onTrue else rule.onFalse := by
  simp only [Rule.evaluate, h, Outcome.of]

theorem tokens_expression (profile : Profile) {rule : Rule} {symbols : List (Symbol Id)} {xs : List Lexeme}
    (hx : List.Forall₂ Shows symbols xs) (hs : Spaced false xs rule.antecedent.toList) :
    tokens (rule.expression profile []).2 =
      .ok ((evened symbols).map (Symbol.token fun id => profile.supports (String.ofList id.text))) := by
  have hrefs : ∀ r ∈ references rule.antecedent.toList [], ∃ id : Id, r = id.text := fun _ hr =>
    exists_id_of_mem_references hr
  have hatoms : ∀ id : Id, .atom id ∈ symbols → id.text ∈ references rule.antecedent.toList [] :=
    fun id hid => (mem_references hx hs).mpr ⟨id, hid, rfl⟩
  have hwords : ∀ w, .word w ∈ xs → hasSeparator w = true → w ∈ references rule.antecedent.toList [] := by
    intro w hw hsep
    obtain ⟨σ, hmem, h⟩ := Lists.exists_left_of_mem hx hw
    cases h with
    | atom id => exact hatoms id hmem
    | conj h | disj h | neg h =>
      rw [hasSeparator_of_isAlphanum (h.isAlphanum (by decide))] at hsep
      exact absurd hsep (by decide)
  let v : List Char → Bool := fun r => profile.supports (String.ofList r)
  have hsub := spaced_foldl_replaceWhole (v := v) (descending_references _ _) hrefs (forall₂_proper hx) hwords hs
  rw [expression_snd, substitute_eq]
  exact tokens_writeOperators (spelled_assign (v := v) hrefs hatoms hx) hsub

theorem evaluate_expression (items : List Item) {rule : Rule} {e : Formula Id} {xs : List Lexeme}
    (hxs : WritesFormula e xs) (hs : Spaced false xs rule.antecedent.toList) :
    Boolean.evaluate (rule.expression (profile items) []).2 = .ok (e.eval (declares items)) := by
  obtain ⟨symbols, hd, hx⟩ := hxs
  have htokens := tokens_expression (profile items) hx hs
  rw [evened_of_excess hd.excess] at htokens
  have hdeclares : (fun id : Id => (profile items).supports (String.ofList id.text)) = declares items :=
    funext fun id => supports_profile items id
  rw [hdeclares] at htokens
  exact evaluate_of_derives (declares items) htokens hd

/-- A written rule is resolved with the status for the value of its formula, where the ids have the values
that the items declare. -/
theorem evaluate_of_writesRule (items : List Item) {text : String} {e : Formula Id}
    {onTrue onFalse : Status} {xs : List Lexeme} (h : WritesRule e onTrue onFalse xs)
    (hs : Spaced false xs text.toList) :
    ∃ o, evaluate (profile items) text = .resolved o ∧
      o.status = if e.eval (declares items) then onTrue else onFalse := by
  obtain ⟨a, zs, hclass, hzs, hspaced⟩ := classify_of_spaced h hs
  refine ⟨_, by rw [evaluate, hclass], ?_⟩
  have hvalue : Boolean.evaluate (Rule.expression (profile items) ⟨String.ofList a, onTrue, onFalse⟩ []).2 =
      .ok (e.eval (declares items)) := evaluate_expression items hzs (by simpa using hspaced)
  simp only [Rule.evaluate, hvalue, Outcome.of]

theorem evaluate_of_writesRule_overlapping :
    ∃ o, evaluate (profile [⟨"A.1", .flag true⟩, ⟨" A.1.2", .text "yes"⟩, ⟨"A.1", .count 0⟩])
        "If NOT(A.1)and  A.1.2 THEN m" = .resolved o ∧ o.status = .mandatory := by
  let short : Id := ⟨"A.1".toList, by decide⟩
  let long : Id := ⟨"A.1.2".toList, by decide⟩
  let symbols : List (Symbol Id) := [.neg, .opening, .atom short, .closing, .conj, .atom long]
  let lexemes : List Lexeme := [.word "NOT".toList, .opening, .word "A.1".toList, .closing,
    .word "and".toList, .word "A.1.2".toList]
  have hshort : Derives .disjunction 254 [.atom short] (.atom short) :=
    .conjunction (.operand (.atom short))
  have hneg : Derives .operand maxDepth (.neg :: .opening :: ([.atom short] ++ [.closing]))
      (.neg (.atom short)) := .neg (.parens hshort)
  have hderives : Derives .disjunction maxDepth symbols (.conj (.neg (.atom short)) (.atom long)) :=
    .conjunction (.conj (.operand hneg) (.atom long))
  have hshows : List.Forall₂ Shows symbols lexemes :=
    .cons (.neg rfl) (.cons .opening (.cons (.atom short) (.cons .closing
      (.cons (.conj rfl) (.cons (.atom long) .nil)))))
  have hrule : WritesRule (.conj (.neg (.atom short)) (.atom long)) .mandatory .notApplicable
      (.word "If".toList :: (lexemes ++ .word "THEN".toList :: [.word "m".toList])) :=
    .intro rfl ⟨symbols, hderives, hshows⟩ rfl (.short ⟨rfl, by decide⟩)
  have hspaced : Spaced false (.word "If".toList :: (lexemes ++ .word "THEN".toList :: [.word "m".toList]))
      "If NOT(A.1)and  A.1.2 THEN m".toList :=
    .cons (g := []) (by decide) (by decide) <|
    .cons (g := [' ']) (by decide) (by decide) <|
    .cons (g := []) (by decide) (by decide) <|
    .cons (g := []) (by decide) (by decide) <|
    .cons (g := []) (by decide) (by decide) <|
    .cons (g := []) (by decide) (by decide) <|
    .cons (g := [' ', ' ']) (by decide) (by decide) <|
    .cons (g := [' ']) (by decide) (by decide) <|
    .cons (g := [' ']) (by decide) (by decide) <|
    .nil (by decide)
  exact evaluate_of_writesRule _ hrule hspaced

end Applicability.Condition
