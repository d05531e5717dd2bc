import Applicability.Proofs.Condition.Evaluation

namespace Applicability.Condition

open Boolean Capability Text

/-- The second list is the first one without some of the opening parentheses that it starts with and some of the
closing ones that it ends with. -/
def Loses (xs ys : List Lexeme) : Prop :=
  ∃ k m, xs = List.replicate k .opening ++ (ys ++ List.replicate m .closing)

theorem symbols_of_replicate {x : Lexeme} {σ : Symbol Id} {n : Nat} {symbols : List (Symbol Id)}
    (hσ : ∀ τ, Shows τ x → τ = σ) (h : List.Forall₂ Shows symbols (List.replicate n x)) :
    symbols = List.replicate n σ := by
  induction n generalizing symbols with
  | zero =>
    cases h
    rfl
  | succ n ih =>
    cases h with
    | cons hx hxs => rw [hσ _ hx, ih hxs, List.replicate_succ]

theorem Loses.exists_symbols {xs ys : List Lexeme} {symbols : List (Symbol Id)} (h : Loses xs ys)
    (hx : List.Forall₂ Shows symbols xs) :
    ∃ k m rest, symbols = enclosed k m rest ∧ List.Forall₂ Shows rest ys := by
  obtain ⟨k, m, rfl⟩ := h
  obtain ⟨front, others, rfl, hfront, hothers⟩ := Lists.exists_append_of_forall₂ hx
  obtain ⟨rest, back, rfl, hrest, hback⟩ := Lists.exists_append_of_forall₂ hothers
  have hopening : front = List.replicate k .opening := symbols_of_replicate (by rintro τ ⟨⟩; rfl) hfront
  have hclosing : back = List.replicate m .closing := symbols_of_replicate (by rintro τ ⟨⟩; rfl) hback
  exact ⟨k, m, rest, by rw [hopening, hclosing, enclosed], hrest⟩

theorem evaluate_of_mended (profile : Profile) {i t : List Char} {xs ys : List Lexeme}
    {symbols : List (Symbol Id)} {e : Formula Id} {onTrue onFalse : Status} {text : String}
    (hi : Spells "IF" i) (hx : List.Forall₂ Shows symbols xs) (ht : Spells "THEN" t)
    (hys : WritesBranches onTrue onFalse ys) (hd : Derives .disjunction maxDepth (mended symbols) e)
    (hs : Spaced false (.word i :: (xs ++ .word t :: ys)) text.toList) :
    ∃ o, evaluate profile text = .resolved o ∧
      o.status = if e.eval (fun id => profile.supports (String.ofList id.text)) then onTrue else onFalse := by
  obtain ⟨a, ha, hspaced⟩ := classify_of_shows hi hx ht hys hs
  generalize hrule : Rule.mk (String.ofList a) onTrue onFalse = rule at ha
  have hantecedent : rule.antecedent.toList = a := by simp [← hrule]
  rw [← hantecedent] at hspaced
  have hvalue := evaluate_of_derives (fun id : Id => profile.supports (String.ofList id.text))
    (tokens_expression profile (shows_closed hx) hspaced) hd
  refine ⟨rule.evaluate profile (cacheKey text) [], by rw [evaluate, ha], ?_⟩
  rw [status_of_value hvalue, ← hrule]

/-- A rule is resolved alike if parentheses at the ends of its antecedent are lost. -/
theorem evaluate_of_loses (profile : Profile) {i t : List Char} {xs ys zs : List Lexeme} {e : Formula Id}
    {onTrue onFalse : Status} {complete lossy : String} (hi : Spells "IF" i) (hxs : WritesFormula e xs)
    (ht : Spells "THEN" t) (hzs : WritesBranches onTrue onFalse zs) (hloss : Loses xs ys)
    (hcomplete : Spaced false (.word i :: (xs ++ .word t :: zs)) complete.toList)
    (hlossy : Spaced false (.word i :: (ys ++ .word t :: zs)) lossy.toList) :
    ∃ o o', evaluate profile complete = .resolved o ∧ evaluate profile lossy = .resolved o' ∧
      o'.status = o.status ∧
      o.status = if e.eval (fun id => profile.supports (String.ofList id.text)) then onTrue else onFalse := by
  obtain ⟨symbols, hd, hx⟩ := hxs
  obtain ⟨k, m, rest, rfl, hrest⟩ := hloss.exists_symbols hx
  have hwhole : Derives .disjunction maxDepth (mended (enclosed k m rest)) e := by
    rw [mended_of_derives hd]
    exact hd
  obtain ⟨o, ho, hstatus⟩ := evaluate_of_mended profile hi hx ht hzs hwhole hcomplete
  obtain ⟨o', ho', hstatus'⟩ := evaluate_of_mended profile hi hrest ht hzs (derives_mended hd) hlossy
  exact ⟨o, o', ho, ho', hstatus'.trans hstatus.symm, hstatus⟩

theorem evaluate_of_loses_apart :
    ∃ o o', evaluate (.ofList [("A.1", true)]) "IF (A.1) AND (NOT(A.2)) THEN M" = .resolved o ∧
      evaluate (.ofList [("A.1", true)]) "IF A.1) AND (NOT(A.2 THEN M" = .resolved o' ∧
        o'.status = o.status ∧ o.status = .mandatory := by
  let a : Id := ⟨"A.1".toList, by decide⟩
  let b : Id := ⟨"A.2".toList, by decide⟩
  let inner : List Lexeme := [.word a.text, .closing, .word "AND".toList, .opening, .word "NOT".toList,
    .opening, .word b.text]
  let outer : List Lexeme := List.replicate 1 .opening ++ (inner ++ List.replicate 2 .closing)
  have hparens : ∀ (id : Id) (n : Nat),
      Derives .operand (n + 1) (.opening :: ([.atom id] ++ [.closing])) (.atom id) := fun id n =>
    .parens (.conjunction (.operand (.atom id)))
  have hderives : Derives .disjunction maxDepth
      ((.opening :: ([.atom a] ++ [.closing])) ++
        .conj :: (.opening :: ((.neg :: (.opening :: ([.atom b] ++ [.closing]))) ++ [.closing])))
      (.conj (.atom a) (.neg (.atom b))) :=
    .conjunction (.conj (.operand (hparens a 255))
      (.parens (.conjunction (.operand (.neg (hparens b 253))))))
  have hshows : List.Forall₂ Shows _ outer :=
    .cons .opening <| .cons (.atom a) <| .cons .closing <| .cons (.conj rfl) <| .cons .opening <|
    .cons (.neg rfl) <| .cons .opening <| .cons (.atom b) <| .cons .closing <| .cons .closing .nil
  have hif : Spells "IF" "IF".toList := rfl
  have hthen : Spells "THEN" "THEN".toList := rfl
  have hbranches : WritesBranches .mandatory .notApplicable [.word "M".toList] := .short ⟨rfl, by decide⟩
  have hcomplete : Spaced false (.word "IF".toList :: (outer ++ .word "THEN".toList :: [.word "M".toList]))
      "IF (A.1) AND (NOT(A.2)) THEN M".toList :=
    .cons (g := []) (by decide) (by decide) <| .cons (g := [' ']) (by decide) (by decide) <|
    .cons (g := []) (by decide) (by decide) <| .cons (g := []) (by decide) (by decide) <|
    .cons (g := [' ']) (by decide) (by decide) <| .cons (g := [' ']) (by decide) (by decide) <|
    .cons (g := []) (by decide) (by decide) <| .cons (g := []) (by decide) (by decide) <|
    .cons (g := []) (by decide) (by decide) <| .cons (g := []) (by decide) (by decide) <|
    .cons (g := []) (by decide) (by decide) <| .cons (g := [' ']) (by decide) (by decide) <|
    .cons (g := [' ']) (by decide) (by decide) <| .nil (by decide)
  have hlossy : Spaced false (.word "IF".toList :: (inner ++ .word "THEN".toList :: [.word "M".toList]))
      "IF A.1) AND (NOT(A.2 THEN M".toList :=
    .cons (g := []) (by decide) (by decide) <| .cons (g := [' ']) (by decide) (by decide) <|
    .cons (g := []) (by decide) (by decide) <| .cons (g := [' ']) (by decide) (by decide) <|
    .cons (g := [' ']) (by decide) (by decide) <| .cons (g := []) (by decide) (by decide) <|
    .cons (g := []) (by decide) (by decide) <| .cons (g := []) (by decide) (by decide) <|
    .cons (g := [' ']) (by decide) (by decide) <| .cons (g := [' ']) (by decide) (by decide) <| .nil (by decide)
  obtain ⟨o, o', ho, ho', hsame, hstatus⟩ := evaluate_of_loses (.ofList [("A.1", true)]) hif
    ⟨_, hderives, hshows⟩ hthen hbranches ⟨1, 2, rfl⟩ hcomplete hlossy
  exact ⟨o, o', ho, ho', hsame, hstatus⟩

end Applicability.Condition
