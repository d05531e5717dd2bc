import Applicability.Proofs.Boolean.Grammar
import Applicability.Proofs.Boolean.Lexing

namespace Applicability.Boolean

open Text

section Scanning

theorem head?_dropWhile_all (p : Char → Bool) (s : List Char) :
    (s.dropWhile p).head?.all (fun c => !p c) = true := by
  have h := List.head?_dropWhile_not p s
  cases hs : (s.dropWhile p).head? with
  | none => rfl
  | some c => simp_all

theorem writes_of_tokenAt? {s : List Char} {t : Token} {n : Nat} (h : tokenAt? s = some (t, n)) :
    ∃ w r, s = w ++ r ∧ w.length = n + 1 ∧ Writes t w ∧
      ∀ b, t = .value b → r.head?.all (fun c => !isWordPart c) := by
  unfold tokenAt? at h
  split at h
  case h_6 =>
    have hsplit : s = s.takeWhile isWordPart ++ s.dropWhile isWordPart :=
      List.takeWhile_append_dropWhile.symm
    refine ⟨_, _, hsplit, ?_⟩
    have hend := head?_dropWhile_all isWordPart s
    have hlength : (upper (s.takeWhile isWordPart)).length = (s.takeWhile isWordPart).length :=
      List.length_map _
    split at h
    · rename_i hword
      cases h
      rw [hword] at hlength
      exact ⟨hlength.symm, hword, fun _ _ => hend⟩
    · rename_i hword
      cases h
      rw [hword] at hlength
      exact ⟨hlength.symm, hword, fun _ _ => hend⟩
    · cases h
  all_goals
    cases h
    exact ⟨_, _, rfl, rfl, rfl, by simp⟩

theorem lexes_of_tokens {s : List Char} {ts : List Token} (h : tokens s = .ok ts) : Lexes s ts := by
  unfold tokens at h
  induction hn : s.length using Nat.strong_induction_on generalizing s ts with
  | _ n ih =>
    cases s with
    | nil =>
      cases h
      exact .nil
    | cons c s =>
      rw [tokensFrom] at h
      split at h
      · rename_i hc
        exact .blank hc (ih s.length (by simp [← hn]) h rfl)
      · split at h
        · rename_i t m ht
          obtain ⟨w, r, hs, hlength, hw, hend⟩ := writes_of_tokenAt? ht
          obtain ⟨d, w, rfl⟩ := List.exists_cons_of_length_eq_add_one hlength
          obtain ⟨rfl, rfl⟩ : c = d ∧ s = w ++ r := by simpa using hs
          obtain rfl : w.length = m := by simpa using hlength
          rw [tokensFrom_length] at h
          split at h
          · rename_i us hus
            cases h
            have hr : r.length < n := by
              simp only [List.length_cons, List.length_append] at hn
              omega
            exact .token hw hend (ih r.length hr hus rfl)
          · cases h
        · cases h

theorem tokens_eq_ok_iff {s : List Char} {ts : List Token} : tokens s = .ok ts ↔ Lexes s ts :=
  ⟨lexes_of_tokens, tokens_of_lexes⟩

theorem tokensFrom_eq_error {skip : Nat} {s : List Char} {err : Error}
    (h : tokensFrom skip s = .error err) : ∃ shown, err = .unexpectedInput shown := by
  induction s generalizing skip with
  | nil => cases skip <;> cases h
  | cons c s ih =>
    cases skip with
    | succ skip => exact ih h
    | zero =>
      rw [tokensFrom] at h
      split at h
      · exact ih h
      split at h
      · split at h
        · cases h
        · rename_i hrest
          cases h
          exact ih hrest
      · cases h
        exact ⟨_, rfl⟩

theorem lexes_nil_iff {s : List Char} : Lexes s [] ↔ ∀ c ∈ s, isBlank c = true := by
  constructor
  · intro h
    generalize hts : ([] : List Token) = ts at h
    induction h with
    | nil => simp
    | blank hc _ ih => exact List.forall_mem_cons.mpr ⟨hc, ih hts⟩
    | token => cases hts
  · intro h
    simpa using Lexes.nil.blanks h

end Scanning

section Chains

variable {op : Token} {join : Expr → Expr → Expr} {read : List Token → Parsed}

theorem chainFrom_induction {Q : List Token → Expr → Prop} {P : List Token → List Token → Expr → Prop}
    (hread : ∀ ts e rest, read ts = .ok (e, rest) → P ts rest e)
    (hjoin : ∀ ts rest acc e, Q (op :: ts) acc → P ts rest e → Q rest (join acc e)) {n : Nat}
    {acc e : Expr} {ts rest : List Token} (hacc : Q ts acc)
    (h : chainFrom op join read n acc ts = .ok (e, rest)) : Q rest e := by
  induction n generalizing acc ts with
  | zero =>
    cases h
    exact hacc
  | succ n ih =>
    cases ts with
    | nil =>
      cases h
      exact hacc
    | cons t ts =>
      rw [chainFrom] at h
      split at h
      · rename_i ht
        subst ht
        split at h
        · rename_i e' rest' hr
          exact ih (hjoin ts rest' acc e' hacc (hread ts e' rest' hr)) h
        · cases h
      · cases h
        exact hacc

theorem chain_induction {Q : List Token → Expr → Prop} {P : List Token → List Token → Expr → Prop}
    (hread : ∀ ts e rest, read ts = .ok (e, rest) → P ts rest e)
    (hjoin : ∀ ts rest acc e, Q (op :: ts) acc → P ts rest e → Q rest (join acc e))
    {e : Expr} {ts rest : List Token} (hfirst : ∀ e rest, P ts rest e → Q rest e)
    (h : chain op join read ts = .ok (e, rest)) : Q rest e := by
  rw [chain] at h
  split at h
  · rename_i e' rest' hr
    exact chainFrom_induction hread hjoin (hfirst e' rest' (hread ts e' rest' hr)) h
  · cases h

theorem chainFrom_eq_error {n : Nat} {acc : Expr} {ts : List Token} {err : Error}
    (h : chainFrom op join read n acc ts = .error err) : ∃ us, read us = .error err := by
  induction n generalizing acc ts with
  | zero => cases h
  | succ n ih =>
    cases ts with
    | nil => cases h
    | cons t ts =>
      rw [chainFrom] at h
      split at h
      · split at h
        · exact ih h
        · rename_i hr
          cases h
          exact ⟨ts, hr⟩
      · cases h

theorem chain_eq_error {ts : List Token} {err : Error} (h : chain op join read ts = .error err) :
    ∃ us, read us = .error err := by
  rw [chain] at h
  split at h
  · exact chainFrom_eq_error h
  · rename_i hr
    cases h
    exact ⟨ts, hr⟩

end Chains

section Parsing

def tokensOf (symbols : List (Symbol Bool)) : List Token :=
  symbols.map (Symbol.token id)

def Reaches (level : Level) (d : Nat) (ts rest : List Token) (e : Expr) : Prop :=
  ∃ symbols f, ts = tokensOf symbols ++ rest ∧ Derives level d symbols f ∧ f.under id = e

theorem Reaches.conjunction {d : Nat} {ts rest : List Token} {e : Expr}
    (h : ∀ ts e rest, operand d ts = .ok (e, rest) → Reaches .operand d ts rest e)
    (hc : chain .conj .conj (operand d) ts = .ok (e, rest)) : Reaches .conjunction d ts rest e := by
  refine chain_induction (Q := Reaches .conjunction d ts) h ?_ ?_ hc
  · rintro us rest l r ⟨ls, f, hls, hf, rfl⟩ ⟨rs, g, rfl, hg, rfl⟩
    refine ⟨ls ++ .conj :: rs, .conj f g, ?_, .conj hf hg, rfl⟩
    simp [hls, tokensOf, Symbol.token]
  · rintro e rest ⟨us, f, rfl, hf, rfl⟩
    exact ⟨us, f, rfl, .operand hf, rfl⟩

theorem Reaches.disjunction {d : Nat} {ts rest : List Token} {e : Expr}
    (h : ∀ ts e rest, operand d ts = .ok (e, rest) → Reaches .operand d ts rest e)
    (hd : Boolean.disjunction (operand d) ts = .ok (e, rest)) : Reaches .disjunction d ts rest e := by
  refine chain_induction (Q := Reaches .disjunction d ts) (fun us e rest => Reaches.conjunction h) ?_ ?_ hd
  · rintro us rest l r ⟨ls, f, hls, hf, rfl⟩ ⟨rs, g, rfl, hg, rfl⟩
    refine ⟨ls ++ .disj :: rs, .disj f g, ?_, .disj hf hg, rfl⟩
    simp [hls, tokensOf, Symbol.token]
  · rintro e rest ⟨us, f, rfl, hf, rfl⟩
    exact ⟨us, f, rfl, .conjunction hf, rfl⟩

theorem operand_cases {d : Nat} {ts rest : List Token} {e : Expr} (h : operand d ts = .ok (e, rest)) :
    (∃ b, ts = .value b :: rest ∧ e = .value b) ∨
      (∃ n us r, d = n + 1 ∧ ts = .neg :: us ∧ operand n us = .ok (r, rest) ∧ e = .neg r) ∨
      ∃ n us, d = n + 1 ∧ ts = .opening :: us ∧
        Boolean.disjunction (operand n) us = .ok (e, .closing :: rest) := by
  cases ts with
  | nil => cases d <;> cases h
  | cons t us =>
    cases t with
    | value b =>
      left
      cases d <;> cases h <;> exact ⟨b, rfl, rfl⟩
    | conj | disj | closing => cases d <;> cases h
    | neg =>
      cases d with
      | zero => cases h
      | succ n =>
        simp only [operand] at h
        split at h
        · rename_i r _ hr
          cases h
          exact .inr (.inl ⟨n, us, r, rfl, rfl, hr, rfl⟩)
        · cases h
    | opening =>
      cases d with
      | zero => cases h
      | succ n =>
        simp only [operand] at h
        split at h
        · rename_i hr
          cases h
          exact .inr (.inr ⟨n, us, rfl, rfl, hr⟩)
        all_goals cases h

theorem reaches_of_operand {d : Nat} {ts rest : List Token} {e : Expr}
    (h : operand d ts = .ok (e, rest)) : Reaches .operand d ts rest e := by
  induction d generalizing ts rest e with
  | zero =>
    rcases operand_cases h with ⟨b, rfl, rfl⟩ | ⟨n, us, r, hn, -⟩ | ⟨n, us, hn, -⟩
    · exact ⟨[.atom b], .atom b, rfl, .atom b, rfl⟩
    · omega
    · omega
  | succ d ih =>
    rcases operand_cases h with ⟨b, rfl, rfl⟩ | ⟨n, us, r, hn, rfl, hr, rfl⟩ | ⟨n, us, hn, rfl, hr⟩
    · exact ⟨[.atom b], .atom b, rfl, .atom b, rfl⟩
    · obtain rfl : d = n := by omega
      obtain ⟨vs, f, rfl, hf, rfl⟩ := ih hr
      exact ⟨.neg :: vs, .neg f, rfl, .neg hf, rfl⟩
    · obtain rfl : d = n := by omega
      obtain ⟨vs, f, rfl, hf, rfl⟩ := Reaches.disjunction (fun _ _ _ => ih) hr
      refine ⟨.opening :: (vs ++ [.closing]), f, ?_, .parens hf, rfl⟩
      simp [tokensOf, Symbol.token]

def Error.isStructural : Error → Bool
  | unexpectedEnd | unexpectedToken _ | tooDeep => true
  | empty | unexpectedInput _ => false

theorem isStructural_of_disjunction {d : Nat} {ts : List Token} {err : Error}
    (h : ∀ ts err, operand d ts = .error err → err.isStructural = true)
    (hd : Boolean.disjunction (operand d) ts = .error err) : err.isStructural = true := by
  obtain ⟨us, hus⟩ := chain_eq_error hd
  obtain ⟨vs, hvs⟩ := chain_eq_error hus
  exact h vs err hvs

theorem isStructural_of_operand {d : Nat} {ts : List Token} {err : Error}
    (h : operand d ts = .error err) : err.isStructural = true := by
  induction d generalizing ts err with
  | zero =>
    cases ts with
    | nil =>
      cases h
      rfl
    | cons t us => cases t <;> cases h <;> rfl
  | succ d ih =>
    cases ts with
    | nil =>
      cases h
      rfl
    | cons t us =>
      cases t with
      | value | conj | disj | closing => cases h <;> rfl
      | neg =>
        simp only [operand] at h
        split at h
        · cases h
        · rename_i hr
          cases h
          exact ih hr
      | opening =>
        simp only [operand] at h
        split at h
        · cases h
        · cases h
          rfl
        · cases h
          rfl
        · rename_i hr
          cases h
          exact isStructural_of_disjunction (fun _ _ => ih) hr

end Parsing

section Evaluating

/-- The text spells an expression of the grammar with the value, and nowhere are more negations and parentheses
nested than can be read. -/
def Denotes (s : List Char) (b : Bool) : Prop :=
  ∃ symbols e, Lexes s (tokensOf symbols) ∧ Derives .disjunction maxDepth symbols e ∧ e.eval id = b

theorem evaluate_of_tokens_error {s : List Char} {err : Error} (h : tokens s = .error err) :
    evaluate s = .error err := by
  simp [evaluate, parse, h]

theorem evaluate_of_tokens_nil {s : List Char} (h : tokens s = .ok []) : evaluate s = .error .empty := by
  simp [evaluate, parse, h]

theorem evaluate_of_tokens_cons {s : List Char} {t : Token} {ts : List Token}
    (h : tokens s = .ok (t :: ts)) :
    (∃ e, Boolean.disjunction (operand maxDepth) (t :: ts) = .ok (e, []) ∧ evaluate s = .ok e.eval) ∨
      ∃ err, err.isStructural = true ∧ evaluate s = .error err := by
  cases hd : Boolean.disjunction (operand maxDepth) (t :: ts) with
  | error err =>
    right
    refine ⟨err, isStructural_of_disjunction (fun _ _ => isStructural_of_operand) hd, ?_⟩
    simp [evaluate, parse, h, hd]
  | ok r =>
    obtain ⟨e, rest⟩ := r
    cases rest with
    | nil =>
      left
      exact ⟨e, rfl, by simp [evaluate, parse, h, hd]⟩
    | cons u rest =>
      right
      exact ⟨.unexpectedToken u, rfl, by simp [evaluate, parse, h, hd]⟩

theorem denotes_of_disjunction {s : List Char} {ts : List Token} {e : Expr} (hs : tokens s = .ok ts)
    (h : Boolean.disjunction (operand maxDepth) ts = .ok (e, [])) : Denotes s e.eval := by
  obtain ⟨symbols, f, hts, hf, rfl⟩ := Reaches.disjunction (fun _ _ _ => reaches_of_operand) h
  refine ⟨symbols, f, ?_, hf, (Formula.eval_under id f).symm⟩
  rw [List.append_nil] at hts
  rw [← hts]
  exact lexes_of_tokens hs

theorem evaluate_eq_ok_iff {s : List Char} {b : Bool} : evaluate s = .ok b ↔ Denotes s b := by
  constructor
  · intro h
    cases hs : tokens s with
    | error err => simp [evaluate_of_tokens_error hs] at h
    | ok ts =>
      cases ts with
      | nil => simp [evaluate_of_tokens_nil hs] at h
      | cons t ts =>
        rcases evaluate_of_tokens_cons hs with ⟨e, hd, he⟩ | ⟨err, -, he⟩
        · rw [he] at h
          cases h
          exact denotes_of_disjunction hs hd
        · rw [he] at h
          cases h
  · rintro ⟨symbols, e, hs, hd, rfl⟩
    exact evaluate_of_derives id (tokens_of_lexes hs) hd

theorem tokens_of_unlexed {s : List Char} (h : ¬∃ ts, Lexes s ts) :
    ∃ shown, tokens s = .error (.unexpectedInput shown) := by
  cases hs : tokens s with
  | ok ts => exact absurd ⟨ts, lexes_of_tokens hs⟩ h
  | error err =>
    obtain ⟨shown, rfl⟩ := tokensFrom_eq_error hs
    exact ⟨shown, rfl⟩

theorem evaluate_eq_empty_iff {s : List Char} :
    evaluate s = .error .empty ↔ ∀ c ∈ s, isBlank c = true := by
  rw [← lexes_nil_iff, ← tokens_eq_ok_iff]
  constructor
  · intro h
    cases hs : tokens s with
    | error err =>
      obtain ⟨shown, rfl⟩ := tokensFrom_eq_error hs
      simp [evaluate_of_tokens_error hs] at h
    | ok ts =>
      cases ts with
      | nil => rfl
      | cons t ts =>
        rcases evaluate_of_tokens_cons hs with ⟨e, -, he⟩ | ⟨err, hstructural, he⟩
        · simp [he] at h
        · rw [he] at h
          cases h
          cases hstructural
  · exact evaluate_of_tokens_nil

theorem evaluate_eq_unexpectedInput_iff {s : List Char} :
    (∃ shown, evaluate s = .error (.unexpectedInput shown)) ↔ ¬∃ ts, Lexes s ts := by
  constructor
  · rintro ⟨shown, h⟩ ⟨ts, hts⟩
    have hs := tokens_of_lexes hts
    cases ts with
    | nil => simp [evaluate_of_tokens_nil hs] at h
    | cons t ts =>
      rcases evaluate_of_tokens_cons hs with ⟨e, -, he⟩ | ⟨err, hstructural, he⟩
      · simp [he] at h
      · rw [he] at h
        cases h
        cases hstructural
  · intro h
    obtain ⟨shown, hs⟩ := tokens_of_unlexed h
    exact ⟨shown, evaluate_of_tokens_error hs⟩

/-- A text has a value exactly if it spells an expression of the grammar, and the value is that of the expression.
Any other text is an error: white space alone, something that is no token, or tokens in no order of the grammar. -/
theorem evaluate_iff_denotes (s : List Char) :
    (∀ b, evaluate s = .ok b ↔ Denotes s b) ∧
      ((∃ err, evaluate s = .error err) ↔ ∀ b, ¬Denotes s b) ∧
      (evaluate s = .error .empty ↔ ∀ c ∈ s, isBlank c = true) ∧
      ((∃ shown, evaluate s = .error (.unexpectedInput shown)) ↔ ¬∃ ts, Lexes s ts) := by
  refine ⟨fun b => evaluate_eq_ok_iff, ?_, evaluate_eq_empty_iff, evaluate_eq_unexpectedInput_iff⟩
  constructor
  · rintro ⟨err, herr⟩ b hb
    rw [evaluate_eq_ok_iff.mpr hb] at herr
    cases herr
  · intro h
    cases hs : evaluate s with
    | error err => exact ⟨err, rfl⟩
    | ok b => exact absurd (evaluate_eq_ok_iff.mp hs) (h b)

end Evaluating

end Applicability.Boolean
