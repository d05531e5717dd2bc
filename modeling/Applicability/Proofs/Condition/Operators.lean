import Applicability.Proofs.Condition.Substitution

namespace Applicability.Condition

open Boolean Capability Text Pattern

instance (keyword : String) (w : List Char) : Decidable (Spells keyword w) :=
  inferInstanceAs (Decidable (_ = _))

def asOperator (keyword operator : String) (w : List Char) : List Char :=
  if Spells keyword w then operator.toList else w

theorem asOperator_of_spells {keyword operator : String} {w : List Char} (h : Spells keyword w) :
    asOperator keyword operator w = operator.toList :=
  if_pos h

theorem asOperator_of_spells_ne {keyword keyword' operator : String} {w : List Char}
    (h : Spells keyword' w) (hne : keyword'.toList ≠ keyword.toList) :
    asOperator keyword operator w = w :=
  if_neg fun h' => hne (h.symm.trans h')

theorem spaced_replaceWord {keyword operator : String} {k : Char} {ks s : List Char} {xs : List Lexeme}
    (hk : keyword.toList = k :: ks) (hu : k.isUpper = true) (hxs : ∀ x ∈ xs, x.Proper)
    (hw : ∀ w, .word w ∈ xs → Spells keyword w ∨ Bars k w) (hs : Spaced false xs s) :
    Spaced false (xs.map (Lexeme.mapWord (asOperator keyword operator)))
      (replaceWord keyword operator s) := by
  refine hs.replaceFrom (blind_word hk hu) hxs ?_ (.inr (Option.all_none))
  intro w hmem
  by_cases hsp : Spells keyword w
  · exact .inr ⟨takes_word hsp, fun _ _ _ _ => (asOperator_of_spells hsp).symm⟩
  · exact .inl ⟨avoids_word hk ((hw w hmem).resolve_left hsp), if_neg hsp⟩

inductive Spelled (v : Id → Bool) (A O N : List Char → Prop) : Symbol Id → Lexeme → Prop where
  | atom (id : Id) : Spelled v A O N (.atom id) (.word (constant (v id)))
  | conj {w : List Char} (h : A w) : Spelled v A O N .conj (.word w)
  | disj {w : List Char} (h : O w) : Spelled v A O N .disj (.word w)
  | neg {w : List Char} (h : N w) : Spelled v A O N .neg (.word w)
  | opening : Spelled v A O N .opening .opening
  | closing : Spelled v A O N .closing .closing

structure Turns (keyword operator : String) (k : Char) (P P' : List Char → Prop) : Prop where
  proper : ∀ w, P w → (Lexeme.word w).Proper
  apart : ∀ w, P w → Spells keyword w ∨ Bars k w
  turned : ∀ w, P w → P' (asOperator keyword operator w)

section Turning

variable {keyword operator : String} {k : Char}

theorem turns_keyword (hl : keyword.length ≠ 0) (he : ∀ c ∈ keyword.toList, isEdge c = false) :
    Turns keyword operator k (Spells keyword) (· = operator.toList) :=
  ⟨fun _ h => proper_of_spells h hl he, fun _ h => .inl h, fun _ h => asOperator_of_spells h⟩

theorem turns_other {other : String} {k' : Char} {ks : List Char} (hk : other.toList = k' :: ks)
    (hu : ∀ c ∈ other.toList, c.isUpper = true) (hne : k' ≠ k) (hw : other.toList ≠ keyword.toList)
    (hl : other.length ≠ 0) (he : ∀ c ∈ other.toList, isEdge c = false) :
    Turns keyword operator k (Spells other) (Spells other) := by
  refine ⟨fun _ h => proper_of_spells h hl he, fun _ h => .inr (h.bars hk hu hne), fun w h => ?_⟩
  rw [asOperator_of_spells_ne h hw]
  exact h

theorem turns_fixed {u : List Char} (hp : (Lexeme.word u).Proper) (hb : Bars k u)
    (hu : ¬Spells keyword u) : Turns keyword operator k (· = u) (· = u) := by
  constructor
  · rintro w rfl
    exact hp
  · rintro w rfl
    exact .inr hb
  · rintro w rfl
    exact if_neg hu

theorem turns_constant (htrue : isLetter k 't' = false) (hfalse : isLetter k 'f' = false)
    (hu : ∀ b, ¬Spells keyword (constant b)) (b : Bool) :
    Turns keyword operator k (· = constant b) (· = constant b) := by
  have hk : ∀ c ∈ (constant b).head?, isLetter k c = false := by
    intro c hc
    cases b
    · rwa [← Option.some.inj hc]
    · rwa [← Option.some.inj hc]
  refine turns_fixed (proper_constant b) (bars_of_isWordChar hk fun c hc => ?_) (hu b)
  exact isWordChar_of_isAlphanum (isAlphanum_constant b c hc)

theorem turns_sign {sign : String} (hp : sign.toList ≠ []) (he : ∀ c ∈ sign.toList, isEdge c = false)
    (hk : ∀ c ∈ sign.toList, isLetter k c = false) (hu : ¬Spells keyword sign.toList) :
    Turns keyword operator k (· = sign.toList) (· = sign.toList) :=
  turns_fixed ⟨hp, he⟩ (bars_of_isLetter hk) hu

end Turning

variable {v : Id → Bool}

theorem replaceWord_of_spelled {keyword operator : String} {k : Char} {ks s : List Char}
    {A A' O O' N N' : List Char → Prop} {symbols : List (Symbol Id)} {xs : List Lexeme}
    (hk : keyword.toList = k :: ks) (hu : k.isUpper = true)
    (hv : ∀ b, Turns keyword operator k (· = constant b) (· = constant b))
    (hA : Turns keyword operator k A A') (hO : Turns keyword operator k O O')
    (hN : Turns keyword operator k N N') (hx : List.Forall₂ (Spelled v A O N) symbols xs)
    (hs : Spaced false xs s) :
    ∃ ys, List.Forall₂ (Spelled v A' O' N') symbols ys ∧
      Spaced false ys (replaceWord keyword operator s) := by
  refine ⟨_, List.forall₂_map_right_iff.mpr (hx.imp fun σ x h => ?_), spaced_replaceWord hk hu ?_ ?_ hs⟩
  · cases h with
    | atom id =>
      rw [Lexeme.mapWord, (hv (v id)).turned _ rfl]
      exact .atom id
    | conj h => exact .conj (hA.turned _ h)
    | disj h => exact .disj (hO.turned _ h)
    | neg h => exact .neg (hN.turned _ h)
    | opening => exact .opening
    | closing => exact .closing
  · intro x hmem
    obtain ⟨σ, -, h⟩ := Lists.exists_left_of_mem hx hmem
    cases h with
    | atom id => exact (hv (v id)).proper _ rfl
    | conj h => exact hA.proper _ h
    | disj h => exact hO.proper _ h
    | neg h => exact hN.proper _ h
    | opening | closing => trivial
  · intro w hmem
    obtain ⟨σ, -, h⟩ := Lists.exists_left_of_mem hx hmem
    cases h with
    | atom id => exact (hv (v id)).apart _ rfl
    | conj h => exact hA.apart _ h
    | disj h => exact hO.apart _ h
    | neg h => exact hN.apart _ h

theorem writeOperators_of_spelled {symbols : List (Symbol Id)} {xs : List Lexeme} {s : List Char}
    (hx : List.Forall₂ (Spelled v (Spells "AND") (Spells "OR") (Spells "NOT")) symbols xs)
    (hs : Spaced false xs s) :
    ∃ ys, List.Forall₂ (Spelled v (· = "&&".toList) (· = "||".toList) (· = "!".toList)) symbols ys ∧
      Spaced false ys (writeOperators s) := by
  obtain ⟨ys, hy, hys⟩ :
      ∃ ys, List.Forall₂ (Spelled v (· = "&&".toList) (Spells "OR") (Spells "NOT")) symbols ys ∧
        Spaced false ys (replaceWord "AND" "&&" s) :=
    replaceWord_of_spelled rfl (by decide)
      (turns_constant (by decide) (by decide) (by decide))
      (turns_keyword (by decide) (by decide))
      (turns_other rfl (by decide) (by decide) (by decide) (by decide) (by decide))
      (turns_other rfl (by decide) (by decide) (by decide) (by decide) (by decide)) hx hs
  obtain ⟨zs, hz, hzs⟩ :
      ∃ zs, List.Forall₂ (Spelled v (· = "&&".toList) (· = "||".toList) (Spells "NOT")) symbols zs ∧
        Spaced false zs (replaceWord "OR" "||" (replaceWord "AND" "&&" s)) :=
    replaceWord_of_spelled rfl (by decide)
      (turns_constant (by decide) (by decide) (by decide))
      (turns_sign (by decide) (by decide) (by decide) (by decide))
      (turns_keyword (by decide) (by decide))
      (turns_other rfl (by decide) (by decide) (by decide) (by decide) (by decide)) hy hys
  exact replaceWord_of_spelled rfl (by decide)
    (turns_constant (by decide) (by decide) (by decide))
    (turns_sign (by decide) (by decide) (by decide) (by decide))
    (turns_sign (by decide) (by decide) (by decide) (by decide))
    (turns_keyword (by decide) (by decide)) hz hzs

theorem writes_of_spelled {σ : Symbol Id} {x : Lexeme}
    (h : Spelled v (· = "&&".toList) (· = "||".toList) (· = "!".toList) σ x) :
    Writes (σ.token v) x.text := by
  cases h with
  | atom id =>
    change Writes (.value (v id)) (constant (v id))
    cases v id <;> rfl
  | conj h | disj h | neg h => exact h
  | opening | closing => rfl

theorem count_paren_eq_zero {g : List Char} (hg : ∀ c ∈ g, c ≠ '(' ∧ c ≠ ')') :
    g.count '(' = 0 ∧ g.count ')' = 0 :=
  ⟨List.count_eq_zero.mpr fun h => (hg _ h).1 rfl, List.count_eq_zero.mpr fun h => (hg _ h).2 rfl⟩

theorem count_paren {b : Bool} {symbols : List (Symbol Id)} {xs : List Lexeme} {s : List Char}
    (hs : Spaced b xs s)
    (hx : List.Forall₂ (Spelled v (· = "&&".toList) (· = "||".toList) (· = "!".toList)) symbols xs) :
    (s.count '(' : Int) - s.count ')' = excess symbols := by
  induction hs generalizing symbols with
  | @nil b g hg =>
    cases hx
    obtain ⟨hopen, hclose⟩ := count_paren_eq_zero (ne_paren_of_isBlank hg)
    simp [hopen, hclose, excess]
  | @cons b g s x xs hg hb hs ih =>
    obtain _ | @⟨σ, _, symbols, _, h, hxs⟩ := hx
    have hrest := ih hxs
    obtain ⟨hopen, hclose⟩ := count_paren_eq_zero (ne_paren_of_isBlank hg)
    simp only [List.count_append, hopen, hclose]
    cases h with
    | atom id =>
      have hword := ne_paren_of_not_isEdge (proper_constant (v id)).2
      obtain ⟨hopen, hclose⟩ := count_paren_eq_zero hword
      simp only [Lexeme.text, hopen, hclose, excess]
      omega
    | conj h | disj h | neg h =>
      subst h
      simpa [Lexeme.text, excess] using hrest
    | opening =>
      have hopen : ['('].count '(' = 1 := rfl
      have hclose : ['('].count ')' = 0 := rfl
      simp only [Lexeme.text, hopen, hclose, excess]
      omega
    | closing =>
      have hopen : [')'].count '(' = 0 := rfl
      have hclose : [')'].count ')' = 1 := rfl
      simp only [Lexeme.text, hopen, hclose, excess]
      omega

theorem balance_of_spelled {symbols : List (Symbol Id)} {xs : List Lexeme} {s : List Char}
    (hx : List.Forall₂ (Spelled v (· = "&&".toList) (· = "||".toList) (· = "!".toList)) symbols xs)
    (hs : Spaced false xs s) :
    ∃ ys, List.Forall₂ (Spelled v (· = "&&".toList) (· = "||".toList) (· = "!".toList)) (evened symbols) ys ∧
      Spaced false ys (balance s).1 := by
  have hcount := count_paren hs hx
  unfold evened
  split
  · rename_i hshort
    have hlen : (-excess symbols).toNat = s.count ')' - s.count '(' := by omega
    refine ⟨List.replicate (s.count ')' - s.count '(') .opening ++ xs, ?_, ?_⟩
    · rw [hlen]
      exact List.rel_append (Lists.forall₂_replicate .opening _) hx
    · have hle : ¬s.count ')' < s.count '(' := by omega
      have hlt : s.count '(' < s.count ')' := by omega
      simp only [balance, hle, hlt, if_true, if_false]
      exact hs.replicate_paren_append rfl rfl _
  · rename_i hlong
    have hlen : (excess symbols).toNat = s.count '(' - s.count ')' := by omega
    refine ⟨xs ++ List.replicate (s.count '(' - s.count ')') .closing, ?_, ?_⟩
    · rw [hlen]
      exact List.rel_append hx (Lists.forall₂_replicate .closing _)
    · by_cases hlt : s.count ')' < s.count '('
      · simp only [balance, hlt, if_true]
        exact hs.append_replicate_paren rfl rfl _
      · have heq : s.count '(' = s.count ')' := by omega
        simpa [balance, heq] using hs

theorem tokens_writeOperators {symbols : List (Symbol Id)} {xs : List Lexeme} {s : List Char}
    (hx : List.Forall₂ (Spelled v (Spells "AND") (Spells "OR") (Spells "NOT")) symbols xs)
    (hs : Spaced false xs s) :
    tokens (balance (writeOperators s)).1 = .ok ((evened symbols).map (Symbol.token v)) := by
  obtain ⟨ys, hy, hys⟩ := writeOperators_of_spelled hx hs
  obtain ⟨zs, hz, hzs⟩ := balance_of_spelled hy hys
  apply tokens_of_lexes
  exact lexes_of_spaced hzs (List.forall₂_map_left_iff.mpr (hz.imp fun _ _ => writes_of_spelled))

end Applicability.Condition
