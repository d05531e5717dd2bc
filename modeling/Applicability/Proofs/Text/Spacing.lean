import Applicability.Proofs.Text.Blank
import Applicability.Proofs.Text.Keyword

namespace Applicability.Text

open Pattern

inductive Lexeme where
  | word (w : List Char)
  | opening
  | closing
  deriving DecidableEq, Repr

namespace Lexeme

def text : Lexeme → List Char
  | word w => w
  | opening => ['(']
  | closing => [')']

def isWord : Lexeme → Bool
  | word _ => true
  | opening | closing => false

def mapWord (f : List Char → List Char) : Lexeme → Lexeme
  | word w => word (f w)
  | opening => opening
  | closing => closing

def Proper : Lexeme → Prop
  | word w => w ≠ [] ∧ ∀ c ∈ w, isEdge c = false
  | opening | closing => True

theorem isWord_mapWord (f : List Char → List Char) (x : Lexeme) : (x.mapWord f).isWord = x.isWord := by
  cases x <;> rfl

theorem mapWord_mapWord (f g : List Char → List Char) (x : Lexeme) :
    (x.mapWord g).mapWord f = x.mapWord (f ∘ g) := by
  cases x <;> rfl

theorem text_ne_nil {x : Lexeme} (hx : x.Proper) : x.text ≠ [] := by
  cases x with
  | word w => exact hx.1
  | opening | closing => exact List.cons_ne_nil _ _

theorem not_isBlank {x : Lexeme} (hx : x.Proper) : ∀ c ∈ x.text, isBlank c = false := by
  intro c hc
  cases x with
  | word w =>
    rw [Bool.eq_false_iff]
    intro hb
    exact absurd (isEdge_of_isBlank hb) (by simp [hx.2 c hc])
  | opening | closing =>
    obtain rfl := List.mem_singleton.mp hc
    decide

theorem Proper.mapWord {f : List Char → List Char} {x : Lexeme} (hx : x.Proper)
    (hf : ∀ w, x = .word w → (word (f w)).Proper) : (x.mapWord f).Proper := by
  cases x with
  | word w => exact hf w rfl
  | opening | closing => trivial

theorem mem_map_mapWord {f : List Char → List Char} {xs : List Lexeme} {w : List Char} :
    word w ∈ xs.map (mapWord f) ↔ ∃ u, word u ∈ xs ∧ f u = w := by
  rw [List.mem_map]
  constructor
  · rintro ⟨x, hx, heq⟩
    cases x with
    | word u => exact ⟨u, hx, Lexeme.word.inj heq⟩
    | opening | closing => simp [mapWord] at heq
  · rintro ⟨u, hu, rfl⟩
    exact ⟨word u, hu, rfl⟩

end Lexeme

inductive Spaced : Bool → List Lexeme → List Char → Prop where
  | nil {b : Bool} {g : List Char} (hg : ∀ c ∈ g, isBlank c = true) : Spaced b [] g
  | cons {b : Bool} {g s : List Char} {x : Lexeme} {xs : List Lexeme}
      (hg : ∀ c ∈ g, isBlank c = true) (hb : b = true → x.isWord = true → g ≠ [])
      (hs : Spaced x.isWord xs s) : Spaced b (x :: xs) (g ++ (x.text ++ s))

theorem atEdge_of_blanks {g s : List Char} (hg : ∀ c ∈ g, isBlank c = true) (hne : g ≠ []) :
    AtEdge (g ++ s) := by
  cases g with
  | nil => exact absurd rfl hne
  | cons c g => exact atEdge_cons.mpr (isEdge_of_isBlank (hg c List.mem_cons_self))

namespace Spaced

variable {b : Bool} {xs ys : List Lexeme} {s : List Char}

theorem atEdge (h : Spaced true xs s) : AtEdge s := by
  cases h with
  | nil hg =>
    cases s with
    | nil => rfl
    | cons c s => exact atEdge_cons.mpr (isEdge_of_isBlank (hg c List.mem_cons_self))
  | @cons _ g s x xs hg hb hs =>
    by_cases hne : g = []
    · subst hne
      cases x with
      | word w => exact absurd rfl (hb rfl rfl)
      | opening | closing => rfl
    · exact atEdge_of_blanks hg hne

theorem blanks_append {b' : Bool} {g : List Char} (hg : ∀ c ∈ g, isBlank c = true)
    (hb : b' = true → b = true ∨ g ≠ []) (h : Spaced b xs s) : Spaced b' xs (g ++ s) := by
  cases h with
  | nil hs => exact .nil fun c hc => (List.mem_append.mp hc).elim (hg c) (hs c)
  | @cons _ g' s x xs hg' hb' hs =>
    rw [← List.append_assoc]
    refine .cons (fun c hc => (List.mem_append.mp hc).elim (hg c) (hg' c)) ?_ hs
    intro hbt hx hnil
    obtain ⟨rfl, rfl⟩ := List.append_eq_nil_iff.mp hnil
    exact (hb hbt).elim (fun hbb => hb' hbb hx rfl) fun hne => hne rfl

theorem append {s' : List Char} (h : Spaced b xs s)
    (h' : Spaced (xs.foldl (fun _ x => x.isWord) b) ys s') : Spaced b (xs ++ ys) (s ++ s') := by
  induction h with
  | nil hg => exact blanks_append hg .inl h'
  | @cons b g s x xs hg hb _ ih =>
    have hs := Spaced.cons (x := x) hg hb (ih h')
    simpa using hs

theorem replicate_paren {x : Lexeme} {c : Char} (hx : x.isWord = false) (hc : x.text = [c]) (n : Nat)
    (h : Spaced false xs s) : Spaced b (List.replicate (n + 1) x ++ xs) (List.replicate (n + 1) c ++ s) := by
  have hcons : ∀ {b : Bool} {ys : List Lexeme} {r : List Char}, Spaced false ys r →
      Spaced b (x :: ys) (c :: r) := by
    intro b ys r hr
    rw [← hx] at hr
    have hs := Spaced.cons (b := b) (g := []) (by simp) (by simp [hx]) hr
    rwa [hc] at hs
  induction n generalizing b with
  | zero => exact hcons h
  | succ n ih => exact hcons ih

theorem replicate_paren_append {x : Lexeme} {c : Char} (hx : x.isWord = false) (hc : x.text = [c]) (n : Nat)
    (h : Spaced false xs s) : Spaced false (List.replicate n x ++ xs) (List.replicate n c ++ s) := by
  cases n with
  | zero => exact h
  | succ n => exact h.replicate_paren hx hc n

theorem append_replicate_paren {x : Lexeme} {c : Char} (hx : x.isWord = false) (hc : x.text = [c]) (n : Nat)
    (h : Spaced b xs s) : Spaced b (xs ++ List.replicate n x) (s ++ List.replicate n c) := by
  cases n with
  | zero => simpa using h
  | succ n =>
    apply h.append
    have hnil : Spaced false [] [] := .nil (by simp)
    simpa using hnil.replicate_paren hx hc n

theorem split (h : Spaced b (xs ++ ys) s) :
    ∃ s₁ s₂, s = s₁ ++ s₂ ∧ Spaced b xs s₁ ∧ Spaced (xs.foldl (fun _ x => x.isWord) b) ys s₂ := by
  induction xs generalizing b s with
  | nil => exact ⟨[], s, rfl, .nil (by simp), h⟩
  | cons x xs ih =>
    cases h with
    | @cons _ g s _ _ hg hb hs =>
      obtain ⟨s₁, s₂, rfl, h₁, h₂⟩ := ih hs
      exact ⟨g ++ (x.text ++ s₁), s₂, by simp, .cons hg hb h₁, h₂⟩

theorem trimStart (hp : ∀ x ∈ xs, x.Proper) (h : Spaced b xs s) : Spaced false xs (trimStart s) := by
  cases h with
  | nil hg => exact .nil fun c hc => hg c ((List.dropWhile_sublist _).mem hc)
  | @cons _ g s x xs hg hb hs =>
    have hx := hp x List.mem_cons_self
    obtain ⟨c, t, ht⟩ := List.exists_cons_of_ne_nil (Lexeme.text_ne_nil hx)
    have hc : isBlank c = false := Lexeme.not_isBlank hx c (by simp [ht])
    have hs' : Text.trimStart (x.text ++ s) = x.text ++ s := by simp [Text.trimStart, ht, hc]
    rw [trimStart_append hg, hs']
    exact .cons (g := []) (by simp) (by simp) hs

theorem dropEndWhile {p : Char → Bool} {x : Lexeme} {u : List Char} {c : Char}
    (hx : x.text = u ++ [c]) (hc : p c = false) (h : Spaced b (xs ++ [x]) s) :
    Spaced b (xs ++ [x]) (dropEndWhile p s) := by
  obtain ⟨s₁, s₂, rfl, h₁, h₂⟩ := h.split
  cases h₂ with
  | @cons _ g s _ _ hg hb hs =>
    cases hs with
    | nil hs =>
      have hs' : ∀ d ∈ Text.dropEndWhile p s, isBlank d = true := fun d hd =>
        hs d ((List.rdropWhile_prefix p s).mem hd)
      have hdrop := dropEndWhile_append hc (s₁ ++ (g ++ u)) s
      have hassoc : s₁ ++ (g ++ (x.text ++ s)) = s₁ ++ (g ++ u) ++ c :: s := by simp [hx]
      have htail : Spaced b (xs ++ [x]) (s₁ ++ (g ++ (x.text ++ Text.dropEndWhile p s))) :=
        h₁.append (.cons hg hb (.nil hs'))
      rw [hassoc, hdrop]
      simpa [hx] using htail

theorem trimEnd (hp : ∀ x ∈ xs, x.Proper) (h : Spaced b xs s) : Spaced b xs (trimEnd s) := by
  rcases List.eq_nil_or_concat xs with rfl | ⟨ys, x, rfl⟩
  · cases h with
    | nil hg =>
      rw [Text.trimEnd, dropEndWhile_of_forall hg]
      exact .nil (by simp)
  · rw [List.concat_eq_append] at *
    have hx : x.Proper := hp x (by simp)
    rcases List.eq_nil_or_concat x.text with hnil | ⟨u, c, hu⟩
    · exact absurd hnil (Lexeme.text_ne_nil hx)
    · rw [List.concat_eq_append] at hu
      exact h.dropEndWhile hu (Lexeme.not_isBlank hx c (by simp [hu]))

theorem trim (hp : ∀ x ∈ xs, x.Proper) (h : Spaced b xs s) : Spaced false xs (trim s) :=
  (h.trimStart hp).trimEnd hp

theorem joint_collapse (hp : ∀ x ∈ xs, x.Proper) (h : Spaced b xs s) :
    Spaced b xs (joint s ++ collapse s) := by
  induction h with
  | @nil b g hg =>
    have hw : words g = [] := by simpa [words_nil] using words_of_blanks hg []
    simp only [joint, collapse, hw, true_or, if_true, List.nil_append]
    exact .nil (by simp [List.intercalate])
  | @cons b g s x xs hg hb _ ih =>
    obtain ⟨hx, hp⟩ := List.forall_mem_cons.mp hp
    have hnb := Lexeme.not_isBlank hx
    rw [collapse_of_blanks hg, collapse_append (Lexeme.text_ne_nil hx) hnb]
    refine .cons ?_ ?_ (ih hp)
    · intro c hc
      unfold joint at hc
      split at hc
      · simp at hc
      · obtain rfl := List.mem_singleton.mp hc
        decide
    · intro hbt hxw
      have hw : words (g ++ (x.text ++ s)) ≠ [] := by
        rw [words_of_blanks hg]
        intro hnil
        have := collapse_append (Lexeme.text_ne_nil hx) hnb s
        simp [collapse, hnil, List.intercalate, Lexeme.text_ne_nil hx] at this
      obtain ⟨c, g', rfl⟩ := List.exists_cons_of_ne_nil (hb hbt hxw)
      have hc : isBlank c = true := hg c List.mem_cons_self
      rw [List.cons_append] at hw ⊢
      simp [joint, hw, hc]

end Spaced

end Applicability.Text
