import Applicability.Boolean.Token
import Applicability.Proofs.Text.Spacing

namespace Applicability.Boolean

open Text

def Writes : Token → List Char → Prop
  | .value true, w => Spells "TRUE" w
  | .value false, w => Spells "FALSE" w
  | .conj, w => w = ['&', '&']
  | .disj, w => w = ['|', '|']
  | .neg, w => w = ['!']
  | .opening, w => w = ['(']
  | .closing, w => w = [')']

inductive Lexes : List Char → List Token → Prop where
  | nil : Lexes [] []
  | blank {c : Char} {s : List Char} {ts : List Token} (hc : isBlank c = true) (h : Lexes s ts) :
      Lexes (c :: s) ts
  | token {t : Token} {w s : List Char} {ts : List Token} (ht : Writes t w)
      (hs : ∀ b, t = .value b → s.head?.all (fun c => !isWordPart c)) (h : Lexes s ts) :
      Lexes (w ++ s) (t :: ts)

theorem Lexes.blanks {g s : List Char} {ts : List Token} (hg : ∀ c ∈ g, isBlank c = true)
    (h : Lexes s ts) : Lexes (g ++ s) ts := by
  induction g with
  | nil => exact h
  | cons c g ih =>
    obtain ⟨hc, hg⟩ := List.forall_mem_cons.mp hg
    exact .blank hc (ih hg)

theorem isWordPart_of_isAlphanum {c : Char} (h : c.isAlphanum = true) : isWordPart c = true := by
  simp [isWordPart, h]

theorem isWordPart_of_isEdge {c : Char} (h : isEdge c = true) : isWordPart c = false := by
  have hunder : c ≠ '_' := ne_of_isEdge h (by decide)
  have hdot : c ≠ '.' := ne_of_isEdge h (by decide)
  simp [isWordPart, isAlphanum_of_isEdge h, hunder, hdot]

theorem takeWhile_isWordPart {w s : List Char} (hw : ∀ c ∈ w, c.isAlphanum = true)
    (hs : s.head?.all (fun c => !isWordPart c)) : (w ++ s).takeWhile isWordPart = w := by
  rw [List.takeWhile_append_of_pos fun c hc => isWordPart_of_isAlphanum (hw c hc)]
  cases s with
  | nil => simp
  | cons c s =>
    have hc : isWordPart c = false := by simpa using hs
    simp [hc]

theorem tokenAt?_of_isAlphanum {c : Char} {cs : List Char} (hc : c.isAlphanum = true) :
    tokenAt? (c :: cs) =
      match upper ((c :: cs).takeWhile isWordPart) with
      | ['T', 'R', 'U', 'E'] => some (.value true, 3)
      | ['F', 'A', 'L', 'S', 'E'] => some (.value false, 4)
      | _ => none := by
  unfold tokenAt?
  split <;> first | rfl | exact absurd hc (by simp_all)

theorem isBlank_of_isAlphanum {c : Char} (h : c.isAlphanum = true) : isBlank c = false := by
  rw [Bool.eq_false_iff]
  intro hb
  rw [isAlphanum_of_isEdge (isEdge_of_isBlank hb)] at h
  exact absurd h (by decide)

theorem tokenAt?_constant {keyword : String} {b : Bool} {w s : List Char} (hk : Spells keyword w)
    (hb : keyword = if b then "TRUE" else "FALSE") (hs : s.head?.all (fun c => !isWordPart c)) :
    ∃ c w', w = c :: w' ∧ isBlank c = false ∧ tokenAt? (w ++ s) = some (.value b, w'.length) := by
  have hw : ∀ c ∈ w, c.isAlphanum = true := hk.isAlphanum (by cases b <;> subst hb <;> decide)
  have hlen := hk.length
  cases w with
  | nil => cases b <;> subst hb <;> exact absurd hlen (by decide)
  | cons c w =>
    have hc := hw c List.mem_cons_self
    refine ⟨c, w, rfl, isBlank_of_isAlphanum hc, ?_⟩
    have htake := takeWhile_isWordPart hw hs
    rw [List.cons_append] at htake ⊢
    rw [tokenAt?_of_isAlphanum hc, htake, hk]
    cases b with
    | false =>
      subst hb
      have hw : w.length = 4 := Nat.succ.inj hlen
      rw [hw]
      rfl
    | true =>
      subst hb
      have hw : w.length = 3 := Nat.succ.inj hlen
      rw [hw]
      rfl

theorem Writes.tokenAt? {t : Token} {w s : List Char} (h : Writes t w)
    (hs : ∀ b, t = .value b → s.head?.all (fun c => !isWordPart c)) :
    ∃ c w', w = c :: w' ∧ isBlank c = false ∧ tokenAt? (w ++ s) = some (t, w'.length) := by
  cases t with
  | value b => cases b <;> exact tokenAt?_constant h rfl (hs _ rfl)
  | conj | disj | neg | opening | closing =>
    obtain rfl := h
    exact ⟨_, _, rfl, by decide, rfl⟩

theorem tokensFrom_length (w s : List Char) : tokensFrom w.length (w ++ s) = tokensFrom 0 s := by
  induction w with
  | nil => rfl
  | cons c w ih => exact ih

theorem tokens_of_lexes {s : List Char} {ts : List Token} (h : Lexes s ts) : tokens s = .ok ts := by
  unfold tokens
  induction h with
  | nil => rfl
  | blank hc h ih => simp [tokensFrom, hc, ih]
  | token ht hs h ih =>
    obtain ⟨c, w, rfl, hc, htoken⟩ := ht.tokenAt? hs
    rw [List.cons_append] at htoken ⊢
    simp [tokensFrom, hc, htoken, tokensFrom_length, ih]

theorem lexes_of_spaced {b : Bool} {xs : List Lexeme} {s : List Char} {ts : List Token}
    (hs : Spaced b xs s) (hx : List.Forall₂ (fun t x => Writes t x.text) ts xs) : Lexes s ts := by
  induction hs generalizing ts with
  | @nil b g hg =>
    cases hx
    simpa using Lexes.nil.blanks hg
  | @cons b g s x xs hg hb hs ih =>
    obtain _ | @⟨t, _, ts, _, ht, hxs⟩ := hx
    refine Lexes.blanks hg (.token ht ?_ (ih hxs))
    rintro b rfl
    have hx : x.isWord = true := by
      cases x with
      | word w => rfl
      | opening | closing => cases b <;> exact absurd ht (by simp [Writes, Spells, Lexeme.text, upper])
    rw [hx] at hs
    cases s with
    | nil => rfl
    | cons c s => simpa using isWordPart_of_isEdge (atEdge_cons.mp hs.atEdge)

end Applicability.Boolean
