import Applicability.Proofs.Text.Spacing

namespace Applicability.Text

open Pattern

variable {p : Pattern}

def Blind (p : Pattern) : Prop :=
  ∀ c, isEdge c = true → ∀ before s, p before (c :: s) = 0

theorem blind_word {keyword : String} {k : Char} {ks : List Char} (hk : keyword.toList = k :: ks)
    (hu : k.isUpper = true) : Blind (word keyword) := by
  intro c hc before s
  have hl : isLetter k c = false := isLetter_eq_false_of_isEdge hu hc
  simp [word, hk, afterLetters?, hl]

theorem misses_of_isEdge (hp : Blind p) {g : List Char} (hg : ∀ c ∈ g, isEdge c = true)
    (before : Option Char) (s : List Char) : Misses p before g s :=
  misses_of_forall fun c hc => hp c (hg c hc)

theorem misses_of_not_isWord (hp : Blind p) {x : Lexeme} (hx : x.isWord = false)
    (before : Option Char) (s : List Char) : Misses p before x.text s := by
  cases x with
  | word w => simp [Lexeme.isWord] at hx
  | opening | closing => exact ⟨hp _ (by decide) _ _, trivial⟩

theorem lastOf_blanks {before : Option Char} {b : Bool} {x : Lexeme} {g : List Char}
    (hr : b = true ∨ before.all isEdge = true) (hg : ∀ c ∈ g, isBlank c = true)
    (hb : b = true → x.isWord = true → g ≠ []) (hx : x.isWord = true) :
    (lastOf before g).all isEdge = true := by
  have hge : ∀ c ∈ g, isEdge c = true := fun c hc => isEdge_of_isBlank (hg c hc)
  rcases hr with hr | hr
  · exact lastOf_of_ne_nil (hb hr hx) hge
  · exact lastOf_all hr hge

theorem lastOf_text (before : Option Char) (x : Lexeme) :
    x.isWord = true ∨ (lastOf before x.text).all isEdge = true := by
  cases x with
  | word w => exact .inl rfl
  | opening | closing => exact .inr rfl

namespace Spaced

variable {b : Bool} {xs : List Lexeme} {s : List Char} {before : Option Char}

theorem misses_lexeme {x : Lexeme} {g : List Char} (hp : Blind p)
    (hx : ∀ w, x = .word w → Avoids p w) (hr : b = true ∨ before.all isEdge = true)
    (hg : ∀ c ∈ g, isBlank c = true) (hb : b = true → x.isWord = true → g ≠ [])
    (hs : Spaced x.isWord xs s) : Misses p before (g ++ x.text) s := by
  refine misses_append.mpr ⟨misses_of_isEdge hp (fun c hc => isEdge_of_isBlank (hg c hc)) _ _, ?_⟩
  cases x with
  | word w => exact hx w rfl _ _ (lastOf_blanks hr hg hb rfl) hs.atEdge
  | opening | closing => exact misses_of_not_isWord hp rfl _ _

theorem misses (hp : Blind p) (hx : ∀ w, .word w ∈ xs → Avoids p w)
    (hr : b = true ∨ before.all isEdge = true) (h : Spaced b xs s) : Misses p before s [] := by
  induction h generalizing before with
  | nil hg => exact misses_of_isEdge hp (fun c hc => isEdge_of_isBlank (hg c hc)) _ _
  | @cons b g s x xs hg hb hs ih =>
    rw [← List.append_assoc]
    have hskip : Misses p before (g ++ x.text) (s ++ []) := by
      rw [List.append_nil]
      exact misses_lexeme hp (fun w hw => hx w (by simp [hw])) hr hg hb hs
    refine misses_append.mpr ⟨hskip, ih (fun w hw => hx w (by simp [hw])) ?_⟩
    rw [lastOf_append]
    exact lastOf_text _ x

def Rewrites (p : Pattern) (f : Option Char → List Char → List Char → List Char)
    (w v : List Char) : Prop :=
  (Avoids p w ∧ v = w) ∨
    (Takes p w ∧ ∀ before s, before.all isEdge = true → AtEdge s → f before w s = v)

theorem replaceFrom {f : Option Char → List Char → List Char → List Char}
    {r : List Char → List Char} (hp : Blind p) (hpr : ∀ x ∈ xs, x.Proper)
    (hx : ∀ w, .word w ∈ xs → Rewrites p f w (r w)) (hr : b = true ∨ before.all isEdge = true)
    (h : Spaced b xs s) : Spaced b (xs.map (Lexeme.mapWord r)) (replaceFrom p f before s) := by
  induction h generalizing before with
  | @nil b g hg =>
    have hs := replaceFrom_misses (f := f) (s := [])
      (misses_of_isEdge hp (fun c hc => isEdge_of_isBlank (hg c hc)) before [])
    rw [List.append_nil] at hs
    rw [hs]
    exact .nil (by simpa [Pattern.replaceFrom, piecesFrom] using hg)
  | @cons b g s x xs hg hb hs ih =>
    obtain ⟨hxp, hpr⟩ := List.forall_mem_cons.mp hpr
    have hrest := ih hpr (fun w hw => hx w (List.mem_cons_of_mem _ hw)) (lastOf_text (lastOf before g) x)
    have hgap := replaceFrom_misses (f := f) (s := x.text ++ s)
      (misses_of_isEdge hp (fun c hc => isEdge_of_isBlank (hg c hc)) before _)
    have htext : Pattern.replaceFrom p f (lastOf before g) (x.text ++ s) =
        (x.mapWord r).text ++ Pattern.replaceFrom p f (lastOf (lastOf before g) x.text) s := by
      cases x with
      | word w =>
        have hedge := lastOf_blanks hr hg hb rfl
        rcases hx w List.mem_cons_self with ⟨hav, hw⟩ | ⟨htk, hw⟩
        · simpa only [Lexeme.mapWord, Lexeme.text, hw] using
            replaceFrom_misses (f := f) (hav _ _ hedge hs.atEdge)
        · simpa only [Lexeme.mapWord, Lexeme.text, hw _ _ hedge hs.atEdge] using
            replaceFrom_match (f := f) hxp.1 (htk _ _ hedge hs.atEdge)
      | opening | closing => exact replaceFrom_misses (misses_of_not_isWord hp rfl _ _)
    rw [hgap, htext, List.map_cons]
    rw [← x.isWord_mapWord r] at hrest hb
    exact .cons hg hb hrest

def wordsOf : List Lexeme → List (List Char)
  | [] => []
  | .word w :: xs => w :: wordsOf xs
  | .opening :: xs | .closing :: xs => wordsOf xs

theorem mem_wordsOf {w : List Char} : w ∈ wordsOf xs ↔ .word w ∈ xs := by
  induction xs with
  | nil => simp [wordsOf]
  | cons x xs ih => cases x <;> simp [wordsOf, ih]

theorem matchesFrom {keep : List Char → Bool} (hp : Blind p) (hpr : ∀ x ∈ xs, x.Proper)
    (hx : ∀ w, .word w ∈ xs → if keep w then Takes p w else Avoids p w)
    (hr : b = true ∨ before.all isEdge = true) (h : Spaced b xs s) :
    matchesFrom p before s = (wordsOf xs).filter keep := by
  induction h generalizing before with
  | @nil b g hg =>
    have hs := matchesFrom_misses (s := [])
      (misses_of_isEdge hp (fun c hc => isEdge_of_isBlank (hg c hc)) before [])
    rw [List.append_nil] at hs
    rw [hs]
    rfl
  | @cons b g s x xs hg hb hs ih =>
    obtain ⟨hxp, hpr⟩ := List.forall_mem_cons.mp hpr
    have hrest := ih hpr (fun w hw => hx w (List.mem_cons_of_mem _ hw)) (lastOf_text (lastOf before g) x)
    have hgap := matchesFrom_misses (s := x.text ++ s)
      (misses_of_isEdge hp (fun c hc => isEdge_of_isBlank (hg c hc)) before _)
    rw [hgap]
    cases x with
    | word w =>
      have hedge := lastOf_blanks hr hg hb rfl
      have hw := hx w List.mem_cons_self
      by_cases hk : keep w = true
      · rw [if_pos hk] at hw
        have hm := matchesFrom_match hxp.1 (hw _ _ hedge hs.atEdge)
        rw [Lexeme.text, hm, wordsOf, List.filter_cons_of_pos hk]
        exact congrArg _ hrest
      · rw [if_neg hk] at hw
        have hm := matchesFrom_misses (hw _ _ hedge hs.atEdge)
        rw [Lexeme.text, hm, wordsOf, List.filter_cons_of_neg hk]
        exact hrest
    | opening | closing =>
      exact (matchesFrom_misses (misses_of_not_isWord hp rfl _ _)).trans hrest

theorem cutFrom {ys : List Lexeme} {t : List Char} (hp : Blind p)
    (hx : ∀ w, .word w ∈ xs → Avoids p w) (ht : Takes p t) (hne : t ≠ [])
    (hr : b = true ∨ before.all isEdge = true) (h : Spaced b (xs ++ .word t :: ys) s) :
    ∃ a r, s = a ++ (t ++ r) ∧ cutFrom? p before s = some (a, t ++ r) ∧ Spaced b xs a ∧
      Spaced true ys r ∧ (lastOf before a).all isEdge = true := by
  induction xs generalizing b s before with
  | nil =>
    cases h with
    | @cons _ g s _ _ hg hb hs =>
      have hedge := lastOf_blanks hr hg hb rfl
      have hcut := cutFrom?_misses (s := t ++ s)
        (misses_of_isEdge hp (fun c hc => isEdge_of_isBlank (hg c hc)) before _)
      have hm : p (lastOf before g) (t ++ s) ≠ 0 := by
        rw [ht _ _ hedge hs.atEdge]
        exact fun hz => hne (List.length_eq_zero_iff.mp hz)
      rw [cutFrom?_match (by simp [hne]) hm] at hcut
      exact ⟨g, s, rfl, by simpa [Lexeme.text] using hcut, .nil hg, hs, hedge⟩
  | cons x xs ih =>
    cases h with
    | @cons _ g s _ _ hg hb hs =>
      have hskip := misses_lexeme hp (fun w hw => hx w (by simp [hw])) hr hg hb hs
      have hlast : x.isWord = true ∨ (lastOf before (g ++ x.text)).all isEdge = true := by
        rw [lastOf_append]
        exact lastOf_text _ x
      obtain ⟨a, r, rfl, hcut, ha, hr', hedge⟩ :=
        ih (fun w hw => hx w (List.mem_cons_of_mem _ hw)) hlast hs
      refine ⟨g ++ (x.text ++ a), r, by simp, ?_, .cons hg hb ha, hr', ?_⟩
      · rw [← List.append_assoc, cutFrom?_misses hskip, hcut]
        simp
      · rwa [← List.append_assoc, lastOf_append]

theorem cut {ys : List Lexeme} {t : List Char} (hp : Blind p) (hx : ∀ w, .word w ∈ xs → Avoids p w)
    (ht : Takes p t) (hne : t ≠ []) (h : Spaced b (xs ++ .word t :: ys) s) :
    ∃ a r, cut? p s = some (a, t ++ r) ∧ Spaced b xs a ∧ Spaced true ys r := by
  obtain ⟨a, r, -, hcut, ha, hr, -⟩ := cutFrom hp hx ht hne (.inr (Option.all_none)) h
  exact ⟨a, r, hcut, ha, hr⟩

end Spaced

end Applicability.Text
