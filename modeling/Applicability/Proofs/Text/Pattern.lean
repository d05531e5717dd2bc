import Applicability.Text.Pattern

namespace Applicability.Text.Pattern

variable {p : Pattern} {f : Option Char → List Char → List Char → List Char}

def lastOf (before : Option Char) (w : List Char) : Option Char :=
  w.foldl (fun _ c => some c) before

@[simp] theorem lastOf_nil (before : Option Char) : lastOf before [] = before := rfl

@[simp] theorem lastOf_cons (before : Option Char) (c : Char) (w : List Char) :
    lastOf before (c :: w) = lastOf (some c) w := rfl

theorem lastOf_append (before : Option Char) (u w : List Char) :
    lastOf before (u ++ w) = lastOf (lastOf before u) w := by
  simp [lastOf]

theorem lastOf_eq (before : Option Char) (w : List Char) : lastOf before w = w.getLast?.or before := by
  rcases List.eq_nil_or_concat w with rfl | ⟨u, c, rfl⟩
  · rfl
  · simp [lastOf_append]

theorem lastOf_all {q : Char → Bool} {before : Option Char} {w : List Char}
    (hb : before.all q = true) (hw : ∀ c ∈ w, q c = true) : (lastOf before w).all q = true := by
  induction w generalizing before with
  | nil => exact hb
  | cons c w ih =>
    have hc : q c = true := hw c (by simp)
    exact ih (by simpa using hc) fun d hd => hw d (by simp [hd])

theorem lastOf_of_ne_nil {q : Char → Bool} {before : Option Char} {w : List Char}
    (hne : w ≠ []) (hw : ∀ c ∈ w, q c = true) : (lastOf before w).all q = true := by
  cases w with
  | nil => exact absurd rfl hne
  | cons c w =>
    have hc : q c = true := hw c (by simp)
    rw [lastOf_cons]
    exact lastOf_all (by simpa using hc) fun d hd => hw d (by simp [hd])

def Misses (p : Pattern) : Option Char → List Char → List Char → Prop
  | _, [], _ => True
  | before, c :: w, s => p before (c :: (w ++ s)) = 0 ∧ Misses p (some c) w s

theorem misses_of_forall {before : Option Char} {w s : List Char}
    (h : ∀ c ∈ w, ∀ before s, p before (c :: s) = 0) : Misses p before w s := by
  induction w generalizing before with
  | nil => trivial
  | cons c w ih => exact ⟨h c (by simp) _ _, ih fun d hd => h d (by simp [hd])⟩

theorem misses_append {before : Option Char} {u w s : List Char} :
    Misses p before (u ++ w) s ↔ Misses p before u (w ++ s) ∧ Misses p (lastOf before u) w s := by
  induction u generalizing before with
  | nil => simp [Misses]
  | cons c u ih => simp [Misses, ih, and_assoc]

theorem misses_iff {before : Option Char} {w s : List Char} :
    Misses p before w s ↔ ∀ l c r, w = l ++ c :: r → p (lastOf before l) (c :: (r ++ s)) = 0 := by
  induction w generalizing before with
  | nil => simp [Misses]
  | cons d w ih =>
    rw [Misses, ih]
    constructor
    · rintro ⟨hd, hw⟩ l c r heq
      cases l with
      | nil =>
        obtain ⟨rfl, rfl⟩ := List.cons.inj heq
        exact hd
      | cons e l =>
        obtain ⟨rfl, rfl⟩ := List.cons.inj heq
        exact hw l c r rfl
    · intro h
      refine ⟨h [] d w rfl, ?_⟩
      rintro l c r rfl
      exact h (d :: l) c r rfl

theorem piecesFrom_length (before : Option Char) (w s : List Char) :
    piecesFrom p before w.length (w ++ s) = piecesFrom p (lastOf before w) 0 s := by
  induction w generalizing before with
  | nil => rfl
  | cons c w ih => simpa [piecesFrom] using ih (some c)

theorem piecesFrom_misses {before : Option Char} {w s : List Char} (h : Misses p before w s) :
    piecesFrom p before 0 (w ++ s) = w.map .plain ++ piecesFrom p (lastOf before w) 0 s := by
  induction w generalizing before with
  | nil => rfl
  | cons c w ih =>
    obtain ⟨hc, hw⟩ := h
    simp [piecesFrom, hc, ih hw]

theorem piecesFrom_match {before : Option Char} {w s : List Char} (hne : w ≠ [])
    (h : p before (w ++ s) = w.length) :
    piecesFrom p before 0 (w ++ s) = .found before w s :: piecesFrom p (lastOf before w) 0 s := by
  cases w with
  | nil => exact absurd rfl hne
  | cons c w =>
    simp only [List.cons_append, List.length_cons] at h
    simp [piecesFrom, h, piecesFrom_length]

theorem take_of_mem_piecesFrom {before b : Option Char} {n : Nat} {s text after : List Char}
    (h : .found before text after ∈ piecesFrom p b n s) :
    p before (text ++ after) ≠ 0 ∧ text = (text ++ after).take (p before (text ++ after)) := by
  induction s generalizing b n with
  | nil => cases n <;> exact absurd h List.not_mem_nil
  | cons c s ih =>
    cases n with
    | succ n => exact ih h
    | zero =>
      rw [piecesFrom] at h
      split at h
      · rcases List.mem_cons.mp h with h | h
        · cases h
        · exact ih h
      · rename_i k hk
        rcases List.mem_cons.mp h with h | h
        · cases h
          simp [hk]
        · exact ih h

def written (f : Option Char → List Char → List Char → List Char) : Piece → List Char
  | .plain c => [c]
  | .found before text after => f before text after

def replaceFrom (p : Pattern) (f : Option Char → List Char → List Char → List Char)
    (before : Option Char) (s : List Char) : List Char :=
  (piecesFrom p before 0 s).flatMap (written f)

theorem flatMap_written_plain (w : List Char) : (w.map Piece.plain).flatMap (written f) = w := by
  induction w with
  | nil => rfl
  | cons c w ih => rw [List.map_cons, List.flatMap_cons, ih, written, List.singleton_append]

theorem replaceFrom_misses {before : Option Char} {w s : List Char} (h : Misses p before w s) :
    replaceFrom p f before (w ++ s) = w ++ replaceFrom p f (lastOf before w) s := by
  rw [replaceFrom, piecesFrom_misses h, List.flatMap_append, flatMap_written_plain, replaceFrom]

theorem replaceFrom_match {before : Option Char} {w s : List Char} (hne : w ≠ [])
    (h : p before (w ++ s) = w.length) :
    replaceFrom p f before (w ++ s) = f before w s ++ replaceFrom p f (lastOf before w) s := by
  rw [replaceFrom, piecesFrom_match hne h, List.flatMap_cons, written, replaceFrom]

theorem replaceFrom_cons {before : Option Char} {c : Char} {s : List Char} (h : p before (c :: s) = 0) :
    replaceFrom p f before (c :: s) = c :: replaceFrom p f (some c) s :=
  replaceFrom_misses (w := [c]) ⟨h, trivial⟩

theorem replaceFrom_narrow {q : Pattern} {g : Option Char → List Char → List Char → List Char}
    {A : List Char → Prop} (hA : ∀ w s, A (w ++ s) → A s)
    (hkeep : ∀ before s, A s → q before s ≠ 0 → ∃ w r, s = w ++ r ∧ w ≠ [] ∧ p before s = w.length ∧
      q before s = w.length ∧ f before w r = g before w r)
    (hcopy : ∀ before s, A s → q before s = 0 → p before s ≠ 0 → ∃ w r, s = w ++ r ∧ w ≠ [] ∧
      p before s = w.length ∧ f before w r = w ∧ Misses q before w r)
    {before : Option Char} {s : List Char} (hs : A s) :
    replaceFrom p f before s = replaceFrom q g before s := by
  induction hn : s.length using Nat.strongRecOn generalizing before s with
  | ind n ih =>
    have hrest {w r : List Char} (h : s = w ++ r) (hw : w ≠ []) :
        replaceFrom p f (lastOf before w) r = replaceFrom q g (lastOf before w) r := by
      subst h
      have hlen := List.length_pos_iff.mpr hw
      rw [List.length_append] at hn
      exact ih r.length (by omega) (hA w r hs) rfl
    by_cases hq : q before s = 0
    · by_cases hp : p before s = 0
      · cases s with
        | nil => rfl
        | cons c s =>
          rw [replaceFrom_cons hp, replaceFrom_cons hq]
          exact congrArg _ (hrest (w := [c]) rfl (by simp))
      · obtain ⟨w, r, rfl, hw, hlen, hf, hmiss⟩ := hcopy before s hs hq hp
        rw [replaceFrom_match hw hlen, replaceFrom_misses hmiss, hf, hrest rfl hw]
    · obtain ⟨w, r, rfl, hw, hlen, hlenq, hf⟩ := hkeep before s hs hq
      rw [replaceFrom_match hw hlen, replaceFrom_match hw hlenq, hf, hrest rfl hw]

def matchesFrom (p : Pattern) (before : Option Char) (s : List Char) : List (List Char) :=
  (piecesFrom p before 0 s).filterMap Piece.match?

theorem matchesFrom_misses {before : Option Char} {w s : List Char} (h : Misses p before w s) :
    matchesFrom p before (w ++ s) = matchesFrom p (lastOf before w) s := by
  have hw : (w.map Piece.plain).filterMap Piece.match? = [] := by
    simp [Piece.match?]
  rw [matchesFrom, piecesFrom_misses h, List.filterMap_append, hw, List.nil_append, matchesFrom]

theorem matchesFrom_match {before : Option Char} {w s : List Char} (hne : w ≠ [])
    (h : p before (w ++ s) = w.length) :
    matchesFrom p before (w ++ s) = w :: matchesFrom p (lastOf before w) s := by
  rw [matchesFrom, piecesFrom_match hne h, List.filterMap_cons]
  rfl

theorem occursIn_eq_false_iff {s : List Char} : occursIn p s = false ↔ Misses p none s [] := by
  rw [occursIn, pieces]
  generalize (none : Option Char) = before
  induction s generalizing before with
  | nil => simp [piecesFrom, Misses]
  | cons c s ih =>
    rw [Misses, List.append_nil, ← ih (some c)]
    cases h : p before (c :: s) <;> simp [piecesFrom, h, Piece.isFound]

theorem cutFrom?_misses {before : Option Char} {w s : List Char} (h : Misses p before w s) :
    cutFrom? p before (w ++ s) =
      (cutFrom? p (lastOf before w) s).map fun r => (w ++ r.1, r.2) := by
  induction w generalizing before with
  | nil => simp
  | cons c w ih =>
    obtain ⟨hc, hw⟩ := h
    simp [cutFrom?, hc, ih hw, Function.comp_def]

theorem cutFrom?_match {before : Option Char} {s : List Char} (hs : s ≠ []) (h : p before s ≠ 0) :
    cutFrom? p before s = some ([], s) := by
  cases s with
  | nil => exact absurd rfl hs
  | cons c s => simp [cutFrom?, h]

theorem cutFrom?_eq_some_iff {before : Option Char} {s a r : List Char} :
    cutFrom? p before s = some (a, r) ↔
      s = a ++ r ∧ r ≠ [] ∧ Misses p before a r ∧ p (lastOf before a) r ≠ 0 := by
  induction s generalizing before a with
  | nil =>
    constructor
    · intro h
      cases h
    · rintro ⟨h, hr, -⟩
      exact absurd (List.append_eq_nil_iff.mp h.symm).2 hr
  | cons c s ih =>
    by_cases hz : p before (c :: s) = 0
    · rw [cutFrom?, if_pos hz]
      constructor
      · intro h
        obtain ⟨⟨a', r'⟩, hcut, heq⟩ := Option.map_eq_some_iff.mp h
        cases heq
        obtain ⟨rfl, hr, hmiss, hmatch⟩ := ih.mp hcut
        exact ⟨rfl, hr, ⟨hz, hmiss⟩, hmatch⟩
      · rintro ⟨h, hr, hmiss, hmatch⟩
        cases a with
        | nil =>
          rw [List.nil_append] at h
          subst h
          exact absurd hz hmatch
        | cons d a =>
          obtain ⟨rfl, rfl⟩ := List.cons.inj h
          rw [ih.mpr ⟨rfl, hr, hmiss.2, hmatch⟩]
          rfl
    · rw [cutFrom?, if_neg hz]
      constructor
      · intro h
        cases h
        exact ⟨rfl, List.cons_ne_nil c s, trivial, hz⟩
      · rintro ⟨h, hr, hmiss, hmatch⟩
        cases a with
        | nil =>
          rw [List.nil_append] at h
          rw [h]
        | cons d a =>
          obtain ⟨rfl, rfl⟩ := List.cons.inj h
          exact absurd hmiss.1 hz

theorem orElse_eq_zero {q : Pattern} {before : Option Char} {s : List Char} :
    p.orElse q before s = 0 ↔ p before s = 0 ∧ q before s = 0 := by
  unfold orElse
  split <;> simp_all

theorem Misses.orElse {q : Pattern} {before : Option Char} {w s : List Char}
    (hp : Misses p before w s) (hq : Misses q before w s) : Misses (p.orElse q) before w s := by
  induction w generalizing before with
  | nil => trivial
  | cons c w ih => exact ⟨orElse_eq_zero.mpr ⟨hp.1, hq.1⟩, ih hp.2 hq.2⟩

theorem misses_orElse_iff {q : Pattern} {before : Option Char} {w s : List Char} :
    Misses (p.orElse q) before w s ↔ Misses p before w s ∧ Misses q before w s := by
  constructor
  · simp only [misses_iff, orElse_eq_zero]
    intro h
    exact ⟨fun l c r heq => (h l c r heq).1, fun l c r heq => (h l c r heq).2⟩
  · rintro ⟨hp, hq⟩
    exact hp.orElse hq

end Applicability.Text.Pattern
