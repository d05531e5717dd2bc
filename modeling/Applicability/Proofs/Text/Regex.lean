import Applicability.Text.Pattern
import Mathlib.Computability.Language

/-!
Regular expressions over classes of characters: the words that one denotes, and the ways in which it matches at the
head of a text, in the order in which they are tried. A text is denoted exactly where some way leaves nothing of it;
the match is what the first way takes.
-/

namespace Applicability.Text

open scoped Computability

inductive Regex where
  | char (q : Char → Bool)
  | seq (r t : Regex)
  | alt (r t : Regex)
  | star (r : Regex)

namespace Regex

def language : Regex → Language Char
  | .char q => {w | ∃ c, w = [c] ∧ q c = true}
  | .seq r t => r.language * t.language
  | .alt r t => r.language + t.language
  | .star r => r.language∗

def rounds (step : List Char → List (List Char)) : Nat → List Char → List (List Char)
  | 0, s => [s]
  | n + 1, s => (step s).flatMap (rounds step n) ++ [s]

def rests : Regex → List Char → List (List Char)
  | .char q, s =>
    match s with
    | [] => []
    | c :: cs => if q c then [cs] else []
  | .seq r t, s => (r.rests s).flatMap t.rests
  | .alt r t, s => r.rests s ++ t.rests s
  | .star r, s => rounds r.rests s.length s

def first? (r : Regex) (s : List Char) : Option (List Char) :=
  (r.rests s).head?

def pattern (r : Regex) : Pattern := fun _ s =>
  (r.first? s).elim 0 fun rest => s.length - rest.length

def plus (r : Regex) : Regex :=
  .seq r (.star r)

def after (w : List Char) (r : Regex) : Regex :=
  w.foldr (fun a t => .seq (.char (· == a)) t) r

section Language

theorem mem_rounds_iff {l : Language Char} {step : List Char → List (List Char)}
    (h : ∀ s u, u ∈ step s ↔ ∃ w ∈ l, s = w ++ u) {n : Nat} {s u : List Char} :
    u ∈ rounds step n s ↔ ∃ ws : List (List Char), ws.length ≤ n ∧ (∀ w ∈ ws, w ∈ l) ∧ s = ws.flatten ++ u := by
  induction n generalizing s with
  | zero =>
    rw [rounds, List.mem_singleton]
    constructor
    · rintro rfl
      exact ⟨[], le_rfl, List.forall_mem_nil _, rfl⟩
    · rintro ⟨ws, hlen, -, rfl⟩
      obtain rfl := List.length_eq_zero_iff.mp (Nat.le_zero.mp hlen)
      rfl
  | succ n ih =>
    rw [rounds, List.mem_append, List.mem_flatMap, List.mem_singleton]
    constructor
    · rintro (⟨v, hv, hu⟩ | rfl)
      · obtain ⟨w, hw, rfl⟩ := (h s v).mp hv
        obtain ⟨ws, hlen, hws, rfl⟩ := ih.mp hu
        refine ⟨w :: ws, Nat.succ_le_succ hlen, List.forall_mem_cons.mpr ⟨hw, hws⟩, ?_⟩
        rw [List.flatten_cons, List.append_assoc]
      · exact ⟨[], Nat.zero_le _, List.forall_mem_nil _, rfl⟩
    · rintro ⟨ws, hlen, hws, rfl⟩
      cases ws with
      | nil => exact .inr rfl
      | cons w ws =>
        obtain ⟨hw, hws⟩ := List.forall_mem_cons.mp hws
        left
        refine ⟨ws.flatten ++ u, (h _ _).mpr ⟨w, hw, ?_⟩, ih.mpr ⟨ws, Nat.le_of_succ_le_succ hlen, hws, rfl⟩⟩
        rw [List.flatten_cons, List.append_assoc]

theorem length_le_flatten {ws : List (List Char)} (h : ∀ w ∈ ws, w ≠ []) : ws.length ≤ ws.flatten.length := by
  induction ws with
  | nil => exact le_rfl
  | cons w ws ih =>
    obtain ⟨hw, hws⟩ := List.forall_mem_cons.mp h
    have hpos := List.length_pos_iff.mpr hw
    have hrest := ih hws
    rw [List.length_cons, List.flatten_cons, List.length_append]
    omega

theorem mem_rests_char_iff {q : Char → Bool} {s u : List Char} :
    u ∈ (char q).rests s ↔ ∃ c, q c = true ∧ s = c :: u := by
  cases s with
  | nil => simp [rests]
  | cons d s =>
    rw [rests, List.mem_ite_nil_right, List.mem_singleton]
    constructor
    · rintro ⟨hd, rfl⟩
      exact ⟨d, hd, rfl⟩
    · rintro ⟨c, hc, h⟩
      obtain ⟨rfl, rfl⟩ := List.cons.inj h
      exact ⟨hc, rfl⟩

theorem mem_rests_iff {r : Regex} {s u : List Char} : u ∈ r.rests s ↔ ∃ w ∈ r.language, s = w ++ u := by
  induction r generalizing s u with
  | char q =>
    rw [mem_rests_char_iff]
    constructor
    · rintro ⟨c, hc, rfl⟩
      exact ⟨[c], ⟨c, rfl, hc⟩, rfl⟩
    · rintro ⟨w, ⟨c, rfl, hc⟩, rfl⟩
      exact ⟨c, hc, rfl⟩
  | seq r t ihr iht =>
    rw [rests, List.mem_flatMap, language]
    constructor
    · rintro ⟨v, hv, hu⟩
      obtain ⟨a, ha, rfl⟩ := ihr.mp hv
      obtain ⟨b, hb, rfl⟩ := iht.mp hu
      exact ⟨a ++ b, Language.append_mem_mul ha hb, by rw [List.append_assoc]⟩
    · rintro ⟨w, hw, rfl⟩
      obtain ⟨a, ha, b, hb, rfl⟩ := Language.mem_mul.mp hw
      exact ⟨b ++ u, ihr.mpr ⟨a, ha, by rw [List.append_assoc]⟩, iht.mpr ⟨b, hb, rfl⟩⟩
  | alt r t ihr iht =>
    rw [rests, List.mem_append, ihr, iht, language]
    simp only [Language.mem_add, or_and_right, exists_or]
  | star r ih =>
    rw [rests, mem_rounds_iff fun s u => ih, language]
    constructor
    · rintro ⟨ws, -, hws, rfl⟩
      exact ⟨ws.flatten, Language.join_mem_kstar hws, rfl⟩
    · rintro ⟨w, hw, rfl⟩
      obtain ⟨ws, rfl, hws⟩ := Language.mem_kstar_iff_exists_nonempty.mp hw
      have hlen := length_le_flatten fun w hw => (hws w hw).2
      refine ⟨ws, ?_, fun w hw => (hws w hw).1, rfl⟩
      rw [List.length_append]
      omega

theorem length_lt_of_mem_rests {r : Regex} (hr : [] ∉ r.language) {s u : List Char} (h : u ∈ r.rests s) :
    u.length < s.length := by
  obtain ⟨w, hw, rfl⟩ := mem_rests_iff.mp h
  have hpos : 0 < w.length := by
    apply List.length_pos_iff.mpr
    rintro rfl
    exact hr hw
  rw [List.length_append]
  omega

theorem nil_mem_star (r : Regex) : [] ∈ (star r).language :=
  Language.nil_mem_kstar r.language

theorem nil_mem_seq_iff {r t : Regex} : [] ∈ (seq r t).language ↔ [] ∈ r.language ∧ [] ∈ t.language := by
  rw [language, Language.mem_mul]
  constructor
  · rintro ⟨a, ha, b, hb, hab⟩
    obtain ⟨rfl, rfl⟩ := List.append_eq_nil_iff.mp hab
    exact ⟨ha, hb⟩
  · rintro ⟨hr, ht⟩
    exact ⟨[], hr, [], ht, rfl⟩

theorem nil_not_mem_char (q : Char → Bool) : [] ∉ (char q).language := by
  rintro ⟨c, hc, -⟩
  cases hc

theorem nil_not_mem_seq_char (q : Char → Bool) (r : Regex) : [] ∉ (seq (char q) r).language :=
  fun h => nil_not_mem_char q (nil_mem_seq_iff.mp h).1

theorem mem_star_char_iff {q : Char → Bool} {w : List Char} :
    w ∈ (star (char q)).language ↔ ∀ c ∈ w, q c = true := by
  rw [language, Language.mem_kstar]
  constructor
  · rintro ⟨ws, rfl, hws⟩ c hc
    obtain ⟨w, hw, hcw⟩ := List.mem_flatten.mp hc
    obtain ⟨d, rfl, hd⟩ := hws w hw
    obtain rfl := List.mem_singleton.mp hcw
    exact hd
  · intro hw
    refine ⟨w.map fun c => [c], ?_, ?_⟩
    · rw [← List.flatMap_def, List.flatMap_singleton']
    · intro v hv
      obtain ⟨c, hc, rfl⟩ := List.mem_map.mp hv
      exact ⟨c, rfl, hw c hc⟩

theorem mem_plus_char_iff {q : Char → Bool} {w : List Char} :
    w ∈ (plus (char q)).language ↔ w ≠ [] ∧ ∀ c ∈ w, q c = true := by
  rw [plus, language, Language.mem_mul]
  constructor
  · rintro ⟨a, ⟨c, rfl, hc⟩, b, hb, rfl⟩
    exact ⟨List.cons_ne_nil c b, List.forall_mem_cons.mpr ⟨hc, mem_star_char_iff.mp hb⟩⟩
  · rintro ⟨hne, hw⟩
    cases w with
    | nil => exact absurd rfl hne
    | cons c w =>
      obtain ⟨hc, hw⟩ := List.forall_mem_cons.mp hw
      exact ⟨[c], ⟨c, rfl, hc⟩, w, mem_star_char_iff.mpr hw, rfl⟩

theorem mem_after_iff {a w : List Char} {r : Regex} :
    w ∈ (after a r).language ↔ ∃ v ∈ r.language, w = a ++ v := by
  induction a generalizing w with
  | nil => simp [after]
  | cons c a ih =>
    rw [after, List.foldr_cons, ← after, language, Language.mem_mul]
    constructor
    · rintro ⟨x, ⟨d, rfl, hd⟩, y, hy, rfl⟩
      obtain ⟨v, hv, rfl⟩ := ih.mp hy
      obtain rfl := beq_iff_eq.mp hd
      exact ⟨v, hv, rfl⟩
    · rintro ⟨v, hv, rfl⟩
      exact ⟨[c], ⟨c, rfl, beq_self_eq_true c⟩, a ++ v, ih.mpr ⟨v, hv, rfl⟩, rfl⟩

end Language

section First

variable {r t : Regex} {q : Char → Bool} {s : List Char}

theorem first?_alt (r t : Regex) (s : List Char) : (alt r t).first? s = (r.first? s).or (t.first? s) :=
  List.head?_append

theorem rests_ne_nil (h : [] ∈ r.language) (s : List Char) : r.rests s ≠ [] :=
  List.ne_nil_of_mem (mem_rests_iff.mpr ⟨[], h, rfl⟩)

theorem exists_first? (h : [] ∈ r.language) (s : List Char) : ∃ u, r.first? s = some u :=
  ⟨_, List.head?_eq_some_head (rests_ne_nil h s)⟩

theorem first?_seq (h : [] ∈ t.language) (r : Regex) (s : List Char) :
    (seq r t).first? s = (r.first? s).bind t.first? := by
  rw [first?, first?, rests]
  cases r.rests s with
  | nil => rfl
  | cons u us => rw [List.flatMap_cons, List.head?_append_of_ne_nil _ (rests_ne_nil h u), List.head?_cons,
      Option.bind_some, first?]

@[simp] theorem first?_char_nil (q : Char → Bool) : (char q).first? [] = none := rfl

@[simp] theorem first?_char_cons (q : Char → Bool) (c : Char) (s : List Char) :
    (char q).first? (c :: s) = if q c then some s else none := by
  rw [first?, rests]
  split <;> rfl

theorem first?_seq_char (q : Char → Bool) (t : Regex) (s : List Char) :
    (seq (char q) t).first? s = ((char q).first? s).bind t.first? := by
  cases s with
  | nil => rfl
  | cons c s =>
    rw [first?_char_cons, first?, rests, rests]
    split
    · rw [List.flatMap_singleton, Option.bind_some, first?]
    · rfl

theorem first?_after_append (w : List Char) (r : Regex) (s : List Char) :
    (after w r).first? (w ++ s) = r.first? s := by
  induction w with
  | nil => rfl
  | cons c w ih =>
    rw [after, List.foldr_cons, ← after, first?_seq_char, List.cons_append, first?_char_cons,
      if_pos (beq_self_eq_true c), Option.bind_some, ih]

theorem first?_after_eq_none {w : List Char} (h : ¬w <+: s) (r : Regex) : (after w r).first? s = none := by
  induction w generalizing s with
  | nil => exact absurd (List.nil_prefix) h
  | cons c w ih =>
    rw [after, List.foldr_cons, ← after, first?_seq_char]
    cases s with
    | nil => rfl
    | cons d s =>
      rw [first?_char_cons]
      split
      · rename_i hd
        obtain rfl := beq_iff_eq.mp hd
        exact ih fun hw => h ((List.prefix_cons_inj d).mpr hw)
      · rfl

theorem rounds_of_le {step : List Char → List (List Char)} (hstep : ∀ s, ∀ u ∈ step s, u.length < s.length) {n : Nat}
    (hn : s.length ≤ n) : rounds step n s = rounds step s.length s := by
  induction hlen : s.length using Nat.strongRecOn generalizing s n with
  | ind m ih =>
    cases n with
    | zero => rw [← hlen, Nat.le_zero.mp hn]
    | succ n =>
      cases m with
      | zero =>
        have hnone : step s = [] := by
          apply List.eq_nil_iff_forall_not_mem.mpr
          intro u hu
          have hlt := hstep s u hu
          omega
        rw [rounds, rounds, hnone]
        rfl
      | succ m =>
        rw [rounds, rounds]
        congr 1
        apply List.flatMap_congr
        intro u hu
        have hlt := hstep s u hu
        rw [ih u.length (by omega) (by omega) rfl, ih u.length (by omega) (n := m) (by omega) rfl]

theorem rests_star (h : [] ∉ r.language) (s : List Char) :
    (star r).rests s = (r.rests s).flatMap (star r).rests ++ [s] := by
  have hstep : ∀ s, ∀ u ∈ r.rests s, u.length < s.length := fun s u hu => length_lt_of_mem_rests h hu
  have hmore : rounds r.rests (s.length + 1) s = rounds r.rests s.length s := rounds_of_le hstep (Nat.le_succ _)
  rw [rests, ← hmore, rounds]
  congr 1
  apply List.flatMap_congr
  intro u hu
  have hlt := hstep s u hu
  rw [rests, rounds_of_le hstep (by omega)]

theorem first?_star_of_none (hr : [] ∉ r.language) (h : r.first? s = none) : (star r).first? s = some s := by
  rw [first?, rests_star hr, List.head?_eq_none_iff.mp h]
  rfl

theorem first?_star_of_some {u : List Char} (hr : [] ∉ r.language) (h : r.first? s = some u) :
    (star r).first? s = (star r).first? u := by
  obtain ⟨us, hus⟩ := List.head?_eq_some_iff.mp h
  have hne := rests_ne_nil (nil_mem_star r) u
  rw [first?, rests_star hr, hus, List.flatMap_cons, List.append_assoc, List.head?_append_of_ne_nil _ hne, first?]

theorem first?_star_seq_char_cons (q : Char → Bool) (r : Regex) (c : Char) (s : List Char) :
    (star (seq (char q) r)).first? (c :: s) =
      if q c then (r.first? s).elim (some (c :: s)) (star (seq (char q) r)).first? else some (c :: s) := by
  have hne := nil_not_mem_seq_char q r
  have hbody := first?_seq_char q r (c :: s)
  rw [first?_char_cons] at hbody
  split
  · rename_i hc
    rw [if_pos hc, Option.bind_some] at hbody
    cases hr : r.first? s with
    | none => exact first?_star_of_none hne (hbody.trans hr)
    | some u => exact first?_star_of_some hne (hbody.trans hr)
  · rename_i hc
    rw [if_neg hc] at hbody
    exact first?_star_of_none hne hbody

theorem first?_star_char (q : Char → Bool) (s : List Char) : (star (char q)).first? s = some (s.dropWhile q) := by
  have hq := nil_not_mem_char q
  induction s with
  | nil => exact first?_star_of_none hq (first?_char_nil q)
  | cons c s ih =>
    rw [List.dropWhile_cons]
    split
    · rename_i hc
      rw [first?_star_of_some hq ((first?_char_cons q c s).trans (if_pos hc)), ih]
    · rename_i hc
      exact first?_star_of_none hq ((first?_char_cons q c s).trans (if_neg hc))

theorem first?_plus_char (q : Char → Bool) (s : List Char) :
    (plus (char q)).first? s = if s.takeWhile q = [] then none else some (s.dropWhile q) := by
  rw [plus, first?_seq_char]
  cases s with
  | nil => rfl
  | cons c s =>
    rw [first?_char_cons, List.takeWhile_cons, List.dropWhile_cons]
    split
    · rw [if_neg (List.cons_ne_nil c _)]
      exact first?_star_char q s
    · rfl

end First

theorem mem_language_iff {r : Regex} {s : List Char} : s ∈ r.language ↔ [] ∈ r.rests s := by
  rw [mem_rests_iff]
  simp

end Regex

end Applicability.Text
