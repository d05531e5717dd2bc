import Mathlib.Data.List.TakeWhile
import Applicability.Capability.Id
import Applicability.Proofs.Text.Keyword

namespace Applicability.Capability

open Text Pattern

structure Id where
  text : List Char
  valid : isId text = true

structure Stops (s : List Char) : Prop where
  word : s.takeWhile isWordChar = []
  numbers : ∀ zone, numbersWidth zone s = 0

theorem stops_of_atEdge {s : List Char} (hs : AtEdge s) : Stops s := by
  cases s with
  | nil => exact ⟨rfl, fun _ => rfl⟩
  | cons c s =>
    have hc := atEdge_cons.mp hs
    have hdot : c ≠ '.' := ne_of_isEdge hc (by decide)
    have hdash : c ≠ '-' := ne_of_isEdge hc (by decide)
    have hslash : c ≠ '/' := ne_of_isEdge hc (by decide)
    constructor
    · simp [isWordChar_of_isEdge hc]
    · simp [numbersWidth, isDigit_of_isEdge hc, isLower_of_isEdge hc, hdot, hdash, hslash]

theorem Stops.not_isWordChar {c : Char} {s : List Char} (h : Stops (c :: s)) : isWordChar c = false := by
  have hw := h.word
  rw [List.takeWhile_cons] at hw
  split at hw
  · exact absurd hw (List.cons_ne_nil _ _)
  · rename_i hc
    simpa using hc

theorem Stops.not_startsWithDigit {s : List Char} (hs : Stops s) : startsWithDigit s = false := by
  cases s with
  | nil => rfl
  | cons c s =>
    rw [startsWithDigit, Bool.eq_false_iff]
    intro hd
    have hw := isWordChar_of_isDigit hd
    rw [hs.not_isWordChar] at hw
    exact absurd hw (by decide)

theorem Stops.not_startsWithDigit_of_dot {s : List Char} (hs : Stops ('.' :: s)) : startsWithDigit s = false := by
  have hn := hs.numbers .number
  simp only [numbersWidth] at hn
  split at hn <;> simp_all

theorem exists_eq_append_of_stops {p w s r : List Char} (h : w ++ s = p ++ r) (hs : Stops s)
    (hp : ∀ c ∈ p, isWordChar c = true) : ∃ u, w = p ++ u := by
  induction p generalizing w with
  | nil => exact ⟨w, rfl⟩
  | cons c p ih =>
    obtain ⟨hc, hrest⟩ := List.forall_mem_cons.mp hp
    cases w with
    | nil =>
      obtain rfl : s = c :: (p ++ r) := h
      rw [hs.not_isWordChar] at hc
      exact absurd hc (by decide)
    | cons d w =>
      obtain ⟨rfl, hw⟩ := List.cons.inj h
      obtain ⟨u, rfl⟩ := ih hw hrest
      exact ⟨u, rfl⟩

theorem startsWithDigit_append {cs s : List Char} (hs : Stops s) :
    startsWithDigit (cs ++ s) = startsWithDigit cs := by
  cases cs with
  | nil => exact hs.not_startsWithDigit
  | cons c cs => rfl

theorem numbersWidth_append {zone : Zone} {cs s : List Char} (hs : Stops s) :
    numbersWidth zone (cs ++ s) = numbersWidth zone cs := by
  induction cs generalizing zone with
  | nil => exact hs.numbers zone
  | cons c cs ih =>
    simp only [List.cons_append, numbersWidth, startsWithDigit_append hs, ih]

theorem takeWhile_isWordChar_append {cs s : List Char} (hs : Stops s) :
    (cs ++ s).takeWhile isWordChar = cs.takeWhile isWordChar := by
  induction cs with
  | nil => exact hs.word
  | cons c cs ih => simp only [List.cons_append, List.takeWhile_cons, ih]

theorem idPattern_ne_zero {before : Option Char} {s : List Char} (h : idPattern before s ≠ 0) :
    (∃ cs, s = ['A', '.'] ++ cs) ∨ ∃ cs, s = ['P', 'C', '_'] ++ cs := by
  unfold idPattern at h
  split at h
  · exact .inl ⟨_, rfl⟩
  · exact .inr ⟨_, rfl⟩
  · exact absurd rfl h

theorem idPattern_append (before before' : Option Char) {w s : List Char} (hs : Stops s) :
    idPattern before (w ++ s) = idPattern before' w := by
  by_cases ha : ∃ cs, w = ['A', '.'] ++ cs
  · obtain ⟨cs, rfl⟩ := ha
    change (if startsWithDigit (cs ++ s) then 2 + numbersWidth .number (cs ++ s) else 0) =
      if startsWithDigit cs then 2 + numbersWidth .number cs else 0
    rw [startsWithDigit_append hs, numbersWidth_append hs]
  · by_cases hp : ∃ cs, w = ['P', 'C', '_'] ++ cs
    · obtain ⟨cs, rfl⟩ := hp
      simp only [idPattern, List.cons_append, List.nil_append, takeWhile_isWordChar_append hs]
    · have hw : idPattern before' w = 0 := by
        by_contra h
        exact (idPattern_ne_zero h).elim ha hp
      rw [hw]
      by_contra h
      rcases idPattern_ne_zero h with ⟨r, hr⟩ | ⟨r, hr⟩
      · obtain ⟨u, rfl⟩ : ∃ u, w = ['A'] ++ u := exists_eq_append_of_stops hr hs (by decide)
        cases u with
        | nil =>
          obtain rfl : s = '.' :: r := (List.cons.inj hr).2
          exact h (by simp [idPattern, hs.not_startsWithDigit_of_dot])
        | cons c u =>
          obtain rfl : c = '.' := (List.cons.inj (List.cons.inj hr).2).1
          exact ha ⟨u, rfl⟩
      · exact hp (exists_eq_append_of_stops hr hs (by decide))

theorem misses_idPattern {before : Option Char} {w s : List Char} (hs : AtEdge s)
    (hw : ∀ c ∈ w, c ≠ '.' ∧ c ≠ '_') : Misses idPattern before w s := by
  induction w generalizing before with
  | nil => trivial
  | cons c w ih =>
    refine ⟨?_, ih fun d hd => hw d (by simp [hd])⟩
    rw [← List.cons_append, idPattern_append before none (stops_of_atEdge hs)]
    by_contra h
    rcases idPattern_ne_zero h with ⟨r, hr⟩ | ⟨r, hr⟩
    · exact (hw '.' (by simp [hr])).1 rfl
    · exact (hw '_' (by simp [hr])).2 rfl

structure Shaped (w : List Char) : Prop where
  chars : ∀ c ∈ w, isWordChar c = true ∨ c = '.' ∨ c = '-' ∨ c = '/'
  last : ∀ c ∈ w.getLast?, isWordChar c = true
  chain : w.IsChain fun x y => isWordChar x = true ∨ isDigit y = true

theorem Shaped.cons_wordChar {c : Char} {w : List Char} (hc : isWordChar c = true) (h : Shaped w) :
    Shaped (c :: w) := by
  constructor
  · rintro d (_ | ⟨_, hd⟩)
    · exact .inl hc
    · exact h.chars d hd
  · cases w with
    | nil => simpa using hc
    | cons x w => simpa using h.last
  · exact h.chain.cons fun d _ => .inl hc

theorem Shaped.cons_separator {c : Char} {w : List Char} (hc : c = '.' ∨ c = '-' ∨ c = '/')
    (hw : startsWithDigit w = true) (h : Shaped w) : Shaped (c :: w) := by
  constructor
  · rintro d (_ | ⟨_, hd⟩)
    · exact .inr hc
    · exact h.chars d hd
  · cases w with
    | nil => exact absurd hw (by decide)
    | cons x w => simpa using h.last
  · refine h.chain.cons fun d hd => .inr ?_
    cases w with
    | nil => simp at hd
    | cons x w =>
      obtain rfl : x = d := by simpa using hd
      exact hw

def next? (zone : Zone) (c : Char) (digit : Bool) : Option Zone :=
  if isDigit c && zone != .letters then some zone
  else if c.isLower && zone != .number then some .letters
  else if c == '.' && zone == .number && digit then some .number
  else if (c == '-' || c == '/') && digit then some .branch
  else none

theorem numbersWidth_cons (zone : Zone) (c : Char) (s : List Char) :
    numbersWidth zone (c :: s) = (next? zone c (startsWithDigit s)).elim 0 fun z => 1 + numbersWidth z s := by
  rw [numbersWidth, next?]
  repeat' split
  all_goals rfl

theorem next?_letters {zone : Zone} {c : Char} {digit : Bool} (h : next? zone c digit = some .letters)
    (digit' : Bool) : next? zone c digit' = some .letters := by
  unfold next? at h ⊢
  split at h
  · simp_all
  · split at h
    · simp_all
    · split at h
      · cases h
      · split at h <;> cases h

theorem next?_cases {zone z : Zone} {c : Char} {digit : Bool} (h : next? zone c digit = some z) :
    isWordChar c = true ∨ ((c = '.' ∨ c = '-' ∨ c = '/') ∧ digit = true) := by
  unfold next? at h
  split at h
  · rename_i hc
    simp only [Bool.and_eq_true] at hc
    exact .inl (isWordChar_of_isDigit hc.1)
  split at h
  · rename_i hc
    simp only [Bool.and_eq_true] at hc
    have hl : c.isAlphanum = true := by simp [isAlphanum_eq, hc.1]
    exact .inl (isWordChar_of_isAlphanum hl)
  split at h
  · rename_i hc
    simp only [Bool.and_eq_true, beq_iff_eq] at hc
    exact .inr ⟨.inl hc.1.1, hc.2⟩
  split at h
  · rename_i hc
    simp only [Bool.and_eq_true, Bool.or_eq_true, beq_iff_eq] at hc
    exact .inr ⟨.inr hc.1, hc.2⟩
  · cases h

theorem not_isUpper_of_next? {zone z : Zone} {c : Char} {digit : Bool} (h : next? zone c digit = some z) :
    c.isUpper = false := by
  unfold next? at h
  split at h
  · rename_i hc
    simp only [Bool.and_eq_true] at hc
    exact (not_isUpper_not_isLower_of_isDigit hc.1).1
  split at h
  · rename_i hc
    simp only [Bool.and_eq_true, isLower_iff] at hc
    rw [Bool.eq_false_iff, ne_eq, isUpper_iff]
    omega
  split at h
  · rename_i hc
    simp only [Bool.and_eq_true, beq_iff_eq] at hc
    rw [hc.1.1]
    rfl
  split at h
  · rename_i hc
    simp only [Bool.and_eq_true, Bool.or_eq_true, beq_iff_eq] at hc
    rcases hc.1 with rfl | rfl <;> rfl
  · cases h

theorem shaped_of_numbersWidth (zone : Zone) {cs : List Char}
    (h : numbersWidth zone cs = cs.length) : Shaped cs := by
  induction cs generalizing zone with
  | nil => exact ⟨by simp, by simp, .nil⟩
  | cons c cs ih =>
    rw [numbersWidth_cons] at h
    cases hnext : next? zone c (startsWithDigit cs) with
    | none =>
      rw [hnext] at h
      cases h
    | some z =>
      rw [hnext, Option.elim_some, List.length_cons] at h
      have hshaped := ih z (by omega)
      rcases next?_cases hnext with hc | ⟨hc, hd⟩
      · exact hshaped.cons_wordChar hc
      · exact hshaped.cons_separator hc hd

theorem not_isUpper_of_numbersWidth (zone : Zone) {cs : List Char}
    (h : numbersWidth zone cs = cs.length) : ∀ c ∈ cs, c.isUpper = false := by
  induction cs generalizing zone with
  | nil => exact List.forall_mem_nil _
  | cons c cs ih =>
    rw [numbersWidth_cons] at h
    cases hnext : next? zone c (startsWithDigit cs) with
    | none =>
      rw [hnext] at h
      cases h
    | some z =>
      rw [hnext, Option.elim_some, List.length_cons] at h
      exact List.forall_mem_cons.mpr ⟨not_isUpper_of_next? hnext, ih z (by omega)⟩

theorem shaped_of_takeWhile {cs : List Char} (h : (cs.takeWhile isWordChar).length = cs.length) :
    Shaped cs := by
  induction cs with
  | nil => exact ⟨by simp, by simp, .nil⟩
  | cons c cs ih =>
    rw [List.takeWhile_cons] at h
    split at h
    · rename_i hc
      exact (ih (by simpa using h)).cons_wordChar hc
    · simp at h

theorem numbersWidth_pos {zone : Zone} {s : List Char} (hs : startsWithDigit s = true)
    (hz : zone ≠ .letters) : numbersWidth zone s ≠ 0 := by
  cases s with
  | nil => exact absurd hs (by decide)
  | cons c s =>
    rw [startsWithDigit] at hs
    simp [numbersWidth, hs, hz]

theorem startsWithDigit_of_append {w s : List Char} (hs : startsWithDigit (w ++ s) = true)
    (hw : w ≠ []) : startsWithDigit w = true := by
  cases w with
  | nil => exact absurd rfl hw
  | cons c w => exact hs

theorem exists_numbers (zone : Zone) (s : List Char) :
    ∃ w r, s = w ++ r ∧ numbersWidth zone s = w.length ∧ numbersWidth zone w = w.length := by
  induction s generalizing zone with
  | nil => exact ⟨[], [], rfl, rfl, rfl⟩
  | cons c s ih =>
    cases hnext : next? zone c (startsWithDigit s) with
    | none => exact ⟨[], c :: s, rfl, by rw [numbersWidth_cons, hnext]; rfl, rfl⟩
    | some z =>
      obtain ⟨w, r, rfl, hn, hw⟩ := ih z
      have halone : next? zone c (startsWithDigit w) = some z := by
        cases w with
        | cons d w => exact hnext
        | nil =>
          by_cases hz : z = .letters
          · subst hz
            exact next?_letters hnext _
          · have hdigit : startsWithDigit ([] ++ r) = false := by
              by_contra hd
              exact numbersWidth_pos (by simpa using hd) hz hn
            rwa [hdigit] at hnext
      refine ⟨c :: w, r, rfl, ?_, ?_⟩
      · rw [numbersWidth_cons, hnext, Option.elim_some, hn, List.length_cons, Nat.add_comm]
      · rw [numbersWidth_cons, halone, Option.elim_some, hw, List.length_cons, Nat.add_comm]

theorem isId_iff {s : List Char} : isId s = true ↔ s ≠ [] ∧ idPattern none s = s.length := by
  simp [isId]

theorem idPattern_numbers {before : Option Char} {cs : List Char} (h : startsWithDigit cs = true) :
    idPattern before (['A', '.'] ++ cs) = 2 + numbersWidth .number cs := by
  simp [idPattern, h]

theorem idPattern_name {before : Option Char} {cs : List Char} (h : cs.takeWhile isWordChar ≠ []) :
    idPattern before (['P', 'C', '_'] ++ cs) = 3 + (cs.takeWhile isWordChar).length := by
  simp only [idPattern, List.cons_append, List.nil_append]
  split
  · rename_i hn
    exact absurd (List.length_eq_zero_iff.mp hn) h
  · rename_i n hn
    rw [hn]

theorem exists_id {before : Option Char} {s : List Char} (h : idPattern before s ≠ 0) :
    ∃ id : Id, ∃ r, s = id.text ++ r ∧ idPattern before s = id.text.length := by
  rcases idPattern_ne_zero h with ⟨cs, rfl⟩ | ⟨cs, rfl⟩
  · have hd : startsWithDigit cs = true := by
      by_contra hd
      exact h (by simp [idPattern, hd])
    obtain ⟨w, r, rfl, hn, hw⟩ := exists_numbers .number cs
    have hdw : startsWithDigit w = true := by
      refine startsWithDigit_of_append hd ?_
      rintro rfl
      exact numbersWidth_pos hd (by decide) hn
    have hid : isId (['A', '.'] ++ w) = true := by
      rw [isId_iff, idPattern_numbers hdw, hw, List.length_append]
      exact ⟨by simp, rfl⟩
    refine ⟨⟨_, hid⟩, r, by simp, ?_⟩
    rw [idPattern_numbers hd, hn, List.length_append]
    rfl
  · have hne : cs.takeWhile isWordChar ≠ [] := by
      intro hne
      exact h (by simp [idPattern, hne])
    have hid : isId (['P', 'C', '_'] ++ cs.takeWhile isWordChar) = true := by
      rw [isId_iff, idPattern_name (by rwa [List.takeWhile_idem]), List.takeWhile_idem, List.length_append]
      exact ⟨by simp, rfl⟩
    refine ⟨⟨_, hid⟩, cs.dropWhile isWordChar, by simp, ?_⟩
    rw [idPattern_name hne, List.length_append]
    rfl

namespace Id

theorem ne_nil (id : Id) : id.text ≠ [] :=
  (isId_iff.mp id.valid).1

theorem idPattern_eq (id : Id) (before : Option Char) : idPattern before id.text = id.text.length := by
  have he : idPattern before id.text = idPattern none id.text := by
    simpa using idPattern_append before none (w := id.text) (stops_of_atEdge atEdge_nil)
  rw [he, (isId_iff.mp id.valid).2]

theorem cases_text (id : Id) :
    (∃ cs, id.text = ['A', '.'] ++ cs) ∨ ∃ cs, id.text = ['P', 'C', '_'] ++ cs := by
  have hne : idPattern none id.text ≠ 0 := by
    rw [id.idPattern_eq]
    exact fun h => id.ne_nil (List.length_eq_zero_iff.mp h)
  exact idPattern_ne_zero hne

theorem shaped (id : Id) : Shaped id.text := by
  have h := id.idPattern_eq none
  rcases id.cases_text with ⟨cs, hcs⟩ | ⟨cs, hcs⟩
  · simp only [hcs, List.cons_append, List.nil_append, idPattern, List.length_cons] at h ⊢
    split at h
    · rename_i hd
      have hs : Shaped cs := shaped_of_numbersWidth .number (by omega)
      exact (hs.cons_separator (.inl rfl) hd).cons_wordChar (by decide)
    · omega
  · have hle : (cs.takeWhile isWordChar).length ≤ cs.length := (List.takeWhile_sublist _).length_le
    simp only [hcs, List.cons_append, List.nil_append, idPattern, List.length_cons] at h ⊢
    split at h
    · omega
    · rename_i n hn
      have hs : Shaped cs := shaped_of_takeWhile (by omega)
      exact ((hs.cons_wordChar (by decide)).cons_wordChar (by decide)).cons_wordChar (by decide)

theorem isWordChar_or_capital (id : Id) :
    (∀ c ∈ id.text, isWordChar c = true) ∨ ∃ cs, id.text = 'A' :: cs ∧ 'A' ∉ cs := by
  have h := id.idPattern_eq none
  rcases id.cases_text with ⟨cs, hcs⟩ | ⟨cs, hcs⟩
  · right
    refine ⟨'.' :: cs, hcs, ?_⟩
    have hd : startsWithDigit cs = true := by
      by_contra hd
      exact id.ne_nil (List.length_eq_zero_iff.mp (by rw [← h, hcs]; simp [idPattern, hd]))
    rw [hcs, idPattern_numbers hd, List.length_append] at h
    have hnot := not_isUpper_of_numbersWidth .number (Nat.add_left_cancel h)
    rintro (_ | ⟨_, ha⟩)
    exact absurd (hnot 'A' ha) (by decide)
  · left
    have hne : cs.takeWhile isWordChar ≠ [] := by
      intro hne
      exact id.ne_nil (List.length_eq_zero_iff.mp (by rw [← h, hcs]; simp [idPattern, hne]))
    rw [hcs, idPattern_name hne, List.length_append] at h
    have hall := (List.takeWhile_prefix isWordChar).eq_of_length (Nat.add_left_cancel h)
    rw [hcs, List.forall_mem_append]
    exact ⟨by decide, List.takeWhile_eq_self_iff.mp hall⟩

theorem not_isEdge (id : Id) : ∀ c ∈ id.text, isEdge c = false := by
  intro c hc
  rw [Bool.eq_false_iff]
  intro he
  rcases id.shaped.chars c hc with hw | rfl | rfl | rfl
  · rw [isWordChar_of_isEdge he] at hw
    exact absurd hw (by decide)
  all_goals exact absurd he (by decide)

theorem takes (id : Id) : Takes idPattern id.text := by
  intro before s _ hs
  rw [idPattern_append before none (stops_of_atEdge hs), id.idPattern_eq]

theorem bars (id : Id) {k : Char} (hk : k.isUpper = true) (ha : k ≠ 'A') (hp : k ≠ 'P') :
    Bars k id.text := by
  constructor
  · intro c hc
    rcases id.cases_text with ⟨cs, hcs⟩ | ⟨cs, hcs⟩
    · obtain rfl : 'A' = c := by simpa [hcs] using hc
      exact isLetter_eq_false_of_ne (by decide) ha.symm
    · obtain rfl : 'P' = c := by simpa [hcs] using hc
      exact isLetter_eq_false_of_ne (by decide) hp.symm
  · exact id.shaped.chain.imp fun x y hxy => hxy.imp_right (isLetter_eq_false_of_isDigit hk)

theorem mem_dot_or_underscore (id : Id) : '.' ∈ id.text ∨ '_' ∈ id.text := by
  rcases id.cases_text with ⟨cs, hcs⟩ | ⟨cs, hcs⟩
  · left
    simp [hcs]
  · right
    simp [hcs]

end Id

end Applicability.Capability
