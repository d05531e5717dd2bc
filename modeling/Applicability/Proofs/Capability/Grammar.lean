import Applicability.Proofs.Capability.Id
import Applicability.Proofs.Text.Regex

namespace Applicability.Capability

open Text Pattern Regex

def digits : Regex :=
  plus (.char isDigit)

def dotted : Regex :=
  .seq (.char (· == '.')) digits

def small : Regex :=
  .star (.char Char.isLower)

def branched : Regex :=
  .seq (.char fun c => c == '-' || c == '/') (.seq digits small)

def numbers : Regex :=
  .seq digits (.seq (.star dotted) (.star branched))

def name : Regex :=
  plus (.char isWordChar)

def idExpression : Regex :=
  .alt (after ['A', '.'] numbers) (after ['P', 'C', '_'] name)

def Zone.expression : Zone → Regex
  | .number => .seq (.star (.char isDigit)) (.seq (.star dotted) (.star branched))
  | .branch => .seq (.star (.char isDigit)) (.seq small (.star branched))
  | .letters => .seq small (.star branched)

section Scanner

theorem nil_mem_small : [] ∈ small.language :=
  nil_mem_star _

theorem nil_mem_tail : [] ∈ (Regex.seq (.star dotted) (.star branched)).language :=
  nil_mem_seq_iff.mpr ⟨nil_mem_star _, nil_mem_star _⟩

theorem nil_mem_small_branched : [] ∈ (Regex.seq small (.star branched)).language :=
  nil_mem_seq_iff.mpr ⟨nil_mem_small, nil_mem_star _⟩

theorem nil_mem_expression (zone : Zone) : [] ∈ zone.expression.language := by
  cases zone with
  | number => exact nil_mem_seq_iff.mpr ⟨nil_mem_star _, nil_mem_tail⟩
  | branch => exact nil_mem_seq_iff.mpr ⟨nil_mem_star _, nil_mem_small_branched⟩
  | letters => exact nil_mem_small_branched

theorem first?_digits (s : List Char) :
    digits.first? s = if startsWithDigit s then some (s.dropWhile isDigit) else none := by
  rw [digits, first?_plus_char]
  cases s with
  | nil => rfl
  | cons c s =>
    rw [startsWithDigit, List.takeWhile_cons]
    split <;> rfl

theorem first?_number (s : List Char) :
    Zone.number.expression.first? s = (Regex.seq (.star dotted) (.star branched)).first? (s.dropWhile isDigit) := by
  rw [Zone.expression, first?_seq nil_mem_tail, first?_star_char, Option.bind_some]

theorem first?_branch (s : List Char) :
    Zone.branch.expression.first? s = Zone.letters.expression.first? (s.dropWhile isDigit) := by
  rw [Zone.expression, first?_seq nil_mem_small_branched, first?_star_char, Option.bind_some, Zone.expression]

theorem first?_letters (s : List Char) :
    Zone.letters.expression.first? s = (Regex.star branched).first? (s.dropWhile Char.isLower) := by
  rw [Zone.expression, first?_seq (nil_mem_star _), small, first?_star_char, Option.bind_some]

theorem first?_star_dotted_cons (c : Char) (s : List Char) :
    (Regex.star dotted).first? (c :: s) =
      if c == '.' && startsWithDigit s then (Regex.star dotted).first? (s.dropWhile isDigit) else some (c :: s) := by
  rw [dotted, first?_star_seq_char_cons, first?_digits]
  by_cases hc : (c == '.') = true <;> by_cases hd : startsWithDigit s = true <;> simp [hc, hd]

theorem first?_star_branched_cons (c : Char) (s : List Char) :
    (Regex.star branched).first? (c :: s) =
      if (c == '-' || c == '/') && startsWithDigit s then Zone.branch.expression.first? s else some (c :: s) := by
  rw [first?_branch, first?_letters, branched, first?_star_seq_char_cons, first?_seq nil_mem_small, first?_digits]
  by_cases hc : (c == '-' || c == '/') = true <;> by_cases hd : startsWithDigit s = true <;>
    simp [hc, hd, small, first?_star_char]

theorem first?_tail_cons (c : Char) (s : List Char) :
    (Regex.seq (.star dotted) (.star branched)).first? (c :: s) =
      if c == '.' && startsWithDigit s then Zone.number.expression.first? s
      else (Regex.star branched).first? (c :: s) := by
  rw [first?_number, first?_seq (nil_mem_star _), first?_star_dotted_cons]
  split
  · rw [first?_seq (nil_mem_star _)]
  · rw [Option.bind_some]

theorem not_isDigit_of_isLower {c : Char} (h : c.isLower = true) : isDigit c = false := by
  rw [Bool.eq_false_iff]
  intro hd
  rw [(not_isUpper_not_isLower_of_isDigit hd).2] at h
  cases h

theorem first?_expression_cons (zone : Zone) (c : Char) (s : List Char) :
    zone.expression.first? (c :: s) =
      (next? zone c (startsWithDigit s)).elim (some (c :: s)) fun z => z.expression.first? s := by
  cases zone with
  | number =>
    rw [first?_number, List.dropWhile_cons]
    by_cases hd : isDigit c = true
    · simp [next?, hd, first?_number]
    · rw [if_neg hd, first?_tail_cons, first?_star_branched_cons]
      by_cases hp : (c == '.' && startsWithDigit s) = true
      · simp [next?, hd, hp]
      · by_cases hb : ((c == '-' || c == '/') && startsWithDigit s) = true <;> simp [next?, hd, hp, hb]
  | branch =>
    rw [first?_branch, List.dropWhile_cons]
    by_cases hd : isDigit c = true
    · simp [next?, hd, first?_branch]
    · rw [if_neg hd, first?_letters, List.dropWhile_cons]
      by_cases hl : c.isLower = true
      · simp [next?, hd, hl, first?_letters]
      · rw [if_neg hl, first?_star_branched_cons]
        by_cases hb : ((c == '-' || c == '/') && startsWithDigit s) = true <;> simp [next?, hd, hl, hb]
  | letters =>
    rw [first?_letters, List.dropWhile_cons]
    by_cases hl : c.isLower = true
    · simp [next?, hl, first?_letters]
    · rw [if_neg hl, first?_star_branched_cons]
      by_cases hb : ((c == '-' || c == '/') && startsWithDigit s) = true <;> simp [next?, hl, hb]

theorem first?_expression (zone : Zone) (s : List Char) :
    zone.expression.first? s = some (s.drop (numbersWidth zone s)) := by
  induction s generalizing zone with
  | nil =>
    obtain ⟨u, hu⟩ := exists_first? (nil_mem_expression zone) []
    obtain ⟨w, -, hw⟩ := mem_rests_iff.mp (List.mem_of_head? hu)
    rw [hu, (List.append_eq_nil_iff.mp hw.symm).2, List.drop_nil]
  | cons c s ih =>
    rw [first?_expression_cons, numbersWidth_cons]
    cases next? zone c (startsWithDigit s) with
    | none => rfl
    | some z => rw [Option.elim_some, Option.elim_some, ih, Nat.add_comm, List.drop_succ_cons]

theorem first?_numbers (s : List Char) :
    numbers.first? s = if startsWithDigit s then some (s.drop (numbersWidth .number s)) else none := by
  rw [numbers, first?_seq nil_mem_tail, first?_digits]
  split
  · rw [Option.bind_some, ← first?_number, first?_expression]
  · rfl

theorem pattern_numbers (before : Option Char) (cs : List Char) :
    idExpression.pattern before (['A', '.'] ++ cs) = idPattern before (['A', '.'] ++ cs) := by
  have hname : ¬['P', 'C', '_'] <+: ['A', '.'] ++ cs := by simp
  rw [pattern, idExpression, first?_alt, first?_after_append, first?_after_eq_none hname, Option.or_none, first?_numbers]
  split
  · rename_i hd
    obtain ⟨w, r, rfl, hn, -⟩ := exists_numbers .number cs
    rw [idPattern_numbers hd, hn, List.drop_left, Option.elim_some, List.length_append, List.length_append,
      List.length_cons, List.length_singleton]
    omega
  · rename_i hd
    simp [idPattern, hd]

theorem pattern_name (before : Option Char) (cs : List Char) :
    idExpression.pattern before (['P', 'C', '_'] ++ cs) = idPattern before (['P', 'C', '_'] ++ cs) := by
  have hnumbers : ¬['A', '.'] <+: ['P', 'C', '_'] ++ cs := by simp
  rw [pattern, idExpression, first?_alt, first?_after_eq_none hnumbers, Option.none_or, first?_after_append, name,
    first?_plus_char]
  split
  · rename_i hw
    simp [idPattern, hw]
  · rename_i hw
    have hlen := congrArg List.length (List.takeWhile_append_dropWhile (p := isWordChar) (l := cs))
    rw [List.length_append] at hlen
    rw [idPattern_name hw, Option.elim_some, List.length_append, List.length_cons, List.length_cons,
      List.length_singleton]
    omega

theorem pattern_idExpression : idExpression.pattern = idPattern := by
  funext before s
  by_cases ha : ['A', '.'] <+: s
  · obtain ⟨cs, rfl⟩ := ha
    exact pattern_numbers before cs
  · by_cases hp : ['P', 'C', '_'] <+: s
    · obtain ⟨cs, rfl⟩ := hp
      exact pattern_name before cs
    · rw [pattern, idExpression, first?_alt, first?_after_eq_none ha, first?_after_eq_none hp, Option.none_or,
        Option.elim_none]
      by_contra hne
      rcases idPattern_ne_zero (Ne.symm hne) with ⟨cs, rfl⟩ | ⟨cs, rfl⟩
      · exact ha (List.prefix_append _ cs)
      · exact hp (List.prefix_append _ cs)

-- The small letters of a branch end it.
example : idExpression.first? "A.4/1a2".toList = some ['2'] := by decide

end Scanner

section Words

def Leads (zone : Zone) (w : List Char) (zone' : Zone) : Prop :=
  ∀ s, numbersWidth zone (w ++ s) = w.length + numbersWidth zone' s

theorem Leads.nil (zone : Zone) : Leads zone [] zone := by
  intro s
  simp

theorem Leads.cons {zone zone' zone'' : Zone} {c : Char} {w : List Char}
    (hc : ∀ s, next? zone c (startsWithDigit (w ++ s)) = some zone') (hw : Leads zone' w zone'') :
    Leads zone (c :: w) zone'' := by
  intro s
  rw [List.cons_append, numbersWidth_cons, hc, Option.elim_some, hw, List.length_cons]
  omega

theorem Leads.append {zone zone' zone'' : Zone} {u w : List Char} (hu : Leads zone u zone') (hw : Leads zone' w zone'') :
    Leads zone (u ++ w) zone'' := by
  intro s
  rw [List.append_assoc, hu, hw, List.length_append, Nat.add_assoc]

theorem leads_digits {zone : Zone} (hz : zone ≠ .letters) {w : List Char} (hw : ∀ c ∈ w, isDigit c = true) :
    Leads zone w zone := by
  induction w with
  | nil => exact .nil zone
  | cons c w ih =>
    obtain ⟨hc, hw⟩ := List.forall_mem_cons.mp hw
    exact (ih hw).cons fun s => by simp [next?, hc, hz]

theorem leads_small {w : List Char} (hw : ∀ c ∈ w, c.isLower = true) : Leads .letters w .letters := by
  induction w with
  | nil => exact .nil .letters
  | cons c w ih =>
    obtain ⟨hc, hw⟩ := List.forall_mem_cons.mp hw
    exact (ih hw).cons fun s => by simp [next?, hc]

theorem exists_leads_small {w : List Char} (hw : ∀ c ∈ w, c.isLower = true) : ∃ zone, Leads .branch w zone := by
  cases w with
  | nil => exact ⟨.branch, .nil .branch⟩
  | cons c w =>
    obtain ⟨hc, hw⟩ := List.forall_mem_cons.mp hw
    exact ⟨.letters, (leads_small hw).cons fun s => by simp [next?, hc, not_isDigit_of_isLower hc]⟩

theorem startsWithDigit_of_mem_digits {w : List Char} (hw : w ∈ digits.language) (s : List Char) :
    startsWithDigit (w ++ s) = true := by
  obtain ⟨hne, hall⟩ := mem_plus_char_iff.mp hw
  cases w with
  | nil => exact absurd rfl hne
  | cons c w => exact (List.forall_mem_cons.mp hall).1

theorem leads_dotted {w : List Char} (hw : w ∈ dotted.language) : Leads .number w .number := by
  obtain ⟨-, ⟨c, rfl, hc⟩, v, hv, rfl⟩ := Language.mem_mul.mp hw
  obtain rfl := beq_iff_eq.mp hc
  apply (leads_digits (by decide) (mem_plus_char_iff.mp hv).2).cons
  intro s
  rw [startsWithDigit_of_mem_digits hv]
  decide

theorem next?_separator {c : Char} (hc : (c == '-' || c == '/') = true) (zone : Zone) :
    next? zone c true = some .branch := by
  simp only [Bool.or_eq_true, beq_iff_eq] at hc
  rcases hc with rfl | rfl <;> cases zone <;> decide

theorem exists_leads_branched {w : List Char} (hw : w ∈ branched.language) (zone : Zone) :
    ∃ zone', Leads zone w zone' := by
  obtain ⟨-, ⟨c, rfl, hc⟩, v, hv, rfl⟩ := Language.mem_mul.mp hw
  obtain ⟨x, hx, y, hy, rfl⟩ := Language.mem_mul.mp hv
  obtain ⟨zone', hzone⟩ := exists_leads_small (mem_star_char_iff.mp hy)
  have hrest := (leads_digits (by decide) (mem_plus_char_iff.mp hx).2).append hzone
  have hlead : Leads zone (c :: (x ++ y)) zone' := by
    apply hrest.cons
    intro s
    rw [List.append_assoc, startsWithDigit_of_mem_digits hx, next?_separator hc]
  exact ⟨zone', hlead⟩

theorem leads_star_dotted {w : List Char} (hw : w ∈ (Regex.star dotted).language) : Leads .number w .number := by
  obtain ⟨ws, rfl, hws⟩ := Language.mem_kstar.mp hw
  clear hw
  induction ws with
  | nil => exact .nil .number
  | cons w ws ih =>
    obtain ⟨hw, hws⟩ := List.forall_mem_cons.mp hws
    exact (leads_dotted hw).append (ih hws)

theorem exists_leads_star_branched {w : List Char} (hw : w ∈ (Regex.star branched).language) (zone : Zone) :
    ∃ zone', Leads zone w zone' := by
  obtain ⟨ws, rfl, hws⟩ := Language.mem_kstar.mp hw
  clear hw
  induction ws generalizing zone with
  | nil => exact ⟨zone, .nil zone⟩
  | cons w ws ih =>
    obtain ⟨hw, hws⟩ := List.forall_mem_cons.mp hws
    obtain ⟨zone', hhead⟩ := exists_leads_branched hw zone
    obtain ⟨zone'', htail⟩ := ih zone' hws
    exact ⟨zone'', hhead.append htail⟩

theorem le_idPattern {w : List Char} (hw : w ∈ idExpression.language) (before : Option Char) (s : List Char) :
    w.length ≤ idPattern before (w ++ s) := by
  rcases hw with hw | hw
  · obtain ⟨v, hv, rfl⟩ := mem_after_iff.mp hw
    obtain ⟨x, hx, yz, hyz, rfl⟩ := Language.mem_mul.mp hv
    obtain ⟨y, hy, z, hz, rfl⟩ := Language.mem_mul.mp hyz
    obtain ⟨zone, hzone⟩ := exists_leads_star_branched hz .number
    have hlead : Leads .number (x ++ (y ++ z)) zone :=
      (leads_digits (by decide) (mem_plus_char_iff.mp hx).2).append ((leads_star_dotted hy).append hzone)
    have hdigit : startsWithDigit (x ++ (y ++ z) ++ s) = true := by
      rw [List.append_assoc]
      exact startsWithDigit_of_mem_digits hx _
    rw [List.append_assoc, idPattern_numbers hdigit, hlead, List.length_append, List.length_cons,
      List.length_singleton]
    omega
  · obtain ⟨v, hv, rfl⟩ := mem_after_iff.mp hw
    obtain ⟨hne, hall⟩ := mem_plus_char_iff.mp hv
    have htake : (v ++ s).takeWhile isWordChar = v ++ s.takeWhile isWordChar := List.takeWhile_append_of_pos hall
    have hword : (v ++ s).takeWhile isWordChar ≠ [] := by simp [htake, hne]
    rw [List.append_assoc, idPattern_name hword, htake, List.length_append, List.length_append, List.length_cons,
      List.length_cons, List.length_singleton]
    omega

theorem idPattern_le (before : Option Char) (s : List Char) : idPattern before s ≤ s.length := by
  rw [← pattern_idExpression, pattern]
  cases idExpression.first? s with
  | none => exact Nat.zero_le _
  | some rest => exact Nat.sub_le _ _

theorem isId_iff_mem_language {s : List Char} : isId s = true ↔ s ∈ idExpression.language := by
  rw [isId_iff]
  constructor
  · rintro ⟨hne, hlen⟩
    rw [← pattern_idExpression, pattern] at hlen
    have hpos := List.length_pos_iff.mpr hne
    cases hfirst : idExpression.first? s with
    | none =>
      rw [hfirst, Option.elim_none] at hlen
      omega
    | some rest =>
      have hmem := List.mem_of_head? hfirst
      obtain ⟨w, -, rfl⟩ := mem_rests_iff.mp hmem
      rw [hfirst, Option.elim_some, List.length_append] at hlen
      rw [List.length_append] at hpos
      obtain rfl : rest = [] := List.length_eq_zero_iff.mp (by omega)
      exact mem_language_iff.mpr hmem
  · intro hs
    have hle := le_idPattern hs none []
    rw [List.append_nil] at hle
    refine ⟨?_, Nat.le_antisymm (idPattern_le none s) hle⟩
    rintro rfl
    rcases hs with hs | hs
    · obtain ⟨v, -, hv⟩ := mem_after_iff.mp hs
      cases hv
    · obtain ⟨v, -, hv⟩ := mem_after_iff.mp hs
      cases hv

end Words

end Applicability.Capability
