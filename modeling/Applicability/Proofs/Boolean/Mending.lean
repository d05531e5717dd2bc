import Applicability.Proofs.Boolean.Grammar

namespace Applicability.Boolean

variable {α : Type}

theorem depthAfter_mono {m n : Nat} (h : m ≤ n) (ts : List (Symbol α)) :
    depthAfter m ts ≤ depthAfter n ts := by
  induction ts generalizing m n with
  | nil => exact h
  | cons t ts ih =>
    cases t with
    | opening | closing => exact ih (by omega)
    | atom | conj | disj | neg => exact ih h

theorem excess_le_depthAfter (n : Nat) (ts : List (Symbol α)) : n + excess ts ≤ depthAfter n ts := by
  induction ts generalizing n with
  | nil => simp [excess, depthAfter]
  | cons t ts ih =>
    cases t with
    | opening =>
      have hrest := ih (n + 1)
      simp only [excess, depthAfter]
      omega
    | closing =>
      have hrest := ih (n - 1)
      simp only [excess, depthAfter]
      omega
    | atom | conj | disj | neg => exact ih n

theorem depthAfter_opening (n k : Nat) (ts : List (Symbol α)) :
    depthAfter n (List.replicate k .opening ++ ts) = depthAfter (n + k) ts := by
  induction k generalizing n with
  | zero => rfl
  | succ k ih =>
    rw [List.replicate_succ, List.cons_append, depthAfter, ih]
    congr 1
    omega

theorem depthAfter_closing (n k : Nat) :
    depthAfter n (List.replicate k (.closing : Symbol α)) = n - k := by
  induction k generalizing n with
  | zero => rfl
  | succ k ih =>
    rw [List.replicate_succ, depthAfter, ih]
    omega

theorem excess_opening (k : Nat) : excess (List.replicate k (.opening : Symbol α)) = k := by
  induction k with
  | zero => rfl
  | succ k ih => simp [List.replicate_succ, excess, ih]

theorem excess_closing (k : Nat) : excess (List.replicate k (.closing : Symbol α)) = -k := by
  induction k with
  | zero => rfl
  | succ k ih =>
    simp only [List.replicate_succ, excess, ih]
    omega

def closed (ts : List (Symbol α)) : List (Symbol α) :=
  ts ++ List.replicate (depthAfter 0 ts) .closing

def evened (ts : List (Symbol α)) : List (Symbol α) :=
  if excess ts < 0 then List.replicate (-excess ts).toNat .opening ++ ts
  else ts ++ List.replicate (excess ts).toNat .closing

theorem evened_of_excess {ts : List (Symbol α)} (h : excess ts = 0) : evened ts = ts := by
  simp [evened, h]

def mended (ts : List (Symbol α)) : List (Symbol α) :=
  evened (closed ts)

theorem mended_of_derives {level : Level} {d : Nat} {ts : List (Symbol α)} {e : Formula α}
    (h : Derives level d ts e) : mended ts = ts := by
  rw [mended, closed, h.depthAfter 0, List.replicate_zero, List.append_nil, evened_of_excess h.excess]

def enclosed (k m : Nat) (ts : List (Symbol α)) : List (Symbol α) :=
  List.replicate k .opening ++ (ts ++ List.replicate m .closing)

theorem Derives.mono {level : Level} {d d' : Nat} {ts : List (Symbol α)} {e : Formula α}
    (h : Derives level d ts e) (hd : d ≤ d') : Derives level d' ts e := by
  induction h generalizing d' with
  | atom a => exact .atom a
  | neg h ih =>
    obtain ⟨n, rfl⟩ : ∃ n, d' = n + 1 := ⟨d' - 1, by omega⟩
    exact .neg (ih (by omega))
  | parens h ih =>
    obtain ⟨n, rfl⟩ : ∃ n, d' = n + 1 := ⟨d' - 1, by omega⟩
    exact .parens (ih (by omega))
  | operand h ih => exact .operand (ih hd)
  | conjunction h ih => exact .conjunction (ih hd)
  | conj hl hr ihl ihr => exact .conj (ihl hd) (ihr hd)
  | disj hl hr ihl ihr => exact .disj (ihl hd) (ihr hd)

theorem Derives.cases_opening {level : Level} {d : Nat} {ts : List (Symbol α)} {e : Formula α}
    (h : Derives level d (.opening :: ts) e) :
    (∃ n us, d = n + 1 ∧ ts = us ++ [.closing] ∧ Derives .disjunction n us e) ∨
      ∃ us r vs, ts = us ++ r :: vs ∧ Boolean.depthAfter 1 us = 0 ∧ (r = .conj ∨ r = .disj) := by
  have before : ∀ {level : Level} {us vs : List (Symbol α)} {r : Symbol α} {l : Formula α},
      Derives level d us l → us ++ r :: vs = .opening :: ts →
        ∃ us, ts = us ++ r :: vs ∧ Boolean.depthAfter 1 us = 0 := by
    intro level us vs r l hl heq
    obtain ⟨t, us, rfl⟩ := List.exists_cons_of_ne_nil hl.ne_nil
    rw [List.cons_append] at heq
    obtain ⟨rfl, rfl⟩ := List.cons.inj heq
    exact ⟨us, rfl, hl.depthAfter 0⟩
  generalize hus : Symbol.opening :: ts = us at h before
  induction h with
  | atom a => cases hus
  | neg h ih => cases hus
  | @parens n us e h ih =>
    left
    exact ⟨n, us, rfl, (List.cons.inj hus).2, h⟩
  | operand h ih | conjunction h ih => exact ih hus before
  | conj hl hr ihl ihr =>
    right
    obtain ⟨us, hts, hzero⟩ := before hl rfl
    exact ⟨us, _, _, hts, hzero, .inl rfl⟩
  | disj hl hr ihl ihr =>
    right
    obtain ⟨us, hts, hzero⟩ := before hl rfl
    exact ⟨us, _, _, hts, hzero, .inr rfl⟩

theorem mended_of_apart {k m : Nat} {ts us vs : List (Symbol α)} (hdepth : depthAfter 0 (enclosed k m ts) = 0)
    (hexcess : excess (enclosed k m ts) = 0) (hts : ts = us ++ vs) (hus : depthAfter k us = 0) :
    mended ts = enclosed k m ts := by
  have hzero : depthAfter 0 us = 0 := by
    have hle := depthAfter_mono (Nat.zero_le k) us
    omega
  have hsame : depthAfter 0 ts = depthAfter k ts := by
    rw [hts, depthAfter_append, depthAfter_append, hzero, hus]
  have hle : depthAfter k ts ≤ m := by
    rw [enclosed, depthAfter_opening, depthAfter_append, depthAfter_closing, Nat.zero_add] at hdepth
    omega
  have hcount : (k : Int) + excess ts = m := by
    rw [enclosed, excess_append, excess_append, excess_opening, excess_closing] at hexcess
    omega
  have hge := excess_le_depthAfter k ts
  have hopen : depthAfter 0 ts = m := by omega
  have hclosed : closed ts = ts ++ List.replicate m .closing := by rw [closed, hopen]
  have hshort : excess (closed ts) = -k := by
    rw [hclosed, excess_append, excess_closing]
    omega
  rw [mended, evened, hshort, hclosed, enclosed]
  by_cases hk : k = 0
  · subst hk
    simp
  · have hneg : -(k : Int) < 0 := by omega
    have hsize : (-(-(k : Int))).toNat = k := by omega
    rw [if_pos hneg, hsize]

theorem exists_append_of_replicate {a r : Symbol α} {k : Nat} {ts us vs : List (Symbol α)} (hr : r ≠ a)
    (h : List.replicate k a ++ ts = us ++ r :: vs) :
    ∃ ws, us = List.replicate k a ++ ws ∧ ts = ws ++ r :: vs := by
  induction k generalizing us with
  | zero => exact ⟨us, rfl, h⟩
  | succ k ih =>
    cases us with
    | nil => exact absurd (List.cons.inj h).1.symm hr
    | cons u us =>
      obtain ⟨rfl, hrest⟩ := List.cons.inj h
      obtain ⟨ws, rfl, hts⟩ := ih hrest
      exact ⟨ws, rfl, hts⟩

theorem exists_prefix_of_replicate {a r : Symbol α} {m : Nat} {ts us vs : List (Symbol α)} (hr : r ≠ a)
    (h : ts ++ List.replicate m a = us ++ r :: vs) : ∃ ws, ts = us ++ ws := by
  rcases List.append_eq_append_iff.mp h with ⟨ws, rfl, hws⟩ | ⟨ws, hts, -⟩
  · have hmem : r ∈ List.replicate m a := by
      rw [hws]
      simp
    exact absurd (List.eq_of_mem_replicate hmem) hr
  · exact ⟨ws, hts⟩

theorem derives_mended {k m d : Nat} {ts : List (Symbol α)} {e : Formula α}
    (h : Derives .disjunction d (enclosed k m ts) e) : Derives .disjunction d (mended ts) e := by
  induction k generalizing d m with
  | zero =>
    rw [mended_of_apart (h.depthAfter 0) h.excess (List.nil_append ts).symm rfl]
    exact h
  | succ k ih =>
    have hfull : enclosed (k + 1) m ts = .opening :: enclosed k m ts := rfl
    have hdepth := h.depthAfter 0
    have hexcess := h.excess
    have hfirst := h
    rw [hfull] at hfirst
    rcases hfirst.cases_opening with ⟨n, us, rfl, hus, hinner⟩ | ⟨us, r, vs, hus, hzero, hr⟩
    · cases m with
      | zero =>
        have hend : depthAfter (k + 1) ts = 0 := by
          rw [enclosed, depthAfter_opening, List.replicate_zero, List.append_nil, Nat.zero_add] at hdepth
          exact hdepth
        rw [mended_of_apart hdepth hexcess (List.append_nil ts).symm hend]
        exact h
      | succ m =>
        have hlast : enclosed k (m + 1) ts = enclosed k m ts ++ [.closing] := by
          simp [enclosed, List.replicate_succ']
        rw [hlast] at hus
        obtain ⟨rfl, -⟩ := List.append_inj' hus rfl
        exact (ih hinner).mono (by omega)
    · have hopening : r ≠ .opening := by rcases hr with rfl | rfl <;> simp
      have hclosing : r ≠ .closing := by rcases hr with rfl | rfl <;> simp
      obtain ⟨ws, rfl, hws⟩ := exists_append_of_replicate hopening hus
      obtain ⟨xs, hxs⟩ := exists_prefix_of_replicate hclosing hws
      rw [depthAfter_opening] at hzero
      rw [mended_of_apart hdepth hexcess hxs (by rwa [Nat.add_comm])]
      exact h

end Applicability.Boolean
