import Applicability.Boolean.Parser

namespace Applicability.Boolean

variable {α : Type}

inductive Formula (α : Type) where
  | atom (a : α)
  | neg (e : Formula α)
  | conj (l r : Formula α)
  | disj (l r : Formula α)

namespace Formula

def eval (v : α → Bool) : Formula α → Bool
  | atom a => v a
  | neg e => !e.eval v
  | conj l r => l.eval v && r.eval v
  | disj l r => l.eval v || r.eval v

def under (v : α → Bool) : Formula α → Expr
  | atom a => .value (v a)
  | neg e => .neg (e.under v)
  | conj l r => .conj (l.under v) (r.under v)
  | disj l r => .disj (l.under v) (r.under v)

theorem eval_under (v : α → Bool) (e : Formula α) : (e.under v).eval = e.eval v := by
  induction e with
  | atom a => rfl
  | neg e ih => simp [under, Expr.eval, eval, ih]
  | conj l r ihl ihr => simp [under, Expr.eval, eval, ihl, ihr]
  | disj l r ihl ihr => simp [under, Expr.eval, eval, ihl, ihr]

end Formula

inductive Symbol (α : Type) where
  | atom (a : α)
  | conj
  | disj
  | neg
  | opening
  | closing

def Symbol.token (v : α → Bool) : Symbol α → Token
  | atom a => .value (v a)
  | conj => .conj
  | disj => .disj
  | neg => .neg
  | opening => .opening
  | closing => .closing

inductive Level where
  | operand
  | conjunction
  | disjunction

/-- The symbols derive the formula, and nowhere are more than `d` negations and parentheses open. -/
inductive Derives : Level → Nat → List (Symbol α) → Formula α → Prop where
  | atom {d : Nat} (a : α) : Derives .operand d [.atom a] (.atom a)
  | neg {d : Nat} {ts : List (Symbol α)} {e : Formula α} (h : Derives .operand d ts e) :
      Derives .operand (d + 1) (.neg :: ts) (.neg e)
  | parens {d : Nat} {ts : List (Symbol α)} {e : Formula α} (h : Derives .disjunction d ts e) :
      Derives .operand (d + 1) (.opening :: (ts ++ [.closing])) e
  | operand {d : Nat} {ts : List (Symbol α)} {e : Formula α} (h : Derives .operand d ts e) :
      Derives .conjunction d ts e
  | conj {d : Nat} {ts us : List (Symbol α)} {l r : Formula α} (hl : Derives .conjunction d ts l)
      (hr : Derives .operand d us r) : Derives .conjunction d (ts ++ .conj :: us) (.conj l r)
  | conjunction {d : Nat} {ts : List (Symbol α)} {e : Formula α} (h : Derives .conjunction d ts e) :
      Derives .disjunction d ts e
  | disj {d : Nat} {ts us : List (Symbol α)} {l r : Formula α} (hl : Derives .disjunction d ts l)
      (hr : Derives .conjunction d us r) : Derives .disjunction d (ts ++ .disj :: us) (.disj l r)

theorem Derives.ne_nil {level : Level} {d : Nat} {ts : List (Symbol α)} {e : Formula α}
    (h : Derives level d ts e) : ts ≠ [] := by
  induction h <;> simp_all

def depthAfter : Nat → List (Symbol α) → Nat
  | n, [] => n
  | n, .opening :: ts => depthAfter (n + 1) ts
  | n, .closing :: ts => depthAfter (n - 1) ts
  | n, .atom _ :: ts | n, .conj :: ts | n, .disj :: ts | n, .neg :: ts => depthAfter n ts

theorem depthAfter_append (n : Nat) (ts us : List (Symbol α)) :
    depthAfter n (ts ++ us) = depthAfter (depthAfter n ts) us := by
  induction ts generalizing n with
  | nil => rfl
  | cons t ts ih => cases t <;> exact ih _

theorem Derives.depthAfter {level : Level} {d : Nat} {ts : List (Symbol α)} {e : Formula α}
    (h : Derives level d ts e) (n : Nat) : depthAfter n ts = n := by
  induction h generalizing n with
  | atom a => rfl
  | neg h ih => exact ih n
  | parens h ih =>
    change Boolean.depthAfter (n + 1) (_ ++ [.closing]) = n
    rw [depthAfter_append, ih]
    rfl
  | operand h ih | conjunction h ih => exact ih n
  | conj hl hr ihl ihr | disj hl hr ihl ihr =>
    rw [depthAfter_append, ihl]
    exact ihr n

def excess : List (Symbol α) → Int
  | [] => 0
  | .opening :: ts => excess ts + 1
  | .closing :: ts => excess ts - 1
  | .atom _ :: ts | .conj :: ts | .disj :: ts | .neg :: ts => excess ts

theorem excess_append (ts us : List (Symbol α)) : excess (ts ++ us) = excess ts + excess us := by
  induction ts with
  | nil => simp [excess]
  | cons t ts ih => cases t <;> simp only [List.cons_append, excess, ih] <;> omega

theorem Derives.excess {level : Level} {d : Nat} {ts : List (Symbol α)} {e : Formula α}
    (h : Derives level d ts e) : excess ts = 0 := by
  induction h with
  | atom a => rfl
  | neg h ih => exact ih
  | parens h ih => simp [Boolean.excess, excess_append, ih]
  | operand h ih | conjunction h ih => exact ih
  | conj hl hr ihl ihr | disj hl hr ihl ihr => simp [excess_append, Boolean.excess, ihl, ihr]

section Reading

variable {op : Token} {join : Expr → Expr → Expr} {read : List Token → Parsed}

theorem chainFrom_stop {rest : List Token} (h : rest.head? ≠ some op) (n : Nat) (acc : Expr) :
    chainFrom op join read n acc rest = .ok (acc, rest) := by
  cases n with
  | zero => rfl
  | succ n =>
    cases rest with
    | nil => rfl
    | cons t rest =>
      have ht : t ≠ op := by simpa using h
      simp [chainFrom, ht]

theorem chainFrom_next {n : Nat} {acc e : Expr} {ts rest : List Token} (h : read ts = .ok (e, rest)) :
    chainFrom op join read (n + 1) acc (op :: ts) = chainFrom op join read n (join acc e) rest := by
  simp [chainFrom, h]

theorem chain_of_read {e : Expr} {ts rest : List Token} (h : read ts = .ok (e, rest)) :
    chain op join read ts = chainFrom op join read rest.length e rest := by
  simp [chain, h]

def Reads (v : α → Bool) : Level → Nat → List (Symbol α) → Formula α → Prop
  | .operand, d, ts, e => ∀ rest,
    Boolean.operand d (ts.map (Symbol.token v) ++ rest) = .ok (e.under v, rest)
  | .conjunction, d, ts, e => ∀ rest, ∃ n ≥ rest.length,
    chain .conj .conj (Boolean.operand d) (ts.map (Symbol.token v) ++ rest) =
      chainFrom .conj .conj (Boolean.operand d) n (e.under v) rest
  | .disjunction, d, ts, e => ∀ rest, rest.head? ≠ some .conj → ∃ n ≥ rest.length,
    Boolean.disjunction (Boolean.operand d) (ts.map (Symbol.token v) ++ rest) =
      chainFrom .disj .disj (chain .conj .conj (Boolean.operand d)) n (e.under v) rest

theorem Derives.reads {level : Level} {d : Nat} {ts : List (Symbol α)} {e : Formula α}
    (v : α → Bool) (h : Derives level d ts e) : Reads v level d ts e := by
  induction h with
  | atom a =>
    intro rest
    simp [Symbol.token, Boolean.operand, Formula.under]
  | neg h ih =>
    intro rest
    simp [Symbol.token, Boolean.operand, ih rest, Formula.under]
  | parens h ih =>
    intro rest
    obtain ⟨n, _, hn⟩ := ih (.closing :: rest) (by simp)
    rw [chainFrom_stop (by simp)] at hn
    simp [Symbol.token, Boolean.operand, hn]
  | operand h ih =>
    intro rest
    exact ⟨rest.length, Nat.le_refl _, chain_of_read (ih rest)⟩
  | @conj d ts us l r hl hr ihl ihr =>
    intro rest
    obtain ⟨n, hn, hchain⟩ := ihl (.conj :: (us.map (Symbol.token v) ++ rest))
    simp only [List.length_cons, List.length_append] at hn
    obtain ⟨m, rfl⟩ : ∃ m, n = m + 1 := ⟨n - 1, by omega⟩
    rw [chainFrom_next (ihr rest)] at hchain
    exact ⟨m, by omega, by simpa [Symbol.token, Formula.under] using hchain⟩
  | conjunction h ih =>
    intro rest hrest
    obtain ⟨n, _, hn⟩ := ih rest
    rw [chainFrom_stop hrest] at hn
    exact ⟨rest.length, Nat.le_refl _, chain_of_read hn⟩
  | @disj d ts us l r hl hr ihl ihr =>
    intro rest hrest
    obtain ⟨n, hn, hchain⟩ := ihl (.disj :: (us.map (Symbol.token v) ++ rest)) (by simp)
    simp only [List.length_cons, List.length_append] at hn
    obtain ⟨m, rfl⟩ : ∃ m, n = m + 1 := ⟨n - 1, by omega⟩
    obtain ⟨k, _, hk⟩ := ihr rest
    rw [chainFrom_stop hrest] at hk
    rw [chainFrom_next hk] at hchain
    exact ⟨m, by omega, by simpa [Symbol.token, Formula.under] using hchain⟩

end Reading

theorem evaluate_of_derives {s : List Char} {ts : List (Symbol α)} {e : Formula α} (v : α → Bool)
    (hs : tokens s = .ok (ts.map (Symbol.token v))) (h : Derives .disjunction maxDepth ts e) :
    evaluate s = .ok (e.eval v) := by
  obtain ⟨n, _, hn⟩ := h.reads v [] (by simp)
  rw [chainFrom_stop (by simp), List.append_nil] at hn
  have hparse : parse s = .ok (e.under v) := by
    obtain ⟨t, ts, rfl⟩ := List.exists_cons_of_ne_nil h.ne_nil
    simp only [parse, hs, List.map_cons] at hn ⊢
    rw [hn]
  simp [evaluate, hparse, Formula.eval_under]

end Applicability.Boolean
