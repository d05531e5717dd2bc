import Applicability.Json.Decoder
import Applicability.Proofs.Lists

namespace Applicability.Json

theorem exists_of_map_ok {ε α β : Type} {x : Except ε α} {f : α → β} {b : β} (h : x.map f = .ok b) :
    ∃ a, x = .ok a ∧ f a = b := by
  cases x with
  | error e => cases h
  | ok a => exact ⟨a, rfl, Except.ok.inj h⟩

theorem exists_of_bind_ok {ε α β : Type} {x : Except ε α} {f : α → Except ε β} {b : β}
    (h : x.bind f = .ok b) : ∃ a, x = .ok a ∧ f a = .ok b := by
  cases x with
  | error e => cases h
  | ok a => exact ⟨a, rfl, h⟩

namespace Node

theorem ofValues_eq (vs : List Value) : ofValues vs = vs.map ofValue := by
  induction vs with
  | nil => rfl
  | cons v vs ih => rw [ofValues, ih, List.map_cons]

theorem ofMembers_eq (ms : List (String × Value)) : ofMembers ms = ms.map fun m => (.ok m.1, ofValue m.2) := by
  induction ms with
  | nil => rfl
  | cons m ms ih => rw [ofMembers, ih, List.map_cons]

theorem ofMembers_append (ms ms' : List (String × Value)) :
    ofMembers (ms ++ ms') = ofMembers ms ++ ofMembers ms' := by
  rw [ofMembers_eq, ofMembers_eq, ofMembers_eq, List.map_append]

variable {levels : Levels}

theorem checkItems_of_forall {ns : List Node} (h : ∀ n ∈ ns, n.check levels = .ok ()) :
    checkItems levels ns = .ok () := by
  induction ns with
  | nil => rfl
  | cons n ns ih =>
    obtain ⟨hn, hns⟩ := List.forall_mem_cons.mp h
    rw [checkItems, hn]
    exact ih hns

theorem checkMembers_of_forall {ms : List (String × Value)} (h : ∀ m ∈ ms, (ofValue m.2).check levels = .ok ()) :
    checkMembers levels (ofMembers ms) = .ok () := by
  induction ms with
  | nil => rfl
  | cons m ms ih =>
    obtain ⟨hm, hms⟩ := List.forall_mem_cons.mp h
    rw [ofMembers, checkMembers, hm]
    exact ih hms

mutual

def isOf : Value → Node → Bool
  | .null, .null => true
  | .bool b, .bool b' => b' == b
  | .number x, .number y => y == x
  | .string s, .string t => t == s
  | .array vs, .list ns none => isOfItems vs ns
  | .object ms, .object ns none => isOfMembers ms ns
  | _, _ => false

def isOfItems : List Value → List Node → Bool
  | [], [] => true
  | v :: vs, n :: ns => isOf v n && isOfItems vs ns
  | _, _ => false

def isOfMembers : List (String × Value) → List (Except Fault String × Node) → Bool
  | [], [] => true
  | (k, v) :: ms, (.ok k', n) :: ns => k' == k && isOf v n && isOfMembers ms ns
  | _, _ => false

end

mutual

theorem isOf_iff : ∀ (v : Value) (n : Node), isOf v n = true ↔ n = ofValue v
  | .null, n => by cases n <;> simp [isOf, ofValue]
  | .bool b, n => by cases n <;> simp [isOf, ofValue]
  | .number x, n => by cases n <;> simp [isOf, ofValue]
  | .string s, n => by cases n <;> simp [isOf, ofValue]
  | .array vs, n => by
    cases n with
    | list ns breach => cases breach <;> simp [isOf, ofValue, isOfItems_iff vs ns]
    | _ => simp [isOf, ofValue]
  | .object ms, n => by
    cases n with
    | object ns breach => cases breach <;> simp [isOf, ofValue, isOfMembers_iff ms ns]
    | _ => simp [isOf, ofValue]

theorem isOfItems_iff : ∀ (vs : List Value) (ns : List Node), isOfItems vs ns = true ↔ ns = ofValues vs
  | [], ns => by cases ns <;> simp [isOfItems, ofValues]
  | v :: vs, ns => by cases ns <;> simp [isOfItems, ofValues, isOf_iff v, isOfItems_iff vs]

theorem isOfMembers_iff : ∀ (ms : List (String × Value)) (ns : List (Except Fault String × Node)),
    isOfMembers ms ns = true ↔ ns = ofMembers ms
  | [], ns => by cases ns <;> simp [isOfMembers, ofMembers]
  | (k, v) :: ms, [] => by simp [isOfMembers, ofMembers]
  | (k, v) :: ms, (.error _, n) :: ns => by simp [isOfMembers, ofMembers]
  | (k, v) :: ms, (.ok k', n) :: ns => by
    simp [isOfMembers, ofMembers, isOf_iff v, isOfMembers_iff ms, and_assoc]

end

instance (n : Node) (v : Value) : Decidable (n = ofValue v) :=
  decidable_of_iff (isOf v n = true) (isOf_iff v n)

end Node

instance (d : Document) (v : Value) (trailing : Bool) : Decidable (d = ⟨.ofValue v, trailing⟩) :=
  decidable_of_iff (d.root = .ofValue v ∧ d.trailing = trailing) (by cases d; simp)

theorem Decoder.pairs_string (levels : Levels) (entries : List (String × String)) :
    Decoder.pairs .string levels (Node.ofMembers (entries.map fun e => (e.1, .string e.2))) = .ok entries := by
  induction entries with
  | nil => rfl
  | cons e entries ih =>
    rw [List.map_cons, Node.ofMembers, Decoder.pairs, ih]
    rfl

theorem Decoder.oneOf_list {α β : Type} {type : String} {d : Decoder α} {f : List α → β} {forms : List (Decoder β)}
    {levels inner : Levels} {vs : List Value} {xs : List α} (henter : levels.enter = .ok inner)
    (h : List.Forall₂ (fun v x => (Node.ofValue v).check inner = .ok () ∧ d inner (.ofValue v) = .ok x) vs xs) :
    oneOf type ((fun levels n => (list d levels n).map f) :: forms) levels (.ofValue (.array vs)) = .ok (f xs) := by
  have hcheck : (Node.ofValue (.array vs)).check levels = .ok () := by
    have hitems : Node.checkItems inner (Node.ofValues vs) = .ok () := by
      apply Node.checkItems_of_forall
      rw [Node.ofValues_eq, List.forall_mem_map]
      intro v hv
      obtain ⟨x, -, hx, -⟩ := Lists.exists_right_of_mem h hv
      exact hx
    simp [Node.ofValue, Node.check, henter, bind, Except.bind, hitems]
  have hlist : list d levels (.ofValue (.array vs)) = .ok xs := by
    have hitems : (Node.ofValues vs).mapM (d inner) = .ok xs := by
      apply Lists.mapM_of_forall₂
      rw [Node.ofValues_eq, List.forall₂_map_left_iff]
      exact h.imp fun v x hx => hx.2
    simp [Node.ofValue, list, henter, bind, Except.bind, hitems]
  simp [oneOf, bind, Except.bind, hcheck, hlist, Except.map, Except.toOption]

namespace Field

variable {σ : Type} {fields : List (Field σ)} {levels : Levels}

def readMember (fields : List (Field σ)) (levels : Levels) (m : Except Fault String × Node) (s : σ) :
    Except DecodeError σ :=
  readMembers fields levels [m] s

theorem readMember_of_none {k : String} (h : fields.find? (·.hasName k) = none) (n : Node) (s : σ) :
    readMember fields levels (.ok k, n) s = (n.skip.mapError .fault).map fun _ => s := by
  rw [readMember, readMembers, h]
  cases n.skip <;> rfl

theorem readMember_of_some {k : String} {f : Field σ} (h : fields.find? (·.hasName k) = some f) (n : Node) (s : σ) :
    readMember fields levels (.ok k, n) s =
      if f.isSet s then .error (.duplicateField f.name) else f.read levels n s := by
  rw [readMember, readMembers, h]
  by_cases hset : f.isSet s = true
  · simp only [hset, if_true]
  · cases hread : f.read levels n s <;> simp [hset, hread, bind, Except.bind, readMembers]

theorem readMembers_cons (m : Except Fault String × Node) (ms : List (Except Fault String × Node)) (s : σ) :
    readMembers fields levels (m :: ms) s = (readMember fields levels m s).bind (readMembers fields levels ms) := by
  obtain ⟨k, n⟩ := m
  cases k with
  | error f => rfl
  | ok k =>
    rw [readMembers]
    cases h : fields.find? (·.hasName k) with
    | none =>
      rw [readMember_of_none h]
      cases n.skip <;> rfl
    | some f =>
      rw [readMember_of_some h]
      by_cases hset : f.isSet s = true
      · simp only [hset, if_true]
        rfl
      · simp only [hset]
        rfl

theorem readMembers_append (ms ms' : List (Except Fault String × Node)) (s : σ) :
    readMembers fields levels (ms ++ ms') s = (readMembers fields levels ms s).bind (readMembers fields levels ms') := by
  induction ms generalizing s with
  | nil => rfl
  | cons m ms ih =>
    rw [List.cons_append, readMembers_cons, readMembers_cons]
    cases readMember fields levels m s with
    | error e => rfl
    | ok s' => exact ih s'

theorem readMembers_carry {g : σ → σ} {ms : List (Except Fault String × Node)}
    (h : ∀ m ∈ ms, ∀ s, readMember fields levels m (g s) = (readMember fields levels m s).map g) (s : σ) :
    readMembers fields levels ms (g s) = (readMembers fields levels ms s).map g := by
  induction ms generalizing s with
  | nil => rfl
  | cons m ms ih =>
    obtain ⟨hm, hms⟩ := List.forall_mem_cons.mp h
    rw [readMembers_cons, readMembers_cons, hm s]
    cases readMember fields levels m s with
    | error e => rfl
    | ok s' => exact ih hms s'

end Field

end Applicability.Json
