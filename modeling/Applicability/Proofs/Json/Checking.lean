import Applicability.Proofs.Json.Decoding

namespace Applicability.Json

namespace Node

variable {levels : Levels}

def Whole (levels : Levels) (ms : List (Except Fault String × Node)) : Prop :=
  ∀ m ∈ ms, ∃ k, m.1 = .ok k ∧ m.2.check levels = .ok ()

theorem checkMembers_eq_ok {ms : List (Except Fault String × Node)} (h : checkMembers levels ms = .ok ()) :
    Whole levels ms := by
  induction ms with
  | nil => exact List.forall_mem_nil _
  | cons m ms ih =>
    obtain ⟨k, n⟩ := m
    cases k with
    | error f => cases h
    | ok k =>
      obtain ⟨⟨⟩, hn, hms⟩ := exists_of_bind_ok h
      exact List.forall_mem_cons.mpr ⟨⟨k, rfl, hn⟩, ih hms⟩

theorem check_object_eq_ok {members : List (Except Fault String × Node)} {breach : Option Breach}
    (h : (Node.object members breach).check textLevels = .ok ()) : breach = none ∧ Whole (some 127) members := by
  rw [check] at h
  obtain ⟨inner, hinner, h⟩ := exists_of_bind_ok h
  obtain rfl : some 127 = inner := Except.ok.inj hinner
  obtain ⟨⟨⟩, hmembers, hbreach⟩ := exists_of_bind_ok h
  cases breach with
  | some b => cases hbreach
  | none => exact ⟨rfl, checkMembers_eq_ok hmembers⟩

mutual

theorem skip_of_check : ∀ (levels : Levels) (n : Node), n.check levels = .ok () → n.skip = .ok ()
  | _, .null, _ => rfl
  | _, .bool _, _ => rfl
  | _, .number _, _ => rfl
  | _, .string _, _ => rfl
  | _, .unreadable _, _ => rfl
  | _, .broken _, h => by cases h
  | levels, .list items breach, h => by
    rw [check] at h
    obtain ⟨inner, -, h⟩ := exists_of_bind_ok h
    obtain ⟨⟨⟩, hitems, hbreach⟩ := exists_of_bind_ok h
    cases breach with
    | some b => cases hbreach
    | none => rw [skip, skipItems_of_checkItems inner items hitems]; rfl
  | levels, .object members breach, h => by
    rw [check] at h
    obtain ⟨inner, -, h⟩ := exists_of_bind_ok h
    obtain ⟨⟨⟩, hmembers, hbreach⟩ := exists_of_bind_ok h
    cases breach with
    | some b => cases hbreach
    | none => rw [skip, skipMembers_of_checkMembers inner members hmembers]; rfl

theorem skipItems_of_checkItems : ∀ (levels : Levels) (ns : List Node),
    checkItems levels ns = .ok () → skipItems ns = .ok ()
  | _, [], _ => rfl
  | levels, n :: ns, h => by
    obtain ⟨⟨⟩, hn, hns⟩ := exists_of_bind_ok h
    rw [skipItems, skip_of_check levels n hn]
    exact skipItems_of_checkItems levels ns hns

theorem skipMembers_of_checkMembers : ∀ (levels : Levels) (ms : List (Except Fault String × Node)),
    checkMembers levels ms = .ok () → skipMembers ms = .ok ()
  | _, [], _ => rfl
  | _, (.error _, _) :: _, h => by cases h
  | levels, (.ok _, n) :: ms, h => by
    obtain ⟨⟨⟩, hn, hms⟩ := exists_of_bind_ok h
    rw [skipMembers, skip_of_check levels n hn]
    exact skipMembers_of_checkMembers levels ms hms

end

end Node

theorem Decoder.pairs_value {α : Type} (f : Value → α) {levels : Levels} {ms : List (Except Fault String × Node)}
    (h : Node.Whole levels ms) :
    Decoder.pairs (fun levels n => (Decoder.value levels n).map f) levels ms =
      .ok ((Node.toMembers ms).map fun p => (p.1, f p.2)) := by
  induction ms with
  | nil => rfl
  | cons m ms ih =>
    obtain ⟨⟨k, hk, hn⟩, hms⟩ := List.forall_mem_cons.mp h
    obtain ⟨_, n⟩ := m
    subst hk
    rw [Decoder.pairs, ih hms, Decoder.value, hn]
    rfl

namespace Field

variable {σ α : Type} {fields : List (Field σ)} {levels : Levels} {s s' : σ}
  {ms : List (Except Fault String × Node)}

def Named (names : String → Bool) (m : Except Fault String × Node) : Prop :=
  ∃ k, m.1 = .ok k ∧ names k = true

theorem readMembers_of_skipped
    (h : ∀ m ∈ ms, ∃ k, m.1 = .ok k ∧ fields.find? (·.hasName k) = none ∧ m.2.skip = .ok ()) :
    readMembers fields levels ms s = .ok s := by
  induction ms with
  | nil => rfl
  | cons m ms ih =>
    obtain ⟨⟨k, hk, hnone, hskip⟩, hms⟩ := List.forall_mem_cons.mp h
    obtain ⟨_, n⟩ := m
    subst hk
    rw [readMembers_cons, readMember_of_none hnone, hskip]
    exact ih hms

theorem ofObject_eq_ok {type : String} {members : List (Except Fault String × Node)} {breach : Option Breach}
    (h : ofObject type fields s levels (.object members breach) = .ok s') :
    ∃ inner, levels.enter = .ok inner ∧ readMembers fields inner members s = .ok s' ∧ breach = none := by
  obtain ⟨inner, hinner, h⟩ := exists_of_bind_ok h
  obtain ⟨d, hmembers, h⟩ := exists_of_bind_ok h
  cases breach with
  | some b => cases h
  | none =>
    refine ⟨inner, hinner, ?_, rfl⟩
    rw [hmembers]
    change (missing? fields d).elim _ _ = _ at h
    cases hmissing : missing? fields d with
    | none =>
      rw [hmissing] at h
      exact h
    | some name =>
      rw [hmissing] at h
      cases h

theorem ofObject_of_readMembers {type : String} {inner : Levels} {members : List (Except Fault String × Node)}
    (henter : levels.enter = .ok inner) (h : readMembers fields inner members s = .ok s') :
    ofObject type fields s levels (.object members none) =
      (missing? fields s').elim (.ok s') fun name => .error (.missingField name) := by
  rw [ofObject, henter]
  change (readMembers fields inner members s).bind _ = _
  rw [h]
  rfl

structure Fills (fields : List (Field σ)) (names : String → Bool) (part : σ → Option α) (d : Decoder α) : Prop where
  own : ∀ {levels k n s s'}, names k = true → readMember fields levels (.ok k, n) s = .ok s' →
    part s = none ∧ ∃ v, d levels n = .ok v ∧ part s' = some v
  other : ∀ {levels k n s s'}, names k = false → readMember fields levels (.ok k, n) s = .ok s' → part s' = part s

variable {names : String → Bool} {part : σ → Option α} {d : Decoder α}

theorem Fills.readMembers (h : Fills fields names part d) (hread : readMembers fields levels ms s = .ok s') :
    ((∀ m ∈ ms, ¬Named names m) ∧ part s' = part s) ∨
      part s = none ∧ ∃ l k n r v, ms = l ++ (.ok k, n) :: r ∧ names k = true ∧ d levels n = .ok v ∧
        part s' = some v ∧ ∀ m ∈ l ++ r, ¬Named names m := by
  induction ms generalizing s with
  | nil =>
    cases hread
    exact .inl ⟨List.forall_mem_nil _, rfl⟩
  | cons m ms ih =>
    rw [readMembers_cons] at hread
    obtain ⟨s₁, hm, hms⟩ := exists_of_bind_ok hread
    obtain ⟨k, n⟩ := m
    cases k with
    | error f => cases hm
    | ok k =>
      cases hk : names k with
      | true =>
        obtain ⟨hnone, v, hv, hsome⟩ := h.own hk hm
        rcases ih hms with ⟨hrest, hkept⟩ | ⟨hnone', -⟩
        · exact .inr ⟨hnone, [], k, n, ms, v, rfl, hk, hv, hkept.trans hsome, hrest⟩
        · rw [hsome] at hnone'
          cases hnone'
      | false =>
        have hnot : ¬Named names (.ok k, n) := by
          rintro ⟨k', ⟨⟩, hk'⟩
          rw [hk] at hk'
          cases hk'
        rcases ih hms with ⟨hrest, hkept⟩ | ⟨hnone, l, k', n', r, v, rfl, hk', hv, hsome, hrest⟩
        · exact .inl ⟨List.forall_mem_cons.mpr ⟨hnot, hrest⟩, hkept.trans (h.other hk hm)⟩
        · exact .inr ⟨(h.other hk hm) ▸ hnone, (.ok k, n) :: l, k', n', r, v, rfl, hk', hv, hsome,
            List.forall_mem_cons.mpr ⟨hnot, hrest⟩⟩

end Field

theorem decodeText_eq_ok {α : Type} {d : Decoder α} {text : String} {v : α} :
    decodeText d text = .ok v ↔ d textLevels (Document.ofText text).root = .ok v ∧
      (Document.ofText text).trailing = false := by
  constructor
  · intro h
    obtain ⟨v', hv, h⟩ := exists_of_bind_ok h
    split at h
    · cases h
    · rename_i htrailing
      exact ⟨hv.trans h, by simpa using htrailing⟩
  · rintro ⟨hv, htrailing⟩
    rw [decodeText, hv, htrailing]
    rfl

end Applicability.Json
