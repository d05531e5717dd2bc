import Applicability.Proofs.Json.Checking
import Applicability.Proofs.KeyMapOrder

/-!
Decoding what has been encoded. A decoder is lossless if it gives back everything that it has given once and that has
been encoded since. What a union gives stays in its form as long as the forms before it refuse the encoding.
-/

namespace Applicability.Json

namespace Value

theorem sortedMembers_eq (ms : List (String × Value)) : sortedMembers ms = ms.map fun m => (m.1, m.2.sorted) := by
  induction ms with
  | nil => rfl
  | cons m ms ih => rw [sortedMembers, ih, List.map_cons]

theorem sortedMembers_of_forall {ms : List (String × Value)} (h : ∀ m ∈ ms, m.2.sorted = m.2) :
    sortedMembers ms = ms := by
  rw [sortedMembers_eq]
  exact (List.map_congr_left fun m hm => by rw [h m hm]).trans (List.map_id' ms)

end Value

namespace Node

mutual

theorem check_ofValue : ∀ v : Value, (ofValue v).check none = .ok ()
  | .null | .bool _ | .number _ | .string _ => rfl
  | .array vs => by
    rw [ofValue, check]
    change (checkItems none (ofValues vs)).bind _ = _
    rw [checkItems_ofValues vs]
    rfl
  | .object ms => by
    rw [ofValue, check]
    change (checkMembers none (ofMembers ms)).bind _ = _
    rw [checkMembers_ofMembers ms]
    rfl

theorem checkItems_ofValues : ∀ vs : List Value, checkItems none (ofValues vs) = .ok ()
  | [] => rfl
  | v :: vs => by
    rw [ofValues, checkItems, check_ofValue v]
    exact checkItems_ofValues vs

theorem checkMembers_ofMembers : ∀ ms : List (String × Value), checkMembers none (ofMembers ms) = .ok ()
  | [] => rfl
  | (_, v) :: ms => by
    rw [ofMembers, checkMembers, check_ofValue v]
    exact checkMembers_ofMembers ms

end

mutual

theorem toValue_ofValue : ∀ v : Value, (ofValue v).toValue = v.sorted
  | .null | .bool _ | .number _ | .string _ => rfl
  | .array vs => by rw [ofValue, toValue, toValues_ofValues vs, Value.sorted]
  | .object ms => by rw [ofValue, toValue, toMembers_ofMembers ms, Value.sorted]

theorem toValues_ofValues : ∀ vs : List Value, toValues (ofValues vs) = Value.sortedItems vs
  | [] => rfl
  | v :: vs => by rw [ofValues, toValues, toValue_ofValue v, toValues_ofValues vs, Value.sortedItems]

theorem toMembers_ofMembers : ∀ ms : List (String × Value), toMembers (ofMembers ms) = Value.sortedMembers ms
  | [] => rfl
  | (k, v) :: ms => by rw [ofMembers, toMembers, toValue_ofValue v, toMembers_ofMembers ms, Value.sortedMembers]

end

mutual

theorem sorted_toValue : ∀ n : Node, n.toValue.sorted = n.toValue
  | .null | .bool _ | .number _ | .string _ | .unreadable _ | .broken _ => rfl
  | .list ns _ => by rw [toValue, Value.sorted, sorted_toValues ns]
  | .object ms _ => by
    have hsorted : ∀ m ∈ (KeyMap.ofList (toMembers ms)).toList, m.2.sorted = m.2 :=
      fun m hm => sorted_toMembers ms m (KeyMap.mem_of_mem_ofList hm)
    rw [toValue, Value.sorted, Value.sortedMembers_of_forall hsorted, KeyMap.ofList_toList (KeyMap.ordered_ofList _)]

theorem sorted_toValues : ∀ ns : List Node, Value.sortedItems (toValues ns) = toValues ns
  | [] => rfl
  | n :: ns => by rw [toValues, Value.sortedItems, sorted_toValue n, sorted_toValues ns]

theorem sorted_toMembers : ∀ (ms : List (Except Fault String × Node)), ∀ m ∈ toMembers ms, m.2.sorted = m.2
  | [] => List.forall_mem_nil _
  | (.error _, _) :: ms => sorted_toMembers ms
  | (.ok _, n) :: ms => List.forall_mem_cons.mpr ⟨sorted_toValue n, sorted_toMembers ms⟩

end

end Node

namespace Field

variable {σ : Type} {fields : List (Field σ)} {levels : Levels} {s s' : σ} {P : σ → Prop}

def Keep (fields : List (Field σ)) (P : σ → Prop) : Prop :=
  ∀ f ∈ fields, ∀ {levels n s s'}, P s → f.read levels n s = .ok s' → P s'

theorem Keep.readMembers (h : Keep fields P) {ms : List (Except Fault String × Node)}
    (hread : readMembers fields levels ms s = .ok s') (hs : P s) : P s' := by
  induction ms generalizing s with
  | nil =>
    cases hread
    exact hs
  | cons m ms ih =>
    rw [readMembers_cons] at hread
    obtain ⟨s₁, hm, hms⟩ := exists_of_bind_ok hread
    apply ih hms
    obtain ⟨k, n⟩ := m
    cases k with
    | error f => cases hm
    | ok k =>
      cases hfield : fields.find? (·.hasName k) with
      | none =>
        rw [readMember_of_none hfield] at hm
        obtain ⟨-, -, rfl⟩ := exists_of_map_ok hm
        exact hs
      | some f =>
        rw [readMember_of_some hfield] at hm
        split at hm
        · cases hm
        · exact h f (List.mem_of_find?_eq_some hfield) hs hm

theorem Keep.readItems {index total : Nat} {short : String} {breach : Option Breach} (h : Keep fields P)
    {ns : List Node} (hread : readItems levels index total short breach fields ns s = .ok s') (hs : P s) : P s' := by
  induction fields generalizing ns s index breach with
  | nil =>
    cases ns with
    | nil =>
      rw [Field.readItems] at hread
      cases hfault : surplusFault breach with
      | none =>
        rw [hfault] at hread
        cases hread
        exact hs
      | some f =>
        rw [hfault] at hread
        cases hread
    | cons n ns => cases levels <;> cases hread
  | cons f fs ih =>
    obtain ⟨hf, hfs⟩ := List.forall_mem_cons.mp h
    cases ns with
    | nil =>
      cases breach with
      | some b => cases hread
      | none =>
        rw [Field.readItems] at hread
        split at hread
        · cases hread
        · exact ih hfs hread hs
    | cons n ns =>
      obtain ⟨s₁, hn, hns⟩ := exists_of_bind_ok hread
      exact ih hfs hns (hf hs hn)

theorem Keep.ofObject {type : String} {n : Node} (h : Keep fields P)
    (hread : ofObject type fields s levels n = .ok s') (hs : P s) : P s' := by
  cases n with
  | object members breach =>
    obtain ⟨inner, -, hmembers, -⟩ := ofObject_eq_ok hread
    exact h.readMembers hmembers hs
  | _ => cases hread

theorem Keep.record {type : String} {n : Node} (h : Keep fields P)
    (hread : record type fields s levels n = .ok s') (hs : P s) : P s' := by
  cases n with
  | list items breach =>
    obtain ⟨inner, -, hitems⟩ := exists_of_bind_ok hread
    exact h.readItems hitems hs
  | object members breach =>
    have hobject : Field.ofObject type fields s levels (.object members breach) = .ok s' := hread
    exact h.ofObject hobject hs
  | _ => cases hread

theorem readMembers_of_field {α : Type} {k name : String} {aliases : List String} {required : Bool} {d : Decoder α}
    {get : σ → Option α} {set : σ → α → σ} {v : Value} {a : α} {ms : List (String × Value)}
    (hfield : fields.find? (·.hasName k) = some (.of name aliases required d get set)) (hget : get s = none)
    (hd : d levels (.ofValue v) = .ok a) :
    Field.readMembers fields levels (Node.ofMembers ((k, v) :: ms)) s =
      Field.readMembers fields levels (Node.ofMembers ms) (set s a) := by
  rw [Node.ofMembers, readMembers_cons, readMember_of_some hfield]
  simp [of, hget, hd, Except.map, Except.bind]

end Field

namespace Decoder

variable {α : Type} {type : String} {forms : List (Decoder α)} {d : Decoder α} {v : Value} {a : α}

theorem oneOf_eq_ok {levels : Levels} {n : Node} (h : oneOf type forms levels n = .ok a) :
    ∃ d ∈ forms, d levels n = .ok a := by
  obtain ⟨-, -, h⟩ := exists_of_bind_ok h
  cases hfind : forms.findSome? fun d => (d levels n).toOption with
  | none =>
    simp only [hfind] at h
    cases h
  | some a' =>
    simp only [hfind] at h
    cases h
    obtain ⟨d, hd, ha⟩ := List.exists_of_findSome?_eq_some hfind
    refine ⟨d, hd, ?_⟩
    cases hread : d levels n with
    | error e =>
      rw [hread] at ha
      cases ha
    | ok a'' =>
      rw [hread] at ha
      cases ha
      rfl

theorem oneOf_of_ok (h : d none (.ofValue v) = .ok a) : oneOf type (d :: forms) none (.ofValue v) = .ok a := by
  rw [oneOf, Node.check_ofValue]
  simp only [List.findSome?_cons, h]
  rfl

theorem oneOf_of_error {e : DecodeError} (h : d none (.ofValue v) = .error e) :
    oneOf type (d :: forms) none (.ofValue v) = oneOf type forms none (.ofValue v) := by
  rw [oneOf, oneOf, Node.check_ofValue]
  simp only [List.findSome?_cons, h]
  rfl

end Decoder

/-- What the decoder gives is in some form, and what is in that form it gives back after encoding. -/
structure Lossless {α : Type} (d : Decoder α) (encode : α → Value) (Form : α → Prop) : Prop where
  form : ∀ {levels n a}, d levels n = .ok a → Form a
  decode : ∀ {a}, Form a → d none (.ofValue (encode a)) = .ok a

namespace Lossless

variable {α : Type} {d : Decoder α} {encode : α → Value} {Form : α → Prop}

theorem string : Lossless .string .string fun _ => True :=
  ⟨fun _ => trivial, fun _ => rfl⟩

theorem value : Lossless .value id fun v => v.sorted = v where
  form := by
    intro levels n v h
    obtain ⟨-, -, hv⟩ := exists_of_bind_ok h
    cases hv
    exact n.sorted_toValue
  decode := by
    intro v hv
    change (Node.ofValue v).check none >>= _ = _
    rw [Node.check_ofValue]
    change Except.ok (Node.ofValue v).toValue = _
    rw [Node.toValue_ofValue, hv]

theorem optional (h : Lossless d encode Form) (hnull : ∀ a, encode a ≠ .null) :
    Lossless (.optional d) (fun o => o.elim .null encode) fun o => ∀ a ∈ o, Form a where
  form := by
    intro levels n o hread a ha
    obtain rfl : o = some a := ha
    have hsome : (d levels n).map some = .ok (some a) := by
      cases n with
      | null => cases hread
      | _ => exact hread
    obtain ⟨a', ha', heq⟩ := exists_of_map_ok hsome
    cases heq
    exact h.form ha'
  decode := by
    intro o ho
    cases o with
    | none => rfl
    | some a =>
      have hsome : Decoder.optional d none (.ofValue (encode a)) = (d none (.ofValue (encode a))).map some := by
        cases hv : encode a with
        | null => exact absurd hv (hnull a)
        | _ => rfl
      change Decoder.optional d none (.ofValue (encode a)) = _
      rw [hsome, h.decode (ho a rfl)]
      rfl

theorem list (h : Lossless d encode Form) :
    Lossless (.list d) (fun xs => .array (xs.map encode)) fun xs => ∀ x ∈ xs, Form x where
  form := by
    intro levels n xs hread
    cases n with
    | list items breach =>
      obtain ⟨inner, -, hread⟩ := exists_of_bind_ok hread
      obtain ⟨ys, hitems, hread⟩ := exists_of_bind_ok hread
      obtain rfl : ys = xs := by
        cases breach with
        | some b => cases hread
        | none => exact Except.ok.inj hread
      intro x hx
      obtain ⟨m, -, hm⟩ := Lists.exists_left_of_mem (Lists.forall₂_of_mapM hitems) hx
      exact h.form hm
    | _ => cases hread
  decode := by
    intro xs hxs
    have hitems : (Node.ofValues (xs.map encode)).mapM (d none) = .ok xs := by
      apply Lists.mapM_of_forall₂
      rw [Node.ofValues_eq, List.forall₂_map_left_iff, List.forall₂_map_left_iff, List.forall₂_same]
      exact fun x hx => h.decode (hxs x hx)
    change ((Node.ofValues (xs.map encode)).mapM (d none)).bind _ = _
    rw [hitems]
    rfl

theorem keyMap : Lossless (.keyMap .string) (fun m => .object (m.toList.map fun p => (p.1, .string p.2)))
    fun m => KeyMap.Ordered m.entries where
  form := by
    intro levels n m hread
    cases n with
    | object members breach =>
      obtain ⟨inner, -, hread⟩ := exists_of_bind_ok hread
      obtain ⟨found, -, hread⟩ := exists_of_bind_ok hread
      obtain rfl : .ofList found = m := by
        cases breach with
        | some b => cases hread
        | none => exact Except.ok.inj hread
      exact KeyMap.ordered_ofList found
    | _ => cases hread
  decode := by
    intro m hm
    change (Decoder.pairs .string none (Node.ofMembers (m.toList.map fun p => (p.1, .string p.2)))).bind _ = _
    rw [Decoder.pairs_string]
    change Except.ok (KeyMap.ofList m.toList) = _
    rw [KeyMap.ofList_toList hm]

theorem union {β γ : Type} {d' : Decoder β} {encode' : β → Value} {Form' : β → Prop} {f : α → γ} {f' : β → γ}
    {encodeUnion : γ → Value} {FormUnion : γ → Prop} {type : String} (h : Lossless d encode Form)
    (h' : Lossless d' encode' Form') (hform : ∀ a, Form a → FormUnion (f a)) (hform' : ∀ b, Form' b → FormUnion (f' b))
    (hcases : ∀ c, FormUnion c → (∃ a, Form a ∧ f a = c ∧ encode a = encodeUnion c) ∨
      ∃ b, Form' b ∧ f' b = c ∧ encode' b = encodeUnion c ∧ ∃ e, d none (.ofValue (encode' b)) = .error e) :
    Lossless (.oneOf type [fun levels n => (d levels n).map f, fun levels n => (d' levels n).map f']) encodeUnion
      FormUnion where
  form := by
    intro levels n c hread
    obtain ⟨g, hg, hread⟩ := Decoder.oneOf_eq_ok hread
    simp only [List.mem_cons, List.not_mem_nil, or_false] at hg
    rcases hg with rfl | rfl
    · obtain ⟨a, ha, rfl⟩ := exists_of_map_ok hread
      exact hform a (h.form ha)
    · obtain ⟨b, hb, rfl⟩ := exists_of_map_ok hread
      exact hform' b (h'.form hb)
  decode := by
    intro c hc
    rcases hcases c hc with ⟨a, ha, rfl, henc⟩ | ⟨b, hb, rfl, henc, e, he⟩
    · apply Decoder.oneOf_of_ok
      rw [← henc, h.decode ha]
      rfl
    · have hrefused : (d none (.ofValue (encodeUnion (f' b)))).map f = .error e := by
        rw [← henc, he]
        rfl
      rw [Decoder.oneOf_of_error hrefused]
      apply Decoder.oneOf_of_ok
      rw [← henc, h'.decode hb]
      rfl

end Lossless

end Applicability.Json
