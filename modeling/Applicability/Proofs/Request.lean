import Applicability.Proofs.Catalog.Encoding
import Applicability.Request

namespace Applicability

open Json

namespace Capability

def Declared.Form (d : Declared) : Prop :=
  ∃ v : Value, v.sorted = v ∧ ofValue v = d

theorem Declared.toValue_ofValue (v : Value) : (ofValue v).toValue = v := by
  cases v with
  | number n =>
    cases n with
    | int n =>
      rw [ofValue]
      split <;> rfl
    | float x => rfl
  | _ => rfl

theorem Declared.lossless : Lossless decoder toValue Form where
  form := by
    intro levels n d h
    obtain ⟨v, hv, rfl⟩ := exists_of_map_ok h
    exact ⟨v, Lossless.value.form hv, rfl⟩
  decode := by
    rintro _ ⟨v, hv, rfl⟩
    have hvalue : Decoder.value none (.ofValue v) = .ok v := Lossless.value.decode hv
    rw [toValue_ofValue, decoder, hvalue]
    rfl

def Item.Form (item : Item) : Prop :=
  item.declared.Form

theorem Item.lossless : Lossless decoder toValue Form where
  form := by
    intro levels n item h
    obtain ⟨d, hread, h⟩ := exists_of_bind_ok h
    cases h
    have hkeep : Field.Keep fields fun d : Draft => ∀ declared ∈ d.declared, declared.Form := by
      rintro f hf levels n s s' hs hread
      simp only [fields, List.mem_cons, List.not_mem_nil, or_false] at hf
      rcases hf with rfl | rfl
      · obtain ⟨id, -, rfl⟩ := exists_of_map_ok hread
        exact hs
      · obtain ⟨declared, hdeclared, rfl⟩ := exists_of_map_ok hread
        rintro declared' ⟨⟩
        exact Declared.lossless.form hdeclared
    have hdeclared := hkeep.record hread (by simp)
    obtain ⟨id, declared⟩ := d
    cases declared with
    | none => exact ⟨.bool false, rfl, rfl⟩
    | some declared => exact hdeclared declared rfl
  decode := by
    intro item h
    have hread : Field.readMembers fields none
        (Node.ofMembers [("item_id", .string item.id), ("value", item.declared.toValue)]) ⟨none, none⟩ =
          .ok ⟨some item.id, some item.declared⟩ := by
      rw [Field.readMembers_of_field rfl rfl (Lossless.string.decode trivial),
        Field.readMembers_of_field rfl rfl (Declared.lossless.decode h)]
      rfl
    change (Field.ofObject "PicsItem" fields ⟨none, none⟩ none (.ofValue item.toValue)).bind _ = _
    rw [toValue, Node.ofValue, Field.ofObject_of_readMembers rfl hread]
    rfl

end Capability

namespace Request

open Capability Catalog

structure Form (r : Request) : Prop where
  items : ∀ item ∈ r.items, item.Form
  document : ∀ d ∈ r.document, d.Form

theorem form_of_decoder {levels : Levels} {n : Node} {r : Request} (h : decoder levels n = .ok r) : r.Form := by
  obtain ⟨d, hread, h⟩ := exists_of_bind_ok h
  cases h
  have hkeep : Field.Keep fields fun d : Draft =>
      (∀ items ∈ d.items, ∀ item ∈ items, item.Form) ∧ ∀ o ∈ d.document, ∀ document ∈ o, document.Form := by
    rintro f hf levels n s s' ⟨hitems, hdocument⟩ hread
    simp only [fields, List.mem_cons, List.not_mem_nil, or_false] at hf
    rcases hf with rfl | rfl | rfl
    · obtain ⟨items, hlist, rfl⟩ := exists_of_map_ok hread
      refine ⟨?_, hdocument⟩
      rintro items' ⟨⟩
      exact Item.lossless.list.form hlist
    · obtain ⟨id, -, rfl⟩ := exists_of_map_ok hread
      exact ⟨hitems, hdocument⟩
    · obtain ⟨o, ho, rfl⟩ := exists_of_map_ok hread
      refine ⟨hitems, ?_⟩
      rintro o' ⟨⟩
      exact (Document.lossless.optional fun _ => Value.noConfusion).form ho
  obtain ⟨hitems, hdocument⟩ := hkeep.record hread (by simp)
  obtain ⟨items, id, document⟩ := d
  constructor
  · cases items with
    | none => exact List.forall_mem_nil _
    | some items => exact hitems items rfl
  · cases document with
    | none => simp
    | some o => exact hdocument o rfl

theorem exists_draft {r : Request} (h : r.Form) : ∃ d : Draft,
    Field.ofObject "FilterRequest" fields ⟨none, none, none⟩ none (.ofValue r.toValue) = .ok d ∧
      ⟨d.items.getD [], d.specificationId.getD none, d.document.getD none⟩ = r := by
  obtain ⟨items, id, document⟩ := r
  have hlist : Decoder.list Item.decoder none (.ofValue (.array (items.map Item.toValue))) = .ok items :=
    Item.lossless.list.decode h.items
  have hitems (ms : List (String × Value)) : Field.readMembers fields none
      (Node.ofMembers (("pics_items", .array (items.map Item.toValue)) :: ms)) ⟨none, none, none⟩ =
        Field.readMembers fields none (Node.ofMembers ms) ⟨some items, none, none⟩ := by
    rw [Field.readMembers_of_field rfl rfl hlist]
  have hid (id : String) (ms : List (String × Value)) : Field.readMembers fields none
      (Node.ofMembers (("specification_id", .string id) :: ms)) ⟨some items, none, none⟩ =
        Field.readMembers fields none (Node.ofMembers ms) ⟨some items, some (some id), none⟩ := by
    have hread : Decoder.optional .string none (.ofValue (.string id)) = .ok (some id) := rfl
    rw [Field.readMembers_of_field rfl rfl hread]
  have hdocument (o : Option (Option String)) : ∀ d ∈ document, Field.readMembers fields none
      (Node.ofMembers [("spec_data", d.toValue)]) ⟨some items, o, none⟩ = .ok ⟨some items, o, some (some d)⟩ := by
    rintro d rfl
    have hread : Decoder.optional Document.decoder none (.ofValue d.toValue) = .ok (some d) :=
      (Document.lossless.optional fun _ => Value.noConfusion).decode (a := some d) h.document
    rw [Field.readMembers_of_field rfl rfl hread]
    rfl
  cases id with
  | none =>
    cases document with
    | none => exact ⟨⟨some items, none, none⟩, Field.ofObject_of_readMembers rfl (hitems _), rfl⟩
    | some d =>
      exact ⟨⟨some items, none, some (some d)⟩,
        Field.ofObject_of_readMembers rfl ((hitems _).trans (hdocument _ d rfl)), rfl⟩
  | some id =>
    cases document with
    | none =>
      exact ⟨⟨some items, some (some id), none⟩, Field.ofObject_of_readMembers rfl ((hitems _).trans (hid id _)), rfl⟩
    | some d =>
      exact ⟨⟨some items, some (some id), some (some d)⟩,
        Field.ofObject_of_readMembers rfl ((hitems _).trans ((hid id _).trans (hdocument _ d rfl))), rfl⟩

theorem decoder_toValue {r : Request} (h : r.Form) : decoder none (.ofValue r.toValue) = .ok r := by
  obtain ⟨d, hread, hd⟩ := exists_draft h
  change (Field.ofObject "FilterRequest" fields ⟨none, none, none⟩ none (.ofValue r.toValue)).bind _ = _
  rw [hread]
  exact congrArg Except.ok hd

theorem lossless : Lossless decoder toValue Form :=
  ⟨form_of_decoder, decoder_toValue⟩

def canonical (v : Value) : Except DecodeError Value :=
  (decodeValue decoder v).map toValue

/-- A request that has been read, from a text or from a value, is read again from its encoding as it is: each of its
unions comes back in the form that it had, and the encoding is its own canonical value. -/
theorem decodeValue_toValue {levels : Levels} {n : Node} {r : Request} (h : decoder levels n = .ok r) :
    decodeValue decoder r.toValue = .ok r ∧ canonical r.toValue = .ok r.toValue := by
  have hdecode : decodeValue decoder r.toValue = .ok r := lossless.decode (lossless.form h)
  refine ⟨hdecode, ?_⟩
  rw [canonical, hdecode]
  rfl

theorem decodeValue_toValue_spellings :
    let v : Value := .object
      [("pics", .array
          [.array [.string "A.1/1", .number (.int 0x8000000000000000)],
            .object [("supported", .array [.null]), ("id", .string "A.1/2")]]),
        ("spec_id", .null),
        ("spec_data", .object
          [("test_cases", .object
              [("headers", .strings ["Test ID"]),
                ("data", .array [.array [.object [("b", .null), ("a", .bool true)]]])]),
            ("c_conditions", .object [("C.1", .string "A.1/1")])])]
    let r : Request :=
      ⟨[⟨"A.1/1", .other (.number (.int 0x8000000000000000))⟩, ⟨"A.1/2", .other (.array [.null])⟩], none,
        some ⟨.table ⟨["Test ID"], [[.object [("a", .bool true), ("b", .null)]]]⟩, .map ⟨[("C.1", "A.1/1")]⟩⟩⟩
    decoder none (.ofValue v) = .ok r ∧ decodeValue decoder r.toValue = .ok r ∧ canonical r.toValue = .ok r.toValue := by
  intro v r
  have h : decoder none (.ofValue v) = .ok r := rfl
  exact ⟨h, decodeValue_toValue h⟩

end Request

end Applicability
