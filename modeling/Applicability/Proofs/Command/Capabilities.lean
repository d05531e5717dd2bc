import Applicability.Command.Eval
import Applicability.Proofs.Json.Checking
import Applicability.Proofs.KeyMapOrder
import Applicability.Request

namespace Applicability

open Capability Json

def Request.namesItems (k : String) : Bool :=
  k == "pics_items" || k == "pics"

theorem Request.fills_items :
    Field.Fills fields namesItems (·.items) (.list Item.decoder) where
  own := by
    intro levels k n s s' hk hread
    have hfield : fields.find? (·.hasName k) = fields.head? := by
      simp only [namesItems, Bool.or_eq_true, beq_iff_eq] at hk
      rcases hk with rfl | rfl <;> simp [fields, Field.of, Field.hasName]
    rw [Field.readMember_of_some hfield] at hread
    obtain ⟨items, id, document⟩ := s
    cases items with
    | some items => cases hread
    | none =>
      obtain ⟨items, hitems, rfl⟩ := exists_of_map_ok hread
      exact ⟨rfl, items, hitems, rfl⟩
  other := by
    intro levels k n s s' hk hread
    cases hfield : fields.find? (·.hasName k) with
    | none =>
      rw [Field.readMember_of_none hfield] at hread
      obtain ⟨-, -, rfl⟩ := exists_of_map_ok hread
      rfl
    | some f =>
      rw [Field.readMember_of_some hfield] at hread
      have hname : f.hasName k = true := List.find?_some (p := fun f : Json.Field Draft => f.hasName k) hfield
      have hmem := List.mem_of_find?_eq_some hfield
      simp only [fields, List.mem_cons, List.not_mem_nil, or_false] at hmem
      split at hread
      · cases hread
      · rcases hmem with rfl | rfl | rfl
        · simp only [Field.hasName, Field.of, List.contains_cons, List.contains_nil, Bool.or_false, Bool.or_eq_true,
            beq_iff_eq] at hname
          rcases hname with rfl | rfl <;> exact absurd hk (by decide)
        all_goals
          obtain ⟨v, -, rfl⟩ := exists_of_map_ok hread
          rfl

variable {text : String} {members : List (Except Fault String × Node)} {breach : Option Breach} {request : Request}

theorem Request.ofText_eq_ok (h : ofText text = .ok request) : decodeText decoder text = .ok request := by
  rw [ofText] at h
  cases hdecode : decodeText decoder text with
  | ok r => simpa [hdecode] using h
  | error e => simp [hdecode] at h

theorem Request.exists_items (h : decoder textLevels (.object members breach) = .ok request)
    (hitems : request.items ≠ []) :
    ∃ l k n r, members = l ++ (.ok k, n) :: r ∧ namesItems k = true ∧
      Decoder.list Item.decoder (some 127) n = .ok request.items ∧ ∀ m ∈ l ++ r, ¬Field.Named namesItems m := by
  obtain ⟨d, hrecord, hd⟩ := exists_of_bind_ok h
  obtain rfl := Except.ok.inj hd
  have hobject : Field.ofObject "FilterRequest" fields ⟨none, none, none⟩ textLevels (.object members breach) = .ok d :=
    hrecord
  obtain ⟨inner, hinner, hmembers, -⟩ := Field.ofObject_eq_ok hobject
  obtain rfl : some 127 = inner := Except.ok.inj hinner
  -- Without a member for them the items are the default, of which there are none.
  rcases Request.fills_items.readMembers hmembers with ⟨-, hnone⟩ | ⟨-, l, k, n, r, items, hsplit, hk, hlist, hsome, hrest⟩
  · exact absurd (by rw [hnone]; rfl) hitems
  · exact ⟨l, k, n, r, hsplit, hk, by rw [hlist, hsome]; rfl, hrest⟩

namespace Command.Eval

def itemsOfMembers (members : List (Except Fault String × Node)) : List Item :=
  (KeyMap.ofList ((Node.toMembers members).map fun p => (p.1, Declared.ofValue p.2))).toList.map fun p => ⟨p.1, p.2⟩

theorem key_of_mem_toMembers {p : String × Value} (h : p ∈ Node.toMembers members) : .ok p.1 ∈ members.map (·.1) := by
  induction members with
  | nil => cases h
  | cons m members ih =>
    obtain ⟨k, n⟩ := m
    cases k with
    | error f => exact List.mem_cons_of_mem _ (ih h)
    | ok k =>
      rcases List.mem_cons.mp h with rfl | h
      · exact List.mem_cons_self
      · exact List.mem_cons_of_mem _ (ih h)

theorem profile_itemsOfMembers (h : ∀ k, .ok k ∈ members.map (·.1) → isId (Text.trim k.toList) = false) :
    profile (itemsOfMembers members) = .empty := by
  have hnone : ∀ item ∈ itemsOfMembers members, isId (Text.trim item.id.toList) = false := by
    intro item hitem
    obtain ⟨p, hp, rfl⟩ := List.mem_map.mp hitem
    obtain ⟨q, hq, rfl⟩ := List.mem_map.mp (KeyMap.mem_of_mem_ofList hp)
    exact h q.1 (key_of_mem_toMembers hq)
  have hpairs : (itemsOfMembers members).filterMap (fun item =>
      let id := Text.trim item.id.toList
      if isId id then some (String.ofList id, item.declared.supported) else none) = [] := by
    rw [List.filterMap_eq_nil_iff]
    intro item hitem
    simp [hnone item hitem]
  rw [profile, hpairs]
  rfl

theorem find?_fields_of_ne {k : String} (h : k ≠ "pics_items") : fields.find? (·.hasName k) = none := by
  simp [fields, Field.of, Field.hasName, h.symm]

theorem readMembers_of_not_named (hwhole : Node.Whole (some 127) members)
    (hnot : .ok "pics_items" ∉ members.map (·.1)) (d : Draft) :
    Field.readMembers fields (some 127) members d = .ok d := by
  apply Field.readMembers_of_skipped
  intro m hm
  obtain ⟨k, hk, hn⟩ := hwhole m hm
  refine ⟨k, hk, find?_fields_of_ne ?_, Node.skip_of_check _ _ hn⟩
  rintro rfl
  exact hnot (List.mem_map.mpr ⟨m, hm, hk⟩)

theorem requestDecoder_of_not_named (hwhole : Node.Whole (some 127) members)
    (hnot : .ok "pics_items" ∉ members.map (·.1)) :
    requestDecoder textLevels (.object members none) = .error (.missingField "pics_items") := by
  have hread := readMembers_of_not_named hwhole hnot ⟨none⟩
  rw [requestDecoder, Field.ofObject_of_readMembers rfl hread]
  rfl

theorem requestDecoder_of_named {l r : List (Except Fault String × Node)} {n : Node} {items : List Item}
    (hwhole : Node.Whole (some 127) (l ++ (.ok "pics_items", n) :: r))
    (hnot : .ok "pics_items" ∉ (l ++ r).map (·.1)) (hlist : Decoder.list Item.decoder (some 127) n = .ok items) :
    requestDecoder textLevels (.object (l ++ (.ok "pics_items", n) :: r) none) = .ok items := by
  obtain ⟨hl, hmid⟩ := List.forall_mem_append.mp hwhole
  obtain ⟨-, hr⟩ := List.forall_mem_cons.mp hmid
  rw [List.map_append, List.mem_append, not_or] at hnot
  have hmember : Field.readMember fields (some 127) (.ok "pics_items", n) ⟨none⟩ = .ok ⟨some items⟩ := by
    rw [Field.readMember_of_some (f := fields.head (by simp [fields])) (by simp [fields, Field.of, Field.hasName])]
    simp [fields, Field.of, hlist, Except.map]
  have hread : Field.readMembers fields (some 127) (l ++ (.ok "pics_items", n) :: r) ⟨none⟩ = .ok ⟨some items⟩ := by
    rw [Field.readMembers_append, readMembers_of_not_named hl hnot.1]
    change Field.readMembers fields _ (_ :: r) _ = _
    rw [Field.readMembers_cons, hmember]
    exact readMembers_of_not_named hr hnot.2 _
  rw [requestDecoder, Field.ofObject_of_readMembers rfl hread]
  rfl

theorem mapDecoder_object (hwhole : Node.Whole (some 127) members) :
    mapDecoder textLevels (.object members none) = .ok (itemsOfMembers members) := by
  have hpairs : Decoder.pairs Declared.decoder (some 127) members =
      .ok ((Node.toMembers members).map fun p => (p.1, Declared.ofValue p.2)) :=
    Decoder.pairs_value Declared.ofValue hwhole
  change ((Decoder.pairs Declared.decoder (some 127) members).bind fun found => .ok (KeyMap.ofList found)).map _ = _
  rw [hpairs]
  rfl

theorem capabilitiesDecoder_of_error {e : DecodeError} (h : (Node.object members breach).check textLevels = .error e) :
    capabilitiesDecoder textLevels (.object members breach) = .error e := by
  rw [capabilitiesDecoder, Decoder.oneOf, h]
  rfl

theorem capabilitiesDecoder_of_ok (hcheck : (Node.object members breach).check textLevels = .ok ()) :
    capabilitiesDecoder textLevels (.object members breach) =
      .ok ((requestDecoder textLevels (.object members breach)).toOption.getD (itemsOfMembers members)) := by
  obtain ⟨rfl, hwhole⟩ := Node.check_object_eq_ok hcheck
  -- An object is not a list of items, and as a map it can always be read.
  have hlist : (Decoder.list Item.decoder textLevels (.object members none)).toOption = none := rfl
  rw [capabilitiesDecoder, Decoder.oneOf, hcheck]
  simp only [bind, Except.bind, List.findSome?_cons, hlist, mapDecoder_object hwhole]
  cases requestDecoder textLevels (.object members none) <;> rfl

theorem loadCapabilities_eq {files : Files} {path : String} (hfile : files.readText path = .ok text)
    (htrailing : (Json.Document.ofText text).trailing = false) :
    loadCapabilities files path =
      (capabilitiesDecoder textLevels (Json.Document.ofText text).root).mapError (.capabilitiesUndecodable path) := by
  rw [loadCapabilities, hfile]
  change (decodeText capabilitiesDecoder text).mapError _ = _
  rw [decodeText, htrailing]
  cases capabilitiesDecoder textLevels (Json.Document.ofText text).root <;> rfl

theorem requestDecoder_of_request (hcheck : (Node.object members breach).check textLevels = .ok ())
    (h : Request.decoder textLevels (.object members breach) = .ok request) (hitems : request.items ≠ [])
    (hnamed : .ok "pics_items" ∈ members.map (·.1)) :
    requestDecoder textLevels (.object members breach) = .ok request.items := by
  obtain ⟨rfl, hwhole⟩ := Node.check_object_eq_ok hcheck
  obtain ⟨l, k, n, r, rfl, -, hlist, hrest⟩ := Request.exists_items h hitems
  have hnot : .ok "pics_items" ∉ (l ++ r).map (·.1) := by
    intro hmem
    obtain ⟨m, hm, hkey⟩ := List.mem_map.mp hmem
    exact hrest m hm ⟨_, hkey, by decide⟩
  -- The one member that gives the items is the one of that name.
  have hk : k = "pics_items" := by
    by_contra hne
    apply hnot
    simpa [Ne.symm hne] using hnamed
  subst hk
  exact requestDecoder_of_named hwhole hnot hlist

/-- What one command reads of a file that the other one takes for a request with items: nothing if it cannot be read
whole, the same items if they stand under the first name, and else the object as a map, which declares nothing without
an id among its keys. -/
theorem loadCapabilities_of_request {files : Files} {path : String} (hfile : files.readText path = .ok text)
    (hroot : (Json.Document.ofText text).root = .object members breach) (hrequest : Request.ofText text = .ok request)
    (hitems : request.items ≠ []) :
    (∀ e, (Node.object members breach).check textLevels = .error e →
        loadCapabilities files path = .error (.capabilitiesUndecodable path e)) ∧
      ((Node.object members breach).check textLevels = .ok () →
        (.ok "pics_items" ∈ members.map (·.1) → loadCapabilities files path = .ok request.items) ∧
          (.ok "pics_items" ∉ members.map (·.1) → loadCapabilities files path = .ok (itemsOfMembers members))) ∧
      ((∀ k, .ok k ∈ members.map (·.1) → isId (Text.trim k.toList) = false) →
        profile (itemsOfMembers members) = .empty) ∧
      ((∃ items, loadCapabilities files path = .ok items ∧ profile items = profile request.items) ↔
        (Node.object members breach).check textLevels = .ok () ∧
          (.ok "pics_items" ∈ members.map (·.1) ∨ profile (itemsOfMembers members) = profile request.items)) := by
  obtain ⟨hdecode, htrailing⟩ := decodeText_eq_ok.mp (Request.ofText_eq_ok hrequest)
  rw [hroot] at hdecode
  have hload := loadCapabilities_eq hfile htrailing
  rw [hroot] at hload
  have hfails : ∀ e, (Node.object members breach).check textLevels = .error e →
      loadCapabilities files path = .error (.capabilitiesUndecodable path e) := by
    intro e he
    rw [hload, capabilitiesDecoder_of_error he]
    rfl
  have hnamed : (Node.object members breach).check textLevels = .ok () → .ok "pics_items" ∈ members.map (·.1) →
      loadCapabilities files path = .ok request.items := by
    intro hcheck hmem
    rw [hload, capabilitiesDecoder_of_ok hcheck, requestDecoder_of_request hcheck hdecode hitems hmem]
    rfl
  have hunnamed : (Node.object members breach).check textLevels = .ok () → .ok "pics_items" ∉ members.map (·.1) →
      loadCapabilities files path = .ok (itemsOfMembers members) := by
    intro hcheck hnot
    rw [hload, capabilitiesDecoder_of_ok hcheck]
    obtain ⟨rfl, hwhole⟩ := Node.check_object_eq_ok hcheck
    rw [requestDecoder_of_not_named hwhole hnot]
    rfl
  refine ⟨hfails, fun hcheck => ⟨hnamed hcheck, hunnamed hcheck⟩, profile_itemsOfMembers, ?_⟩
  cases hcheck : (Node.object members breach).check textLevels with
  | error e => simp [hfails e hcheck]
  | ok u =>
    by_cases hmem : .ok "pics_items" ∈ members.map (·.1)
    · simp [hnamed hcheck hmem, hmem]
    · simp [hunnamed hcheck hmem, hmem]

theorem loadCapabilities_of_request_named :
    let text := "\x7b\"note\":null,\"pics_items\":[\x7b\"id\":\"A.1\",\"value\":true\x7d]\x7d"
    loadCapabilities (fun _ => .ok (.text text)) "request.json" = .ok [⟨"A.1", .flag true⟩] := by
  intro text
  have hdocument : Json.Document.ofText text =
      ⟨.ofValue (.object [("note", .null),
        ("pics_items", .array [.object [("id", .string "A.1"), ("value", .bool true)]])]), false⟩ := by decide +kernel
  have hrequest : Request.ofText text = .ok ⟨[⟨"A.1", .flag true⟩], none, none⟩ := by
    rw [Request.ofText, decodeText, hdocument]
    rfl
  have hfile : Files.readText (fun _ => .ok (.text text)) "request.json" = .ok text := rfl
  obtain ⟨-, hok, -, -⟩ := loadCapabilities_of_request hfile (by rw [hdocument]; rfl) hrequest (by simp)
  exact (hok rfl).1 (by decide)

theorem not_loadCapabilities_of_request :
    ¬∀ (files : Files) (path text : String) (members : List (Except Fault String × Node)) (breach : Option Breach)
      (request : Request), files.readText path = .ok text →
        (Json.Document.ofText text).root = .object members breach → Request.ofText text = .ok request →
          request.items ≠ [] → ∃ items, loadCapabilities files path = .ok items ∧ profile items = profile request.items := by
  intro h
  let text := "\x7b\"pics\":[\x7b\"item_id\":\"A.1\",\"value\":true\x7d],\"spec_data\":\x7b\x7d\x7d"
  have hdocument : Json.Document.ofText text =
      ⟨.ofValue (.object [("pics", .array [.object [("item_id", .string "A.1"), ("value", .bool true)]]),
        ("spec_data", .object [])]), false⟩ := by decide +kernel
  have hrequest : Request.ofText text = .ok ⟨[⟨"A.1", .flag true⟩], none, some .empty⟩ := by
    rw [Request.ofText, decodeText, hdocument]
    rfl
  obtain ⟨items, hload, hprofile⟩ := h (fun _ => .ok (.text text)) "request.json" text _ _ _ rfl
    (by rw [hdocument]; rfl) hrequest (by simp)
  rw [loadCapabilities_eq rfl (by rw [hdocument]), hdocument] at hload
  obtain rfl : [_, _] = items := Except.ok.inj hload
  revert hprofile
  decide +kernel

end Command.Eval

end Applicability
