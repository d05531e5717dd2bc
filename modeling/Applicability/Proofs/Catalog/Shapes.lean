import Applicability.Proofs.Json.Decoding
import Applicability.Proofs.KeyMapOrder
import Applicability.Request

namespace Applicability.Catalog

open Json

/-- The expression of the last entry with an id. The blank id has none. -/
def latest (id : String) (entries : List (String × String)) : Option String :=
  if id = "" then none else (entries.reverse.find? fun e => normalId e.1 = id).map (·.2)

def named? (p : String × String) : Option (String × String) :=
  if (normalId p.1).isEmpty then none else some (normalId p.1, p.2)

theorem collect_eq (pairs : List (String × String)) :
    Conditions.collect pairs = .ofList (pairs.filterMap named?) := rfl

theorem any_named? (p : String × String) {id : String} (hid : id ≠ "") :
    ((named? p).any fun e => e.1 = id) = decide (normalId p.1 = id) := by
  rw [named?]
  split
  · rename_i hp
    rw [String.isEmpty_iff] at hp
    simp [hp, Ne.symm hid]
  · rw [Option.any_some]

theorem find?_named?_empty (pairs : List (String × String)) :
    (pairs.find? fun p => (named? p).any fun e => e.1 = "") = none := by
  rw [List.find?_eq_none]
  intro p _
  rw [named?]
  split
  · simp
  · rename_i hp
    simpa using hp

theorem get?_collect (pairs : List (String × String)) (id : String) :
    (Conditions.collect pairs).get? id = latest id pairs := by
  rw [collect_eq, KeyMap.get?_ofList, ← List.filterMap_reverse, List.find?_filterMap, latest]
  split
  · rename_i hid
    subst hid
    rw [find?_named?_empty]
    rfl
  · rename_i hid
    simp only [any_named? _ hid]
    cases hfind : pairs.reverse.find? fun e => normalId e.1 = id with
    | none => rfl
    | some p =>
      have hp : normalId p.1 = id := by simpa using List.find?_some hfind
      simp [named?, hp, hid]

theorem latest_of_forall_ne {entries : List (String × String)} {id : String}
    (h : ∀ e ∈ entries, normalId e.1 ≠ id) : latest id entries = none := by
  have hfind : (entries.reverse.find? fun e => normalId e.1 = id) = none := by
    rw [List.find?_eq_none]
    intro e he
    simpa using h e (List.mem_reverse.mp he)
  simp [latest, hfind]

theorem latest_of_spelling {entries : List (String × String)} {id spelling : String} (hid : id ≠ "")
    (h : ∀ e ∈ entries, normalId e.1 = id ↔ e.1 = spelling) :
    latest id entries = (KeyMap.ofList entries).get? spelling := by
  have hfilter : (entries.reverse.filter fun e => normalId e.1 = id) =
      entries.reverse.filter fun e => e.1 = spelling := by
    apply List.filter_congr
    intro e he
    simp [h e (List.mem_reverse.mp he)]
  rw [latest, if_neg hid, KeyMap.get?_ofList, ← List.head?_filter, ← List.head?_filter, hfilter]

theorem latest_ofList_of_spellings {entries : List (String × String)} {id : String}
    (h : ∀ e ∈ entries, ∀ e' ∈ entries, normalId e.1 = normalId e'.1 → e.1 = e'.1) :
    latest id (KeyMap.ofList entries).toList = latest id entries := by
  by_cases hid : id = ""
  · rw [latest, latest, if_pos hid, if_pos hid]
  by_cases hsome : ∃ e ∈ entries, normalId e.1 = id
  · obtain ⟨d, hd, rfl⟩ := hsome
    have hspelling : ∀ e ∈ entries, normalId e.1 = normalId d.1 ↔ e.1 = d.1 :=
      fun e he => ⟨h e he d hd, fun heq => by rw [heq]⟩
    rw [latest_of_spelling hid hspelling,
      latest_of_spelling hid fun e he => hspelling e (KeyMap.mem_of_mem_ofList he),
      KeyMap.ofList_toList (KeyMap.ordered_ofList entries)]
  · have hne : ∀ e ∈ entries, normalId e.1 ≠ id := fun e he heq => hsome ⟨e, he, heq⟩
    rw [latest_of_forall_ne hne, latest_of_forall_ne fun e he => hne e (KeyMap.mem_of_mem_ofList he)]

inductive Recorded (id expression : String) : Value → Prop where
  | straight : Recorded id expression (.object [("condition_id", .string id), ("definition", .string expression)])
  | reversed : Recorded id expression (.object [("definition", .string expression), ("condition_id", .string id)])

section Decoding

variable {id expression : String} {entries : List (String × String)} {v : Value} {n : Nat}

theorem Recorded.check (h : Recorded id expression v) : (Node.ofValue v).check (some (n + 2)) = .ok () := by
  cases h <;> rfl

theorem Recorded.decoder (h : Recorded id expression v) :
    Definition.decoder (some (n + 2)) (.ofValue v) = .ok ⟨id, expression⟩ := by
  cases h <;>
    simp [Definition.decoder, Definition.fields, Field.record, Field.ofObject, Field.readMembers, Field.missing?,
      Field.of, Field.hasName, Decoder.string, Node.ofValue, Node.ofMembers, Levels.enter, bind, Except.bind,
      Except.map, pure, Except.pure]

theorem definitions_of_records {records : List Value}
    (h : List.Forall₂ (fun e v => Recorded e.1 e.2 v) entries records) :
    Definitions.decoder (some (n + 3)) (.ofValue (.array records)) =
      .ok (.records (entries.map fun e => ⟨e.1, e.2⟩)) := by
  apply Decoder.oneOf_list rfl
  rw [List.forall₂_map_right_iff]
  exact h.flip.imp fun v e he => ⟨he.check, he.decoder⟩

theorem definitions_of_object :
    Definitions.decoder (some (n + 2)) (.ofValue (.object (entries.map fun e => (e.1, .string e.2)))) =
      .ok (.map (.ofList entries)) := by
  have hcheck : (Node.ofValue (.object (entries.map fun e => (e.1, .string e.2)))).check (some (n + 2)) = .ok () := by
    have hmembers : Node.checkMembers (some (n + 1))
        (Node.ofMembers (entries.map fun e => (e.1, .string e.2))) = .ok () := by
      apply Node.checkMembers_of_forall
      rw [List.forall_mem_map]
      intro e _
      rfl
    simp [Node.ofValue, Node.check, Levels.enter, bind, Except.bind, hmembers]
  have hmap : Decoder.keyMap .string (some (n + 2)) (.ofValue (.object (entries.map fun e => (e.1, .string e.2)))) =
      .ok (.ofList entries) := by
    simp [Node.ofValue, Decoder.keyMap, Levels.enter, bind, Except.bind, Decoder.pairs_string]
  have hlist : Decoder.list Definition.decoder (some (n + 2))
      (.ofValue (.object (entries.map fun e => (e.1, .string e.2)))) = .error (.unexpected "map" "a sequence") := rfl
  simp [Definitions.decoder, Decoder.oneOf, bind, Except.bind, hcheck, hlist, hmap, Except.map, Except.toOption]

end Decoding

section Insertion

variable {levels : Levels} {ms : List (String × Value)}

def NamesConditions (name : String) : Prop :=
  name = "c_conditions" ∨ name = "conditions"

def Others (ms : List (String × Value)) : Prop :=
  ∀ m ∈ ms, ¬NamesConditions m.1

theorem find?_fields {name : String} (h : NamesConditions name) :
    Document.fields.find? (·.hasName name) = Document.fields.getLast? := by
  rcases h with rfl | rfl <;> simp [Document.fields, Field.of, Field.hasName]

def Document.Draft.withDefinitions (ds : Option Definitions) (d : Document.Draft) : Document.Draft :=
  { d with definitions := ds }

theorem readMember_of_other {m : String × Value} (h : ¬NamesConditions m.1) (ds : Option Definitions) (d : Document.Draft) :
    Field.readMember Document.fields levels (.ok m.1, .ofValue m.2) (d.withDefinitions ds) =
      (Field.readMember Document.fields levels (.ok m.1, .ofValue m.2) d).map (·.withDefinitions ds) := by
  by_cases hk : m.1 = "test_cases"
  · have hfield : Document.fields.find? (·.hasName m.1) = Document.fields.head? := by
      simp [hk, Document.fields, Field.of, Field.hasName]
    rw [Field.readMember_of_some hfield, Field.readMember_of_some hfield]
    obtain ⟨tests, _⟩ := d
    cases tests with
    | some ts => rfl
    | none =>
      cases htests : TestCases.decoder levels (.ofValue m.2) <;>
        simp [Field.of, htests, Except.map, Document.Draft.withDefinitions]
  · obtain ⟨hfirst, hsecond⟩ := not_or.mp h
    have hnone : Document.fields.find? (·.hasName m.1) = none := by
      simp [Document.fields, Field.of, Field.hasName, Ne.symm hk, Ne.symm hfirst, hsecond]
    rw [Field.readMember_of_none hnone, Field.readMember_of_none hnone]
    cases (Node.ofValue m.2).skip <;> rfl

def Document.Draft.finish (d : Document.Draft) : Document :=
  ⟨d.testCases.getD (.records []), d.definitions.getD (.records [])⟩

theorem decoder_object (n : Nat) (ms : List (String × Value)) :
    Document.decoder (some (n + 2)) (.ofValue (.object ms)) =
      (Field.readMembers Document.fields (some (n + 1)) (Node.ofMembers ms) ⟨none, none⟩).map
        Document.Draft.finish := by
  have hmissing : ∀ d, Field.missing? Document.fields d = none := by
    simp [Field.missing?, Document.fields, Field.of]
  cases hread : Field.readMembers Document.fields (some (n + 1)) (Node.ofMembers ms) ⟨none, none⟩ <;>
    simp [Document.decoder, Field.record, Field.ofObject, Node.ofValue, Levels.enter, bind, Except.bind, hread,
      hmissing, Except.map, pure, Except.pure, Document.Draft.finish]

theorem carries_definitions (levels : Levels) (h : Others ms) (ds : Option Definitions) (d : Document.Draft) :
    Field.readMembers Document.fields levels (Node.ofMembers ms) (d.withDefinitions ds) =
      (Field.readMembers Document.fields levels (Node.ofMembers ms) d).map (·.withDefinitions ds) := by
  apply Field.readMembers_carry
  rw [Node.ofMembers_eq, List.forall_mem_map]
  exact fun m hm d => readMember_of_other (h m hm) ds d

theorem definitions_of_other {d : Document.Draft} (h : Others ms)
    (hd : Field.readMembers Document.fields levels (Node.ofMembers ms) ⟨none, none⟩ = .ok d) :
    d.definitions = none := by
  have hcarry := carries_definitions levels h none ⟨none, none⟩
  rw [hd] at hcarry
  have hnone : d = d.withDefinitions none := Except.ok.inj (hd.symm.trans hcarry)
  rw [hnone]
  rfl

theorem decoder_insert {n : Nat} {name : String} {front back : List (String × Value)} {rest : Document} {v : Value}
    {ds : Definitions} (hname : NamesConditions name)
    (hrest : Document.decoder (some (n + 2)) (.ofValue (.object (front ++ back))) = .ok rest)
    (hother : Others (front ++ back)) (hds : Definitions.decoder (some (n + 1)) (.ofValue v) = .ok ds) :
    Document.decoder (some (n + 2)) (.ofValue (.object (front ++ (name, v) :: back))) =
      .ok { rest with definitions := ds } := by
  obtain ⟨hfront, hback⟩ := List.forall_mem_append.mp hother
  rw [decoder_object, Node.ofMembers_append, Field.readMembers_append] at hrest
  obtain ⟨d', hwhole, rfl⟩ := exists_of_map_ok hrest
  obtain ⟨d, hd, hd'⟩ := exists_of_bind_ok hwhole
  have hmember : Field.readMember Document.fields (some (n + 1)) (.ok name, .ofValue v) d =
      .ok (d.withDefinitions (some ds)) := by
    rw [Field.readMember_of_some (find?_fields hname)]
    simp [Field.of, definitions_of_other hfront hd, hds, Except.map, Document.Draft.withDefinitions]
  rw [decoder_object, Node.ofMembers_append, Node.ofMembers, Field.readMembers_append, hd]
  change (Field.readMembers _ _ (_ :: _) d).map _ = _
  rw [Field.readMembers_cons, hmember]
  change (Field.readMembers _ _ _ (d.withDefinitions (some ds))).map _ = _
  rw [carries_definitions _ hback, hd']
  rfl

end Insertion

/-- The text is a document with `v` as its named conditions. Whatever else it holds can be decoded. -/
inductive Gives (v : Value) (text : String) : Prop where
  | intro {name : String} {front back : List (String × Value)} {rest : Document} (hname : NamesConditions name)
      (hroot : Json.Document.ofText text = ⟨.ofValue (.object (front ++ (name, v) :: back)), false⟩)
      (hother : Others (front ++ back))
      (hrest : Document.decoder textLevels (.ofValue (.object (front ++ back))) = .ok rest) : Gives v text

theorem Gives.exists_document {v : Value} {text : String} {ds : Definitions} (h : Gives v text)
    (hds : Definitions.decoder (some 127) (.ofValue v) = .ok ds) :
    ∃ d, Document.ofText text = .ok d ∧ d.conditions = .collect ds.pairs := by
  cases h with
  | @intro name front back rest hname hroot hother hrest =>
    have hd := decoder_insert hname hrest hother hds
    refine ⟨{ rest with definitions := ds }, ?_, rfl⟩
    simp only [Document.ofText, decodeText, hroot, textLevels, hd, bind, Except.bind]
    rfl

/-- Both shapes of the same entries are read. The conditions of the records are the last definitions in the order of the
document, those of the object the last ones in the order of its keys; so they are the same exactly where the two orders
agree on each id, as they do if no id has two spellings. -/
theorem conditions_of_shapes {entries : List (String × String)} {records : List Value} {listed mapped : String}
    (hrecords : List.Forall₂ (fun e v => Recorded e.1 e.2 v) entries records)
    (hlisted : Gives (.array records) listed)
    (hmapped : Gives (.object (entries.map fun e => (e.1, .string e.2))) mapped) :
    ∃ d d', Document.ofText listed = .ok d ∧ Document.ofText mapped = .ok d' ∧
      (∀ id, d.conditions.get? id = latest id entries) ∧
      (∀ id, d'.conditions.get? id = latest id (KeyMap.ofList entries).toList) ∧
      (d.conditions = d'.conditions ↔ ∀ id, latest id entries = latest id (KeyMap.ofList entries).toList) ∧
      ((∀ e ∈ entries, ∀ e' ∈ entries, normalId e.1 = normalId e'.1 → e.1 = e'.1) →
        d.conditions = d'.conditions) := by
  obtain ⟨d, hd, hconditions⟩ := hlisted.exists_document (definitions_of_records hrecords)
  obtain ⟨d', hd', hconditions'⟩ := hmapped.exists_document definitions_of_object
  have hpairs : (Definitions.records (entries.map fun e => ⟨e.1, e.2⟩)).pairs = entries := by
    simp [Definitions.pairs, Function.comp_def]
  rw [hpairs] at hconditions
  have hget : ∀ id, d.conditions.get? id = latest id entries := fun id => hconditions ▸ get?_collect entries id
  have hget' : ∀ id, d'.conditions.get? id = latest id (KeyMap.ofList entries).toList :=
    fun id => hconditions' ▸ get?_collect _ id
  have heq : d.conditions = d'.conditions ↔ ∀ id, latest id entries = latest id (KeyMap.ofList entries).toList := by
    constructor
    · intro h id
      rw [← hget, ← hget', h]
    · intro h
      rw [hconditions, hconditions']
      apply KeyMap.ext_of_ordered (KeyMap.ordered_ofList _) (KeyMap.ordered_ofList _)
      intro id
      change (Conditions.collect _).get? id = (Conditions.collect _).get? id
      rw [get?_collect, get?_collect]
      exact h id
  exact ⟨d, d', hd, hd', hget, hget', heq, fun h => heq.mpr fun id => (latest_ofList_of_spellings h).symm⟩

theorem conditions_of_shapes_colliding :
    let listed := "\x7b\"c_conditions\":[\x7b\"condition_id\":\"c1\",\"definition\":\"O\"\x7d," ++
      "\x7b\"condition_id\":\" \",\"definition\":\"O\"\x7d,\x7b\"condition_id\":\"c1\",\"definition\":\"R\"\x7d," ++
      "\x7b\"condition_id\":\"C1\",\"definition\":\"M\"\x7d,\x7b\"definition\":\"O\",\"condition_id\":\" c2\"\x7d]\x7d"
    let mapped := "\x7b\"note\":null,\"c_conditions\":\x7b\"c1\":\"O\",\" \":\"O\",\"c1\":\"R\"," ++
      "\"C1\":\"M\",\" c2\":\"O\"\x7d,\"test_cases\":[]\x7d"
    ∃ d d', Document.ofText listed = .ok d ∧ Document.ofText mapped = .ok d' ∧
      ["C1", "C2", "", "c1"].map d.conditions.get? = [some "M", some "O", none, none] ∧
      ["C1", "C2", "", "c1"].map d'.conditions.get? = [some "R", some "O", none, none] ∧
      d.conditions ≠ d'.conditions := by
  intro listed mapped
  let entries := [("c1", "O"), (" ", "O"), ("c1", "R"), ("C1", "M"), (" c2", "O")]
  let record (id definition : String) : Value :=
    .object [("condition_id", .string id), ("definition", .string definition)]
  let records : List Value := [record "c1" "O", record " " "O", record "c1" "R", record "C1" "M",
    .object [("definition", .string "O"), ("condition_id", .string " c2")]]
  have hrecords : List.Forall₂ (fun (e : String × String) v => Recorded e.1 e.2 v) entries records :=
    .cons .straight (.cons .straight (.cons .straight (.cons .straight (.cons .reversed .nil))))
  have hlisted : Gives (.array records) listed :=
    @Gives.intro _ _ "c_conditions" [] [] _ (.inl rfl) (by decide +kernel) (by simp [Others]) rfl
  have hmapped : Gives (.object (entries.map fun e => (e.1, .string e.2))) mapped :=
    @Gives.intro _ _ "c_conditions" [("note", .null)] [("test_cases", .array [])] _ (.inl rfl) (by decide +kernel)
      (by simp [Others, NamesConditions]) rfl
  obtain ⟨d, d', hd, hd', hget, hget', -, -⟩ := conditions_of_shapes hrecords hlisted hmapped
  have hlast : d.conditions.get? "C1" = some "M" := (hget "C1").trans (by decide +kernel)
  have hlast' : d'.conditions.get? "C1" = some "R" := ( hget' "C1").trans (by decide +kernel)
  refine ⟨d, d', hd, hd', ?_, ?_, ?_⟩
  · simp only [hget, List.map_cons, List.map_nil]
    decide +kernel
  · simp only [hget', List.map_cons, List.map_nil]
    decide +kernel
  · intro heq
    rw [heq, hlast'] at hlast
    exact absurd hlast (by decide)

theorem not_conditions_eq_of_spellings :
    (Document.ofText ("\x7b\"c_conditions\":[\x7b\"condition_id\":\"c1\",\"definition\":\"R\"\x7d," ++
        "\x7b\"condition_id\":\"C1\",\"definition\":\"M\"\x7d]\x7d")).toOption.map (·.conditions.get? "C1") =
        some (some "M") ∧
      (Document.ofText "\x7b\"c_conditions\":\x7b\"c1\":\"R\",\"C1\":\"M\"\x7d\x7d").toOption.map
        (·.conditions.get? "C1") = some (some "R") :=
  ⟨by decide +kernel, by decide +kernel⟩

end Applicability.Catalog
