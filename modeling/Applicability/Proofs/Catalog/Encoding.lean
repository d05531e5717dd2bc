import Applicability.Catalog.Document
import Applicability.Proofs.Json.Encoding

namespace Applicability.Catalog

open Json

theorem TestCase.lossless : Lossless decoder toValue fun _ => True where
  form _ := trivial
  decode := by
    intro t _
    have hstring (s : String) : Decoder.string none (.ofValue (.string s)) = .ok s := rfl
    have htext (o : Option String) : Decoder.optional .string none (.ofValue (.optional o)) = .ok o := by
      cases o <;> rfl
    have hread : Field.readMembers fields none
        (Node.ofMembers [("test_id", .string t.testId), ("specification_id", .string t.specificationId),
          ("applicability_condition", .string t.condition), ("clause", .optional t.clause),
          ("title", .optional t.title), ("release", .optional t.release), ("comment", .optional t.comment)])
        ⟨none, none, none, none, none, none, none⟩ =
          .ok ⟨some t.testId, some t.specificationId, some t.condition, some t.clause, some t.title, some t.release,
            some t.comment⟩ := by
      rw [Field.readMembers_of_field rfl rfl (hstring _), Field.readMembers_of_field rfl rfl (hstring _),
        Field.readMembers_of_field rfl rfl (hstring _), Field.readMembers_of_field rfl rfl (htext _),
        Field.readMembers_of_field rfl rfl (htext _), Field.readMembers_of_field rfl rfl (htext _),
        Field.readMembers_of_field rfl rfl (htext _)]
      rfl
    change (Field.ofObject "TestCase" fields _ none (.ofValue t.toValue)).map Draft.finish = _
    rw [toValue, Node.ofValue, Field.ofObject_of_readMembers rfl hread]
    rfl

theorem Definition.lossless : Lossless decoder toValue fun _ => True where
  form _ := trivial
  decode _ := rfl

def Table.Form (table : Table) : Prop :=
  ∀ row ∈ table.rows, ∀ v ∈ row, v.sorted = v

theorem Table.lossless : Lossless decoder toValue Form where
  form := by
    intro levels n table h
    obtain ⟨d, hread, h⟩ := exists_of_bind_ok h
    cases h
    have hkeep : Field.Keep fields fun d : Draft => ∀ rows ∈ d.rows, ∀ row ∈ rows, ∀ v ∈ row, v.sorted = v := by
      rintro f hf levels n s s' hs hread
      simp only [fields, List.mem_cons, List.not_mem_nil, or_false] at hf
      rcases hf with rfl | rfl
      · obtain ⟨headers, -, rfl⟩ := exists_of_map_ok hread
        exact hs
      · obtain ⟨rows, hrows, rfl⟩ := exists_of_map_ok hread
        rintro rows' ⟨⟩
        exact Lossless.value.list.list.form hrows
    have hrows := hkeep.ofObject hread (by simp)
    obtain ⟨headers, rows⟩ := d
    cases rows with
    | none => exact List.forall_mem_nil _
    | some rows => exact hrows rows rfl
  decode := by
    intro table h
    have hheaders : Decoder.list .string none (.ofValue (.strings table.headers)) = .ok table.headers :=
      Lossless.string.list.decode fun _ _ => trivial
    have hrows : Decoder.list (.list .value) none (.ofValue (.array (table.rows.map .array))) = .ok table.rows := by
      have hdecode := Lossless.value.list.list.decode h
      simpa only [List.map_id] using hdecode
    have hread : Field.readMembers fields none
        (Node.ofMembers [("headers", .strings table.headers), ("data", .array (table.rows.map .array))]) ⟨none, none⟩ =
          .ok ⟨some table.headers, some table.rows⟩ := by
      rw [Field.readMembers_of_field rfl rfl hheaders, Field.readMembers_of_field rfl rfl hrows]
      rfl
    rw [decoder, toValue, Node.ofValue, Field.ofObject_of_readMembers rfl hread]
    rfl

def TestCases.Form : TestCases → Prop
  | records _ => True
  | table t => t.Form

theorem TestCases.lossless : Lossless decoder toValue Form := by
  refine .union TestCase.lossless.list Table.lossless (fun _ _ => trivial) (fun _ h => h) ?_
  intro source h
  cases source with
  | records ts => exact .inl ⟨ts, fun _ _ => trivial, rfl, rfl⟩
  | table t => exact .inr ⟨t, h, rfl, rfl, _, rfl⟩

def Definitions.Form : Definitions → Prop
  | records _ => True
  | map m => KeyMap.Ordered m.entries

theorem Definitions.lossless : Lossless decoder toValue Form := by
  refine .union Definition.lossless.list Lossless.keyMap (fun _ _ => trivial) (fun _ h => h) ?_
  intro source h
  cases source with
  | records ds => exact .inl ⟨ds, fun _ _ => trivial, rfl, rfl⟩
  | map m => exact .inr ⟨m, h, rfl, rfl, _, rfl⟩

structure Document.Form (d : Document) : Prop where
  testCases : d.testCases.Form
  definitions : d.definitions.Form

theorem Document.lossless : Lossless decoder toValue Form where
  form := by
    intro levels n document h
    obtain ⟨d, hread, h⟩ := exists_of_bind_ok h
    cases h
    have hkeep : Field.Keep fields fun d : Draft => (∀ ts ∈ d.testCases, ts.Form) ∧ ∀ ds ∈ d.definitions, ds.Form := by
      rintro f hf levels n s s' ⟨htests, hdefinitions⟩ hread
      simp only [fields, List.mem_cons, List.not_mem_nil, or_false] at hf
      rcases hf with rfl | rfl
      · obtain ⟨ts, hts, rfl⟩ := exists_of_map_ok hread
        refine ⟨?_, hdefinitions⟩
        rintro ts' ⟨⟩
        exact TestCases.lossless.form hts
      · obtain ⟨ds, hds, rfl⟩ := exists_of_map_ok hread
        refine ⟨htests, ?_⟩
        rintro ds' ⟨⟩
        exact Definitions.lossless.form hds
    obtain ⟨htests, hdefinitions⟩ := hkeep.record hread (by simp)
    obtain ⟨tests, definitions⟩ := d
    constructor
    · cases tests with
      | none => trivial
      | some ts => exact htests ts rfl
    · cases definitions with
      | none => trivial
      | some ds => exact hdefinitions ds rfl
  decode := by
    intro document h
    have hread : Field.readMembers fields none
        (Node.ofMembers [("test_cases", document.testCases.toValue), ("c_conditions", document.definitions.toValue)])
        ⟨none, none⟩ = .ok ⟨some document.testCases, some document.definitions⟩ := by
      rw [Field.readMembers_of_field rfl rfl (TestCases.lossless.decode h.testCases),
        Field.readMembers_of_field rfl rfl (Definitions.lossless.decode h.definitions)]
      rfl
    change (Field.ofObject "SpecData" fields ⟨none, none⟩ none (.ofValue document.toValue)).bind _ = _
    rw [toValue, Node.ofValue, Field.ofObject_of_readMembers rfl hread]
    rfl

end Applicability.Catalog
