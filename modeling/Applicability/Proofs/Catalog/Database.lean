import Applicability.Proofs.Lists
import Applicability.Proofs.Run.History

namespace Applicability

namespace Catalog

namespace Cell

def text? : Cell → Option String
  | text s => some s
  | _ => none

def Filled (c : Cell) : Prop :=
  ∃ s, c = .text s

def FilledOrNull (c : Cell) : Prop :=
  c = .null ∨ c.Filled

theorem getText_of_filled {c : Cell} (h : c.Filled) (index : Nat) (column : String) :
    c.getText index column = .ok (c.text?.getD "") := by
  obtain ⟨s, rfl⟩ := h
  rfl

theorem getOptional_of_filledOrNull {c : Cell} (h : c.FilledOrNull) (index : Nat) (column : String) :
    c.getOptional index column = .ok c.text? := by
  rcases h with rfl | ⟨s, rfl⟩
  · rfl
  · rfl

end Cell

structure ConditionRow.InLayout (r : ConditionRow) : Prop where
  specificationId : r.specificationId.Filled
  conditionId : r.conditionId.Filled
  definition : r.definition.Filled

structure CaseRow.InLayout (r : CaseRow) : Prop where
  specificationId : r.specificationId.Filled
  testId : r.testId.Filled
  clause : r.clause.FilledOrNull
  title : r.title.FilledOrNull
  release : r.release.FilledOrNull
  condition : r.condition.FilledOrNull
  comment : r.comment.FilledOrNull

def ConditionRow.record (r : ConditionRow) : Definition where
  conditionId := r.conditionId.text?.getD ""
  expression := r.definition.text?.getD ""

def CaseRow.record (r : CaseRow) : TestCase where
  testId := r.testId.text?.getD ""
  specificationId := r.specificationId.text?.getD ""
  condition := r.condition.text?.getD ""
  clause := r.clause.text?
  title := r.title.text?
  release := r.release.text?
  comment := r.comment.text?

theorem ConditionRow.InLayout.read {r : ConditionRow} (h : r.InLayout) :
    r.read = .ok (r.record.conditionId, r.record.expression) := by
  rw [ConditionRow.read, Cell.getText_of_filled h.conditionId, Cell.getText_of_filled h.definition]
  rfl

theorem CaseRow.InLayout.read {r : CaseRow} (h : r.InLayout) : r.read = .ok r.record := by
  rw [CaseRow.read, Cell.getText_of_filled h.specificationId, Cell.getText_of_filled h.testId,
    Cell.getOptional_of_filledOrNull h.clause, Cell.getOptional_of_filledOrNull h.title,
    Cell.getOptional_of_filledOrNull h.release, Cell.getOptional_of_filledOrNull h.condition,
    Cell.getOptional_of_filledOrNull h.comment]
  rfl

namespace Database

variable {db : Database}

structure InLayout (db : Database) : Prop where
  conditionRows : ∀ r ∈ db.conditionRows, r.InLayout
  caseRows : ∀ r ∈ db.caseRows, r.InLayout
  conditionFault : db.conditionFault = none
  caseFault : db.caseFault = none

def only (db : Database) (id : String) : Database where
  path := db.path
  conditionFault := db.conditionFault
  caseFault := db.caseFault
  conditionRows := db.conditionRows.filter fun r => r.specificationId = .text id
  caseRows := db.caseRows.filter fun r => r.specificationId = .text id

def document (db : Database) : Document :=
  .ofRecords (db.caseRows.map CaseRow.record) (db.conditionRows.map ConditionRow.record)

theorem conditions_only (id : String) : (db.only id).conditions id = db.conditions id := by
  simp only [conditions, only, List.filter_filter, Bool.and_self]

theorem cases_only (id : String) : (db.only id).cases id = db.cases id := by
  simp only [cases, only, List.filter_filter, Bool.and_self]

theorem conditions_of_inLayout (h : db.InLayout) (id : String) :
    db.conditions id = .ok (db.only id).document.conditions := by
  have hread : ∀ r ∈ (db.only id).conditionRows, r.read = .ok (r.record.conditionId, r.record.expression) :=
    fun r hr => (h.conditionRows r (List.mem_of_mem_filter hr)).read
  have hpairs : (db.only id).document.definitions.pairs =
      (db.only id).conditionRows.map fun r => (r.record.conditionId, r.record.expression) :=
    List.map_map
  rw [conditions, h.conditionFault, Document.conditions, hpairs]
  exact congrArg (Except.map Conditions.collect) (Lists.mapM_of_ok hread)

theorem cases_of_inLayout (h : db.InLayout) (id : String) : db.cases id = .ok (db.only id).document.cases := by
  have hread : ∀ r ∈ (db.only id).caseRows, r.read = .ok r.record :=
    fun r hr => (h.caseRows r (List.mem_of_mem_filter hr)).read
  rw [cases, h.caseFault]
  exact Lists.mapM_of_ok hread

end Database

end Catalog

namespace Engine

open Catalog

variable {σ : Type}

theorem load_stored (engine : Engine σ) {store : Store} {conditions : Conditions} {cases : List TestCase}
    {id : String} (hstore : engine.store = some store) (htrim : Text.trimmed id = id) (hid : id ≠ "")
    (hconditions : store.conditions id = .ok conditions) (hcases : store.cases id = .ok cases)
    (items : List Capability.Item) :
    engine.load ⟨items, some id, none⟩ = .ok ⟨conditions, cases, some id⟩ := by
  have hsource : (⟨items, some id, none⟩ : Request).source = .ok (.stored id) := by
    simp [Request.source, htrim, hid]
  simp only [load, hsource, hstore, hconditions, hcases]

/-- A run over a specification in a database is the run over its rows as records. Rows of other specifications
have no part in it. -/
theorem filter_database (engine : Engine σ) {db : Database} (hdb : db.InLayout) {id : String}
    (htrim : Text.trimmed id = id) (hid : id ≠ "") (items : List Capability.Item) (f : Fallback σ) :
    ∃ result f',
      { engine with store := some (.database db) }.filter ⟨items, some id, none⟩ f = (.ok result, f') ∧
      engine.filter ⟨items, some id, some (db.only id).document⟩ f = (.ok result, f') ∧
      { engine with store := some (.database (db.only id)) }.filter ⟨items, some id, none⟩ f =
        (.ok result, f') := by
  have hconditions := Database.conditions_of_inLayout hdb id
  have hcases := Database.cases_of_inLayout hdb id
  have hgiven : engine.load ⟨items, some id, some (db.only id).document⟩ =
      .ok ⟨(db.only id).document.conditions, (db.only id).document.cases, some id⟩ := rfl
  have hstored := load_stored { engine with store := some (.database db) } rfl htrim hid hconditions hcases items
  have honly := load_stored { engine with store := some (.database (db.only id)) } rfl htrim hid
    ((Database.conditions_only id).trans hconditions) ((Database.cases_only id).trans hcases) items
  rw [filter_of_load hstored, filter_of_load hgiven, filter_of_load honly]
  exact ⟨_, _, rfl, rfl, rfl⟩

theorem filter_database_mixed :
    let db : Database :=
      { path := "catalog.db"
        conditionRows :=
          [⟨.text "S1", .text "c1", .text "rain"⟩, ⟨.text "S2", .text "C1", .text "R"⟩,
            ⟨.text "S1", .text "C1", .text "IF A.1 THEN M"⟩]
        caseRows :=
          [⟨.text "S2", .text "T9", .null, .null, .null, .text "C1", .null⟩,
            ⟨.text "S1", .text "T2", .text "5.1", .null, .null, .text "c1", .text "D1 E2"⟩,
            ⟨.text "S1", .text "T1", .null, .text "First", .null, .null, .null⟩] }
    let engine : Engine Unit := ⟨10, .offline Unit, none⟩
    let items : List Capability.Item := [⟨"A.1", .flag true⟩]
    db.InLayout ∧ ∃ result f',
      { engine with store := some (.database db) }.filter ⟨items, some "S1", none⟩ (.start ()) =
        (.ok result, f') ∧
      engine.filter ⟨items, some "S1", some (db.only "S1").document⟩ (.start ()) = (.ok result, f') ∧
      { engine with store := some (.database (db.only "S1")) }.filter ⟨items, some "S1", none⟩ (.start ()) =
        (.ok result, f') := by
  intro db engine items
  have hdb : db.InLayout := by
    refine ⟨?_, ?_, rfl, rfl⟩
    · intro r hr
      simp only [db, List.mem_cons, List.not_mem_nil, or_false] at hr
      rcases hr with rfl | rfl | rfl <;> exact ⟨⟨_, rfl⟩, ⟨_, rfl⟩, ⟨_, rfl⟩⟩
    · intro r hr
      simp only [db, List.mem_cons, List.not_mem_nil, or_false] at hr
      rcases hr with rfl | rfl | rfl
      · exact ⟨⟨_, rfl⟩, ⟨_, rfl⟩, .inl rfl, .inl rfl, .inl rfl, .inr ⟨_, rfl⟩, .inl rfl⟩
      · exact ⟨⟨_, rfl⟩, ⟨_, rfl⟩, .inr ⟨_, rfl⟩, .inl rfl, .inl rfl, .inr ⟨_, rfl⟩, .inr ⟨_, rfl⟩⟩
      · exact ⟨⟨_, rfl⟩, ⟨_, rfl⟩, .inl rfl, .inr ⟨_, rfl⟩, .inl rfl, .inl rfl, .inl rfl⟩
  have htrim : Text.trimmed "S1" = "S1" := by decide +kernel
  exact ⟨hdb, filter_database engine hdb htrim (by decide) items (.start ())⟩

end Engine

end Applicability
