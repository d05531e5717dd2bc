import Applicability.Catalog.Conditions
import Applicability.Catalog.Table

namespace Applicability.Catalog

inductive TestCases where
  | records (ts : List TestCase)
  | table (t : Table)

inductive Definitions where
  | records (ds : List Definition)
  | map (m : KeyMap String)

structure Document where
  testCases : TestCases
  definitions : Definitions

namespace TestCases

def decoder : Json.Decoder TestCases :=
  .oneOf "TestCaseSource"
    [fun levels n => (Json.Decoder.list TestCase.decoder levels n).map records,
      fun levels n => (Table.decoder levels n).map table]

def toList : TestCases → List TestCase
  | records ts => ts
  | table t => t.testCases

def toValue : TestCases → Json.Value
  | records ts => .array (ts.map TestCase.toValue)
  | table t => t.toValue

end TestCases

namespace Definitions

def decoder : Json.Decoder Definitions :=
  .oneOf "ConditionSource"
    [fun levels n => (Json.Decoder.list Definition.decoder levels n).map records,
      fun levels n => (Json.Decoder.keyMap .string levels n).map map]

def pairs : Definitions → List (String × String)
  | records ds => ds.map fun d => (d.conditionId, d.expression)
  | map m => m.toList

def toValue : Definitions → Json.Value
  | records ds => .array (ds.map Definition.toValue)
  | map m => .object (m.toList.map fun p => (p.1, .string p.2))

end Definitions

namespace Document

def empty : Document :=
  ⟨.records [], .records []⟩

def ofRecords (ts : List TestCase) (ds : List Definition) : Document :=
  ⟨.records ts, .records ds⟩

def cases (d : Document) : List TestCase :=
  d.testCases.toList

def conditions (d : Document) : Conditions :=
  .collect d.definitions.pairs

structure Draft where
  testCases : Option TestCases
  definitions : Option Definitions

def fields : List (Json.Field Draft) :=
  [.of "test_cases" [] false TestCases.decoder (·.testCases)
      fun d v => { d with testCases := some v },
    .of "c_conditions" ["conditions"] false Definitions.decoder (·.definitions)
      fun d v => { d with definitions := some v }]

def decoder : Json.Decoder Document := fun levels n => do
  let d ← Json.Field.record "SpecData" fields ⟨none, none⟩ levels n
  return ⟨d.testCases.getD (.records []), d.definitions.getD (.records [])⟩

def toValue (d : Document) : Json.Value :=
  .object [("test_cases", d.testCases.toValue), ("c_conditions", d.definitions.toValue)]

end Document

end Applicability.Catalog
