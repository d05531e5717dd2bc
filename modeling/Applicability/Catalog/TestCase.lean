import Applicability.Json.Decoder

namespace Applicability.Catalog

structure TestCase where
  testId : String
  specificationId : String
  condition : String
  clause : Option String
  title : Option String
  release : Option String
  comment : Option String
  deriving DecidableEq, Repr

namespace TestCase

def blank : TestCase :=
  ⟨"", "", "", none, none, none, none⟩

def of (testId condition : String) : TestCase :=
  { blank with testId := testId, condition := condition }

structure Draft where
  testId : Option String
  specificationId : Option String
  condition : Option String
  clause : Option (Option String)
  title : Option (Option String)
  release : Option (Option String)
  comment : Option (Option String)

def fields : List (Json.Field Draft) :=
  let text : Json.Decoder (Option String) := .optional .string
  [.of "test_id" ["tc_id", "id"] true .string (·.testId) fun d v => { d with testId := some v },
    .of "specification_id" ["spec_id"] false .string (·.specificationId)
      fun d v => { d with specificationId := some v },
    .of "applicability_condition" ["condition", "applicability"] false .string (·.condition)
      fun d v => { d with condition := some v },
    .of "clause" [] false text (·.clause) fun d v => { d with clause := some v },
    .of "title" [] false text (·.title) fun d v => { d with title := some v },
    .of "release" [] false text (·.release) fun d v => { d with release := some v },
    .of "comment" ["comments"] false text (·.comment) fun d v => { d with comment := some v }]

def Draft.finish (d : Draft) : TestCase where
  testId := d.testId.getD ""
  specificationId := d.specificationId.getD ""
  condition := d.condition.getD ""
  clause := d.clause.getD none
  title := d.title.getD none
  release := d.release.getD none
  comment := d.comment.getD none

def decoder : Json.Decoder TestCase := fun levels n =>
  (Json.Field.record "TestCase" fields ⟨none, none, none, none, none, none, none⟩ levels n).map
    Draft.finish

def toValue (t : TestCase) : Json.Value :=
  .object
    [("test_id", .string t.testId), ("specification_id", .string t.specificationId),
      ("applicability_condition", .string t.condition), ("clause", .optional t.clause),
      ("title", .optional t.title), ("release", .optional t.release),
      ("comment", .optional t.comment)]

end TestCase

structure Definition where
  conditionId : String
  expression : String
  deriving DecidableEq, Repr

namespace Definition

structure Draft where
  conditionId : Option String
  expression : Option String

def fields : List (Json.Field Draft) :=
  [.of "condition_id" ["id", "c_id"] true .string (·.conditionId)
      fun d v => { d with conditionId := some v },
    .of "definition" ["expression", "condition"] true .string (·.expression)
      fun d v => { d with expression := some v }]

def decoder : Json.Decoder Definition := fun levels n => do
  let d ← Json.Field.record "ConditionDefinition" fields ⟨none, none⟩ levels n
  return ⟨d.conditionId.getD "", d.expression.getD ""⟩

def toValue (d : Definition) : Json.Value :=
  .object [("condition_id", .string d.conditionId), ("definition", .string d.expression)]

end Definition

end Applicability.Catalog
