import Applicability.Catalog.TestCase
import Applicability.Json.Printer
import Applicability.Text.Blank

namespace Applicability.Catalog

inductive Column where
  | testId
  | specificationId
  | condition
  | clause
  | title
  | release
  | comment
  deriving DecidableEq, Repr

namespace Column

def headers : Column → List String
  | testId => ["test_id", "tc_id", "id", "test case id", "test_case_id"]
  | specificationId => ["specification_id", "spec_id", "specification"]
  | condition => ["applicability_condition", "condition", "applicability", "pics"]
  | clause => ["clause", "section"]
  | title => ["title", "name", "test case name"]
  | release => ["release", "version"]
  | comment => ["comment", "comments", "notes"]

def all : List Column :=
  [testId, specificationId, condition, clause, title, release, comment]

def ofHeader? (header : String) : Option Column :=
  let name := String.ofList ((Text.trim header.toList).map Char.toLower)
  all.find? fun c => c.headers.contains name

def set (c : Column) (text : Option String) (t : TestCase) : TestCase :=
  match c with
  | testId => { t with testId := text.getD "" }
  | specificationId => { t with specificationId := text.getD "" }
  | condition => { t with condition := text.getD "" }
  | clause => { t with clause := text }
  | title => { t with title := text }
  | release => { t with release := text }
  | comment => { t with comment := text }

end Column

def cellText : Json.Value → Option String
  | .null => none
  | .string s => some (Text.trimmed s)
  | v => some v.compact

structure Table where
  headers : List String
  rows : List (List Json.Value)

namespace Table

def fill (t : TestCase) : List (Option Column) → List Json.Value → TestCase
  | some c :: cs, v :: vs => fill (c.set (cellText v) t) cs vs
  | none :: cs, _ :: vs => fill t cs vs
  | _, _ => t

def testCases (table : Table) : List TestCase :=
  let columns := table.headers.map Column.ofHeader?
  (table.rows.map (fill .blank columns)).filter fun t => !t.testId.isEmpty

structure Draft where
  headers : Option (List String)
  rows : Option (List (List Json.Value))

def fields : List (Json.Field Draft) :=
  [.of "headers" [] true (.list .string) (·.headers) fun d v => { d with headers := some v },
    .of "data" [] true (.list (.list .value)) (·.rows) fun d v => { d with rows := some v }]

def decoder : Json.Decoder Table := fun levels n => do
  let d ← Json.Field.ofObject "Table" fields ⟨none, none⟩ levels n
  return ⟨d.headers.getD [], d.rows.getD []⟩

def toValue (table : Table) : Json.Value :=
  .object [("headers", .strings table.headers), ("data", .array (table.rows.map .array))]

end Table

end Applicability.Catalog
