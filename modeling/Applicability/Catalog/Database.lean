import Applicability.Catalog.Conditions
import Applicability.Catalog.TestCase
import Applicability.Decimal.Digits
import Applicability.Error
import Applicability.Text.Shown

namespace Applicability.Catalog

inductive Cell where
  | null
  | integer (n : Int)
  | real (x : Binary64)
  | text (s : String)
  | blob (s : String)
  deriving DecidableEq, Repr

namespace Cell

def kind : Cell → CellKind
  | null => .null
  | integer _ => .integer
  | real _ => .real
  | text _ => .text
  | blob _ => .blob

def realDigits : Nat := 15

def exponentText (e : Int) : List Char :=
  let digits := Nat.toDigits 10 e.natAbs
  'e' :: (if 0 ≤ e then '+' else '-') :: (if digits.length < 2 then '0' :: digits else digits)

def realFormat : Decimal.Format where
  signedZero := false
  leastPoint := some (-3)
  greatestPoint := some realDigits
  scientific
    | d :: ds, e => d :: '.' :: (if ds.isEmpty then ['0'] else ds) ++ exponentText e
    | [], _ => []

def asText : Cell → Cell
  | integer n => text (toString n)
  | real x => text (realFormat.write (Decimal.rounded realDigits) x)
  | c => c

def getText (c : Cell) (index : Nat) (column : String) : Except ConfigurationError String :=
  match c with
  | text s => .ok s
  | c => .error (.cellKind c.kind index column)

def getOptional (c : Cell) (index : Nat) (column : String) :
    Except ConfigurationError (Option String) :=
  match c with
  | null => .ok none
  | c => (c.getText index column).map some

end Cell

structure ConditionRow where
  specificationId : Cell
  conditionId : Cell
  definition : Cell
  deriving DecidableEq, Repr

structure CaseRow where
  specificationId : Cell
  testId : Cell
  clause : Cell
  title : Cell
  release : Cell
  condition : Cell
  comment : Cell
  deriving DecidableEq, Repr

namespace ConditionRow

def asText (r : ConditionRow) : ConditionRow :=
  ⟨r.specificationId.asText, r.conditionId.asText, r.definition.asText⟩

def read (r : ConditionRow) : Except ConfigurationError (String × String) := do
  let id ← r.conditionId.getText 0 "condition_id"
  let definition ← r.definition.getText 1 "definition"
  return (id, definition)

end ConditionRow

namespace CaseRow

def asText (r : CaseRow) : CaseRow :=
  ⟨r.specificationId.asText, r.testId.asText, r.clause.asText, r.title.asText, r.release.asText,
    r.condition.asText, r.comment.asText⟩

def read (r : CaseRow) : Except ConfigurationError TestCase := do
  let specificationId ← r.specificationId.getText 0 "specification_id"
  let testId ← r.testId.getText 1 "test_id"
  let clause ← r.clause.getOptional 2 "clause"
  let title ← r.title.getOptional 3 "title"
  let release ← r.release.getOptional 4 "release"
  let condition ← r.condition.getOptional 5 "applicability_condition"
  let comment ← r.comment.getOptional 6 "comment"
  return ⟨testId, specificationId, condition.getD "", clause, title, release, comment⟩

end CaseRow

structure Query where
  statement : String
  columns : List String

namespace Query

def conditions : Query where
  statement := "SELECT condition_id, definition
                 FROM c_conditions
                 WHERE specification_id = ?1
                 ORDER BY rowid"
  columns := ["condition_id", "definition", "specification_id", "rowid"]

def cases : Query where
  statement := "SELECT specification_id, test_id, clause, title, release,
                        applicability_condition, comment
                 FROM test_cases
                 WHERE specification_id = ?1
                 ORDER BY rowid"
  columns :=
    ["specification_id", "test_id", "clause", "title", "release", "applicability_condition", "comment", "rowid"]

def offset (name : List Char) : List Char → Nat
  | [] => 0
  | c :: rest => if name.isPrefixOf (c :: rest) then 0 else offset name rest + 1

def fault? (q : Query) (columns : List String) : Option ConfigurationError :=
  (q.columns.find? fun c => !columns.contains c).map fun c =>
    .missingColumn c q.statement (offset c.toList q.statement.toList)

end Query

/-- The rows of a table in the order of insertion, and what is wrong with it for its query. -/
structure Relation (ρ : Type) where
  rows : List ρ
  fault : Option ConfigurationError

instance {ρ : Type} : Coe (List ρ) (Relation ρ) := ⟨fun rows => ⟨rows, none⟩⟩

structure Tables where
  conditions : Option (Relation ConditionRow)
  cases : Option (Relation CaseRow)

inductive StoreFile where
  | absent
  | notADatabase
  | tables (t : Tables)

structure Database where
  path : String
  conditionRows : List ConditionRow
  caseRows : List CaseRow
  conditionFault : Option ConfigurationError := none
  caseFault : Option ConfigurationError := none

namespace Database

def openFile (path : String) : StoreFile → Except ConfigurationError Database
  | .absent => .error (.storeNotFound path)
  | .notADatabase => .error .notADatabase
  | .tables t =>
    match t.conditions, t.cases with
    | none, _ => .error (.missingTable "c_conditions")
    | some _, none => .error (.missingTable "test_cases")
    | some conditions, some cases =>
      .ok ⟨path, conditions.rows, cases.rows, conditions.fault, cases.fault⟩

def conditions (db : Database) (id : String) : Except ConfigurationError Conditions :=
  match db.conditionFault with
  | some e => .error e
  | none =>
    ((db.conditionRows.filter fun r => r.specificationId = .text id).mapM ConditionRow.read).map
      Conditions.collect

def cases (db : Database) (id : String) : Except ConfigurationError (List TestCase) :=
  match db.caseFault with
  | some e => .error e
  | none => (db.caseRows.filter fun r => r.specificationId = .text id).mapM CaseRow.read

def describe (db : Database) : String :=
  "SqliteStore \x7b path: " ++ Text.showQuoted db.path ++ " \x7d"

end Database

end Applicability.Catalog
