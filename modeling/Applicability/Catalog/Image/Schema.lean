import Applicability.Catalog.Image.Pages
import Applicability.Text.Blank

namespace Applicability.Catalog.Image

def parts (depth : Nat) : List Char → List (List Char)
  | [] => [[]]
  | c :: rest =>
    if c == ',' && depth = 0 then [] :: parts 0 rest
    else
      let depth := if c == '(' then depth + 1 else if c == ')' then depth - 1 else depth
      match parts depth rest with
      | p :: ps => (c :: p) :: ps
      | [] => [[c]]

def isQuote (c : Char) : Bool :=
  c == '"' || c == '\'' || c == '\x60' || c == '[' || c == ']'

def columnName (definition : List Char) : String :=
  let name := (Text.trimStart definition).takeWhile fun c => !Text.isBlank c && c != '('
  String.ofList ((name.filter (!isQuote ·)).map Char.toLower)

def columnNames (statement : String) : List String :=
  let inner := (statement.toList.dropWhile (· != '(')).drop 1
  let inner := ((inner.reverse.dropWhile (· != ')')).drop 1).reverse
  (parts 0 inner).map columnName

def hasRowId (statement : String) : Bool :=
  let options := (statement.toList.reverse.takeWhile (· != ')')).reverse
  !(Text.words (Text.upper options)).contains "WITHOUT".toList

structure Sheet where
  columns : List String
  numbered : Bool
  rows : List (List Cell)

namespace Sheet

def names (s : Sheet) : List String :=
  if s.numbered then s.columns ++ ["rowid"] else s.columns

def cell (s : Sheet) (row : List Cell) (column : String) : Cell :=
  match s.columns.findIdx? (· == column) with
  | some i => row[i]?.getD .null
  | none => .null

def conditionRow (s : Sheet) (row : List Cell) : ConditionRow :=
  ⟨s.cell row "specification_id", s.cell row "condition_id", s.cell row "definition"⟩

def caseRow (s : Sheet) (row : List Cell) : CaseRow :=
  ⟨s.cell row "specification_id", s.cell row "test_id", s.cell row "clause", s.cell row "title",
    s.cell row "release", s.cell row "applicability_condition", s.cell row "comment"⟩

def relation {ρ : Type} (s : Sheet) (q : Query) (row : List Cell → ρ) : Relation ρ :=
  ⟨s.rows.map row, q.fault? s.names⟩

end Sheet

def sheetOf? (p : Pages) (name : String) : List Cell → Option Sheet
  | [.text "table", .text n, _, .integer root, .text statement] =>
    if n = name then some ⟨columnNames statement, hasRowId statement, p.rows root.toNat⟩ else none
  | _ => none

def sheet? (p : Pages) (name : String) : Option Sheet :=
  (p.rows 1).findSome? (sheetOf? p name)

def tables (p : Pages) : Tables where
  conditions := (sheet? p "c_conditions").map fun s => s.relation .conditions s.conditionRow
  cases := (sheet? p "test_cases").map fun s => s.relation .cases s.caseRow

end Applicability.Catalog.Image
