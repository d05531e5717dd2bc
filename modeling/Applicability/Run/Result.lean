import Applicability.Catalog.TestCase
import Applicability.Fallback.Queue
import Applicability.Json.Printer
import Applicability.KeyMap
import Applicability.Outcome
import Applicability.Selection

namespace Applicability

structure CaseReport where
  testId : String
  condition : String
  status : Status
  logic : String
  steps : List String
  dSelections : List String
  eSelections : List String
  deriving DecidableEq, Repr

namespace CaseReport

def of (t : Catalog.TestCase) (o : Outcome) : CaseReport :=
  let comment := t.comment.getD ""
  ⟨t.testId, t.condition, o.status, o.logic, o.steps, Selection.dSelections comment,
    Selection.eSelections comment⟩

def toValue (r : CaseReport) : Json.Value :=
  .object
    [("test_id", .string r.testId), ("applicability_condition", .string r.condition),
      ("evaluation_result", .string r.status.token), ("evaluation_logic", .string r.logic),
      ("evaluation_steps", .strings r.steps), ("d_selections", .strings r.dSelections),
      ("e_selections", .strings r.eSelections)]

end CaseReport

def FallbackStats.toValue (s : FallbackStats) : Json.Value :=
  .object
    [("parser_calls", .nat s.parserCalls), ("cache_hits", .nat s.cacheHits),
      ("cache_misses", .nat s.cacheMisses), ("failures", .nat s.failures)]

structure RunSummary where
  itemCount : Nat
  profileSize : Nat
  conditionCount : Nat
  specificationId : Option String
  stats : FallbackStats
  deriving DecidableEq, Repr

structure RunResult where
  matchedIds : List String
  reports : List CaseReport
  breakdown : KeyMap Nat
  successRate : Float
  summary : RunSummary

namespace RunResult

def ofCount (n : Nat) : Float :=
  (UInt64.ofNatClamp n).toFloat

/-- Rounds a number that is not negative. A half goes up. -/
def roundHalfUp (x : Float) : Float :=
  let whole := x.toUInt64.toFloat
  if 0.5 ≤ x - whole then whole + 1 else whole

def successRateOf (outcomes : List Outcome) : Float :=
  if outcomes.isEmpty then 100
  else
    let errors := outcomes.countP fun o => o.status = .error
    let rate := 100 - ofCount errors * 100 / ofCount outcomes.length
    roundHalfUp (rate * 100) / 100

def countToken (counts : KeyMap Nat) (token : String) : KeyMap Nat :=
  counts.insert token ((counts.get? token).getD 0 + 1)

def breakdownOf (outcomes : List Outcome) : KeyMap Nat :=
  outcomes.foldl (fun counts o => countToken counts o.status.token) .empty

def of (cases : List Catalog.TestCase) (outcomes : List Outcome) (summary : RunSummary) :
    RunResult where
  matchedIds := (cases.zip outcomes).filterMap fun p =>
    if p.2.applicable then some p.1.testId else none
  reports := (cases.zip outcomes).map fun p => .of p.1 p.2
  breakdown := breakdownOf ((cases.zip outcomes).map (·.2))
  successRate := successRateOf outcomes
  summary := summary

def total (r : RunResult) : Nat :=
  r.reports.length

def matchedCount (r : RunResult) : Nat :=
  r.matchedIds.length

def report? (r : RunResult) (testId : String) : Option CaseReport :=
  r.reports.find? fun c => c.testId = testId

def toValue (r : RunResult) (time : String) : Json.Value :=
  .object
    [("matched_test_ids", .strings r.matchedIds),
      ("test_cases", .array (r.reports.map CaseReport.toValue)),
      ("total_evaluated", .nat r.total),
      ("matched_count", .nat r.matchedCount),
      ("evaluation_breakdown", .object (r.breakdown.toList.map fun p => (p.1, .nat p.2))),
      ("metadata", .object
        ([("success_rate", .float r.successRate),
          ("pics_items_count", .nat r.summary.itemCount),
          ("dictionary_size", .nat r.summary.profileSize),
          ("conditions_count", .nat r.summary.conditionCount)] ++
          (match r.summary.specificationId with
            | some id => [("specification_id", .string id)]
            | none => []) ++
          [("fallback", r.summary.stats.toValue), ("evaluated_at", .string time)]))]

end RunResult

end Applicability
