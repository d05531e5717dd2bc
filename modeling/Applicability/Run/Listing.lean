import Applicability.Run.Result

namespace Applicability.Listing

def icon : Status → String
  | .mandatory | .required => "✅"
  | .optional => "➖"
  | .notApplicable => "⏭️ "
  | .error => "❌"

def pad (width : Nat) (s : String) : String :=
  s ++ String.ofList (List.replicate (width - s.length) ' ')

def caseLine (r : CaseReport) : String :=
  let condition := Text.trimmed r.condition
  " ".intercalate
    [icon r.status, pad 24 r.testId, pad 5 r.status.token,
      if condition.isEmpty then "(unconditional)" else condition]

def caseLines (explain : Bool) (r : CaseReport) : List String :=
  caseLine r :: if explain then r.steps.map fun s => "    " ++ s else []

def percent (x : Float) : String :=
  let hundredths := Decimal.Ratio.floor
    ((Decimal.neighbourhood (.ofFloat x)).value.mul ⟨200, 1⟩)
  let n := (hundredths + 1) / 2
  let digits := Nat.toDigits 10 n
  let digits := List.replicate (3 - digits.length) '0' ++ digits
  String.ofList (digits.dropLast.dropLast ++ '.' :: digits.drop (digits.length - 2))

def lines (explain : Bool) (r : RunResult) : List String :=
  let breakdown := r.breakdown.toList.map fun p => p.1 ++ "=" ++ toString p.2
  let stats := r.summary.stats
  r.reports.flatMap (caseLines explain) ++
    ["",
      "Matched " ++ toString r.matchedCount ++ " of " ++ toString r.total ++ " test cases (" ++
        " ".intercalate breakdown ++ ")",
      "Success rate: " ++ percent r.successRate ++ "%  parser_calls=" ++
        toString stats.parserCalls ++ " cache_hits=" ++ toString stats.cacheHits ++
        " failures=" ++ toString stats.failures]

def text (explain : Bool) (r : RunResult) : String :=
  "\n".intercalate (lines explain r)

end Applicability.Listing
