import Applicability.Condition.Evaluation
import Applicability.Fallback.Cache
import Applicability.Fallback.Queue
import Applicability.Service.Basic
import Applicability.Text.Shown

namespace Applicability

structure Fallback (σ : Type) where
  cache : Cache
  service : σ
  calls : List Service.Call

namespace Fallback

variable {σ : Type}

def start (s : σ) : Fallback σ :=
  ⟨.empty, s, []⟩

def entries (keys : List String) :
    Except Service.Error (List Service.Parsed) → List (String × CachedParse)
  | .ok results =>
    keys.mapIdx fun i key =>
      (key, match results[i]? with
        | some p => .ofParsed p
        | none => .failed "parser returned no result for expression")
  | .error e => keys.map fun key => (key, .failed e.message)

def flush (service : Service σ) (q : BatchQueue) (f : Fallback σ) : BatchQueue × Fallback σ :=
  if q.isEmpty then (q, f)
  else
    let (response, s) := service.batch q.pending f.service
    let es := entries q.pending response
    (q.flushed (es.countP fun e => e.2.isFailure),
      ⟨f.cache.insertParses es, s, f.calls ++ [.batch q.pending]⟩)

def outcomeOf (service : String) (profile : Profile) (key : String) : CachedParse → Outcome
  | .parsed rule references =>
    let o := rule.evaluate profile key references
    { o with steps := ("Resolved by " ++ service ++ " parser") :: o.steps }
  | .failed reason =>
    .of .required key ["Fallback parser failed: " ++ reason, "Defaulting to R"]

def resolveCached (service : String) (profile : Profile) (key : String) (f : Fallback σ) :
    Option Outcome × Fallback σ :=
  match f.cache.get? key with
  | none => (none, f)
  | some entry =>
    let o := outcomeOf service profile key entry.parse
    (some o, { f with cache := f.cache.recordOutcome key o })

def fetch (service : Service σ) (key : String) (f : Fallback σ) : CachedParse × Fallback σ :=
  let (response, s) := service.one key f.service
  let parse := match response with
    | .ok p => .ofParsed p
    | .error e => .failed e.message
  (parse, ⟨f.cache.insertParses [(key, parse)], s, f.calls ++ [.one key]⟩)

def missing (key step : String) : Outcome :=
  .of .error key [step]

def resolveOne (service : Service σ) (profile : Profile) (expression : String) (f : Fallback σ) :
    (Outcome × FallbackStats) × Fallback σ :=
  match Condition.evaluate profile expression with
  | .resolved o => ((o, .zero), f)
  | .deferred key =>
    let (stats, f) :=
      if f.cache.contains key then (⟨0, 1, 0, 0⟩, f)
      else
        let (parse, f) := fetch service key f
        (⟨1, 0, 1, if parse.isFailure then 1 else 0⟩, f)
    let (o, f) := resolveCached service.name profile key f
    ((o.getD (missing key "Fallback result missing from cache"), stats), f)

def invalidateKey (key : String) (f : Fallback σ) : Bool × Fallback σ :=
  (f.cache.contains key, { f with cache := f.cache.erase key })

def invalidate (expression : String) (f : Fallback σ) : Bool × Fallback σ :=
  invalidateKey (Condition.cacheKey expression) f

def clear (f : Fallback σ) : Fallback σ :=
  { f with cache := .empty }

def describe (service : String) (f : Fallback σ) : String :=
  "FallbackParser \x7b provider: " ++ Text.showQuoted service ++ ", cached: " ++
    toString f.cache.size ++ " \x7d"

end Fallback

end Applicability
