import Applicability.Catalog.Conditions
import Applicability.Catalog.TestCase
import Applicability.Fallback.Basic

namespace Applicability.Run

open Catalog

variable {σ : Type}

inductive CaseState where
  | resolved (o : Outcome)
  | pending (key : String)
  deriving DecidableEq, Repr

def visit (service : Service σ) (profile : Profile) (expression : String) (q : BatchQueue)
    (f : Fallback σ) : CaseState × BatchQueue × Fallback σ :=
  match Condition.evaluate profile expression with
  | .resolved o => (.resolved o, q, f)
  | .deferred key =>
    if f.cache.contains key then
      let (o, f) := f.resolveCached service.name profile key
      (o.elim (.pending key) .resolved, q.recordHit, f)
    else (.pending key, q.enqueue key, f)

def flushFull (service : Service σ) (q : BatchQueue) (f : Fallback σ) : BatchQueue × Fallback σ :=
  if q.isFull then f.flush service q else (q, f)

def firstPass (service : Service σ) (profile : Profile) (conditions : Conditions) :
    List TestCase → BatchQueue → Fallback σ → List CaseState × BatchQueue × Fallback σ
  | [], q, f => ([], q, f)
  | t :: ts, q, f =>
    let (state, q, f) := visit service profile (expressionFor t.condition conditions) q f
    let (q, f) := flushFull service q f
    let (states, q, f) := firstPass service profile conditions ts q f
    (state :: states, q, f)

def settle (service : Service σ) (profile : Profile) (state : CaseState) (f : Fallback σ) :
    Outcome × Fallback σ :=
  match state with
  | .resolved o => (o, f)
  | .pending key =>
    let (o, f) := f.resolveCached service.name profile key
    (o.getD (Fallback.missing key "Fallback result missing from cache after flush"), f)

def secondPass (service : Service σ) (profile : Profile) :
    List CaseState → Fallback σ → List Outcome × Fallback σ
  | [], f => ([], f)
  | state :: states, f =>
    let (o, f) := settle service profile state f
    let (os, f) := secondPass service profile states f
    (o :: os, f)

end Applicability.Run
