import Applicability.Catalog.Store
import Applicability.Request
import Applicability.Run.Passes
import Applicability.Run.Result

namespace Applicability

structure Engine (σ : Type) where
  batchSize : Nat
  service : Service σ
  store : Option Catalog.Store

namespace Engine

open Catalog

variable {σ : Type}

def offline (σ : Type) : Engine σ :=
  ⟨defaultBatchSize, .offline σ, none⟩

structure Loaded where
  conditions : Conditions
  cases : List TestCase
  specificationId : Option String

def load (engine : Engine σ) (r : Request) : Except RunError Loaded :=
  match r.source with
  | .error e => .error e
  | .ok (.given d) => .ok ⟨d.conditions, d.cases, r.specificationId⟩
  | .ok (.stored id) =>
    match engine.store with
    | none => .error (.configuration .noStore)
    | some store =>
      match store.conditions id, store.cases id with
      | .error e, _ => .error (.configuration e)
      | .ok _, .error e => .error (.configuration e)
      | .ok conditions, .ok cases => .ok ⟨conditions, cases, some id⟩

def run (engine : Engine σ) (items : List Capability.Item) (catalog : Loaded) (f : Fallback σ) :
    RunResult × Fallback σ :=
  let profile := Capability.profile items
  let (states, q, f) :=
    Run.firstPass engine.service profile catalog.conditions catalog.cases
      (.new engine.batchSize) f
  let (q, f) := f.flush engine.service q
  let (outcomes, f) := Run.secondPass engine.service profile states f
  (.of catalog.cases outcomes
    ⟨items.length, profile.size, catalog.conditions.size, catalog.specificationId, q.stats⟩, f)

def filter (engine : Engine σ) (r : Request) (f : Fallback σ) :
    Except RunError RunResult × Fallback σ :=
  match engine.load r with
  | .error e => (.error e, f)
  | .ok catalog =>
    let (result, f) := engine.run r.items catalog f
    (.ok result, f)

def evaluateExpression (engine : Engine σ) (expression : String) (items : List Capability.Item)
    (f : Fallback σ) : (Outcome × FallbackStats) × Fallback σ :=
  f.resolveOne engine.service (Capability.profile items) expression

def describe (engine : Engine σ) (f : Fallback σ) : String :=
  "FilterService \x7b batch_size: " ++ toString engine.batchSize ++ ", fallback: " ++
    f.describe engine.service.name ++ ", store: " ++
    (if engine.store.isSome then "true" else "false") ++ " \x7d"

end Engine

end Applicability
