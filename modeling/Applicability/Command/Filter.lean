import Applicability.Command.Options
import Applicability.Command.Report
import Applicability.Run.Listing
import Applicability.Run.Setup

namespace Applicability.Command.Filter

variable {σ : Type} (reader : Settings.Reader)

def prepare (o : FilterOptions) (w : Surroundings) (transport : Http.Transport σ) :
    Except Failure (Engine σ × Request) := do
  let settings ← settingsFor reader w o.config o.database o.url o.batchSize
  let text ← (w.files.readText o.request).mapError (.requestUnreadable o.request)
  let request ← (Request.ofText text).mapError .run
  let engine ← (Engine.ofSettings settings w.files transport).mapError .run
  return (engine, request)

def evaluate (o : FilterOptions) (w : Surroundings) (transport : Http.Transport σ) (s : σ) :
    Except Failure RunResult × σ :=
  match prepare reader o w transport with
  | .error e => (.error e, s)
  | .ok (engine, request) =>
    let (result, f) := engine.filter request (.start s)
    (result.mapError .run, f.service)

def render (o : FilterOptions) (time : String) (r : RunResult) : String :=
  match o.format with
  | .json => (r.toValue time).pretty
  | .text => Listing.text o.explain r

def exitCode (o : FilterOptions) (r : RunResult) : Nat :=
  if o.failOnEmpty && r.matchedCount = 0 then 1 else 0

def deliver (o : FilterOptions) (time : String) (r : RunResult) : Ending :=
  match o.output with
  | none => .done (.printed (exitCode o r) (render o time r ++ "\n"))
  | some path => .write path (render o time r) fun
    | .ok () => .silent (exitCode o r)
    | .error e => .failed (.unwritable path e)

def run (o : FilterOptions) (w : Surroundings) (transport : Http.Transport σ) (s : σ) :
    Ending × σ :=
  match evaluate reader o w transport s with
  | (.error e, s) => (.done (.failed e), s)
  | (.ok r, s) => (deliver o w.time r, s)

end Applicability.Command.Filter
