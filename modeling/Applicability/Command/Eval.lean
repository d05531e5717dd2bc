import Applicability.Command.Options
import Applicability.Command.Report
import Applicability.Run.Setup

namespace Applicability.Command.Eval

variable {σ : Type}

structure Draft where
  items : Option (List Capability.Item)

def fields : List (Json.Field Draft) :=
  [.of "pics_items" [] true (.list Capability.Item.decoder) (·.items)
    fun d v => { d with items := some v }]

def requestDecoder : Json.Decoder (List Capability.Item) := fun levels n => do
  let d ← Json.Field.ofObject "PicsFile" fields ⟨none⟩ levels n
  return d.items.getD []

def mapDecoder : Json.Decoder (List Capability.Item) := fun levels n =>
  (Json.Decoder.keyMap Capability.Declared.decoder levels n).map fun m =>
    m.toList.map fun p => ⟨p.1, p.2⟩

def capabilitiesDecoder : Json.Decoder (List Capability.Item) :=
  .oneOf "PicsFile" [.list Capability.Item.decoder, requestDecoder, mapDecoder]

def loadCapabilities (files : Files) (path : String) : Except Failure (List Capability.Item) := do
  let text ← (files.readText path).mapError (.capabilitiesUnreadable path)
  (Json.decodeText capabilitiesDecoder text).mapError (.capabilitiesUndecodable path)

variable (reader : Settings.Reader)

def prepare (o : EvalOptions) (w : Surroundings) (transport : Http.Transport σ) :
    Except Failure (Engine σ × List Capability.Item) := do
  let settings ← settingsFor reader w o.config none o.url none
  let items ← match o.capabilities with
    | none => .ok []
    | some path => loadCapabilities w.files path
  let engine ← (Engine.ofSettings { settings with database := none } w.files transport).mapError .run
  return (engine, items)

def render (format : Format) (o : Outcome) (stats : FallbackStats) : String :=
  match format with
  | .json => (Json.Value.object [("outcome", o.toValue), ("fallback", stats.toValue)]).sorted.pretty
  | .text =>
    "\n".intercalate
      (["Result: " ++ o.status.token, "Logic: " ++ o.logic] ++ o.steps.map fun s => "  " ++ s)

def run (o : EvalOptions) (w : Surroundings) (transport : Http.Transport σ) (s : σ) : Ending × σ :=
  match prepare reader o w transport with
  | .error e => (.done (.failed e), s)
  | .ok (engine, items) =>
    let ((outcome, stats), f) := engine.evaluateExpression o.expression items (.start s)
    (.done (.printed 0 (render o.format outcome stats ++ "\n")), f.service)

end Applicability.Command.Eval
