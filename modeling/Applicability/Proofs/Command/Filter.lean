import Applicability.Command.Basic
import Applicability.Proofs.File.Directory

namespace Applicability.Command.Filter

variable {σ : Type}

section

variable (reader : Settings.Reader) (o : FilterOptions) (w : Surroundings) (transport : Http.Transport σ)

inductive Prepares : Engine σ → Request → Prop
  | intro {settings : Settings} {text : String} {request : Request} {engine : Engine σ}
      (hsettings : settingsFor reader w o.config o.database o.url o.batchSize = .ok settings)
      (hread : w.files.readText o.request = .ok text) (hdecode : Request.ofText text = .ok request)
      (hbuild : Engine.ofSettings settings w.files transport = .ok engine) : Prepares engine request

/-- A stage fails, with those before it done: the settings are loaded, the request is read and decoded, the engine
is built, and the catalog is named and loaded. -/
inductive Stops : Failure → Prop
  | settings {path : String} {e : Settings.LoadError} (hconfig : o.config = some path)
      (h : Settings.loadWith reader w.files w.environment path = .error e) : Stops (.settings e)
  | reading {settings : Settings} {e : FileError}
      (hsettings : settingsFor reader w o.config o.database o.url o.batchSize = .ok settings)
      (h : w.files.readText o.request = .error e) : Stops (.requestUnreadable o.request e)
  | decoding {settings : Settings} {text : String} {e : RunError}
      (hsettings : settingsFor reader w o.config o.database o.url o.batchSize = .ok settings)
      (hread : w.files.readText o.request = .ok text) (h : Request.ofText text = .error e) : Stops (.run e)
  | building {settings : Settings} {text : String} {request : Request} {e : RunError}
      (hsettings : settingsFor reader w o.config o.database o.url o.batchSize = .ok settings)
      (hread : w.files.readText o.request = .ok text) (hdecode : Request.ofText text = .ok request)
      (h : Engine.ofSettings settings w.files transport = .error e) : Stops (.run e)
  | naming {engine : Engine σ} {request : Request} {e : RunError} (hready : Prepares reader o w transport engine request)
      (h : request.source = .error e) : Stops (.run e)
  | loading {engine : Engine σ} {request : Request} {source : Request.Source} {e : RunError}
      (hready : Prepares reader o w transport engine request) (hsource : request.source = .ok source)
      (h : engine.load request = .error e) : Stops (.run e)

end

variable {reader : Settings.Reader} {o : FilterOptions} {w : Surroundings} {transport : Http.Transport σ} {s s' : σ} {e : Failure}

section

variable {δ : Type} (disk : Disk δ) (Same : δ → String → String → Prop)

variable {disk Same}

end

end Applicability.Command.Filter
