import Applicability.File.Basic
import Applicability.Http.Client
import Applicability.Run.Engine
import Applicability.Settings.Basic

namespace Applicability.Engine

variable {σ : Type}

def serviceOf (s : ServiceSettings) (transport : Http.Transport σ) :
    Except RunError (Service σ) :=
  if s.url.isNone then .ok (.offline σ)
  else match Http.Client.ofSettings s with
    | .ok client => .ok (client.service transport)
    | .error e => .error (.configuration (.service e))

def storeOf (files : Files) (database : Option String) : Except RunError (Option Catalog.Store) :=
  match database with
  | none => .ok none
  | some path =>
    match Catalog.Database.openFile path (files.store path) with
    | .ok db => .ok (some (.database db))
    | .error e => .error (.configuration e)

def ofSettings (s : Settings) (files : Files) (transport : Http.Transport σ) :
    Except RunError (Engine σ) := do
  let service ← serviceOf s.service transport
  let store ← storeOf files s.database
  return ⟨s.batchSize, service, store⟩

end Applicability.Engine
