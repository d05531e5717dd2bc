import Applicability.Fallback.Queue

namespace Applicability

structure ServiceSettings where
  url : Option String
  token : Option String
  timeoutSecs : Nat
  maxRetries : Nat
  deriving DecidableEq, Repr

structure Settings where
  service : ServiceSettings
  batchSize : Nat
  database : Option String
  deriving DecidableEq, Repr

def ServiceSettings.default : ServiceSettings :=
  ⟨none, none, 30, 3⟩

namespace Settings

def default : Settings :=
  ⟨.default, defaultBatchSize, none⟩

def withUrl (s : Settings) (url : String) : Settings :=
  { s with service := { s.service with url := some url } }

def withToken (s : Settings) (token : String) : Settings :=
  { s with service := { s.service with token := some token } }

def withTimeout (s : Settings) (secs : Nat) : Settings :=
  { s with service := { s.service with timeoutSecs := secs } }

def withRetries (s : Settings) (n : Nat) : Settings :=
  { s with service := { s.service with maxRetries := n } }

def withBatchSize (s : Settings) (n : Nat) : Settings :=
  { s with batchSize := max n 1 }

def withDatabase (s : Settings) (path : String) : Settings :=
  { s with database := some path }

end Settings

end Applicability
