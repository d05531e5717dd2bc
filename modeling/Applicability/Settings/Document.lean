import Applicability.File.Basic
import Applicability.Settings.Environment
import Applicability.Yaml.Decoder

namespace Applicability

structure ServiceSettings.Draft where
  url : Option (Option String)
  token : Option (Option String)
  timeoutSecs : Option Nat
  maxRetries : Option Nat

namespace ServiceSettings

def fields : List (Yaml.Field Draft) :=
  [.of "url" (.optional (.text "a string")) (·.url) fun d v => { d with url := some v },
    .of "token" (.optional (.text "a string")) (·.token) fun d v => { d with token := some v },
    .of "timeout_secs" (.unsigned Decimal.bound64 "u64") (·.timeoutSecs)
      fun d v => { d with timeoutSecs := some v },
    .of "max_retries" (.unsigned Decimal.bound32 "u32") (·.maxRetries)
      fun d v => { d with maxRetries := some v }]

def decoder : Yaml.Decoder ServiceSettings := fun place n => do
  let d ← Yaml.Field.record "ParserConfig" fields ⟨none, none, none, none⟩ place n
  return ⟨d.url.getD default.url, d.token.getD default.token,
    d.timeoutSecs.getD default.timeoutSecs, d.maxRetries.getD default.maxRetries⟩

end ServiceSettings

namespace Settings

structure Draft where
  service : Option ServiceSettings
  batchSize : Option Nat
  database : Option (Option String)

def fields : List (Yaml.Field Draft) :=
  [.of "parser" ServiceSettings.decoder (·.service) fun d v => { d with service := some v },
    .of "batch_size" (.unsigned Decimal.bound64 "usize") (·.batchSize)
      fun d v => { d with batchSize := some v },
    .of "database" (.optional (.text "path string")) (·.database)
      fun d v => { d with database := some v }]

def decoder : Yaml.Decoder Settings := fun place n => do
  let d ← Yaml.Field.record "EngineConfig" fields ⟨none, none, none⟩ place n
  return ⟨d.service.getD .default, d.batchSize.getD default.batchSize,
    d.database.getD default.database⟩

inductive LoadError where
  | unreadable (path : String) (e : FileError)
  | undecodable (path cause : String)
  deriving DecidableEq, Repr

namespace LoadError

def summary : LoadError → String
  | unreadable path _ => "failed to read config " ++ path
  | undecodable path _ => "failed to parse config " ++ path

def cause : LoadError → String
  | unreadable _ e => e.message
  | undecodable _ cause => cause

def message (e : LoadError) : String :=
  e.summary ++ ": " ++ e.cause

end LoadError

/-- A reader of documents, which says what is wrong with those that it cannot read. -/
abbrev Reader := String → Except String Settings

/-- The reader of plain documents: without anchors, tags, blocks of text and directives. -/
def ofPlainText : Reader := fun text =>
  (Yaml.decodeText decoder text).mapError Yaml.DecodeError.message

def loadWith (reader : Reader) (files : Files) (env : Environment) (path : String) : Except LoadError Settings :=
  match files.readText path with
  | .error e => .error (.unreadable path e)
  | .ok text =>
    match reader text with
    | .error cause => .error (.undecodable path cause)
    | .ok s => .ok (s.mergeEnvironment env)

def load : Files → Environment → String → Except LoadError Settings :=
  loadWith ofPlainText

end Settings

end Applicability
