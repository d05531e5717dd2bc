import Applicability.Error
import Applicability.File.Basic
import Applicability.Settings.Document

namespace Applicability.Command

inductive Failure where
  | settings (e : Settings.LoadError)
  | requestUnreadable (path : String) (e : FileError)
  | capabilitiesUnreadable (path : String) (e : FileError)
  | capabilitiesUndecodable (path : String) (e : Json.DecodeError)
  | run (e : RunError)
  | unwritable (path : String) (e : FileError)
  deriving DecidableEq, Repr

namespace Failure

def message : Failure → String
  | settings e => e.message
  | requestUnreadable path e => "failed to read request " ++ path ++ ": " ++ e.message
  | capabilitiesUnreadable path e => "failed to read PICS file " ++ path ++ ": " ++ e.message
  | capabilitiesUndecodable path e => "failed to parse PICS file " ++ path ++ ": " ++ e.message
  | run e => e.message
  | unwritable path e => "failed to write " ++ path ++ ": " ++ e.message

def exitCode : Failure → Nat
  | run e => e.exitCode
  | _ => 2

end Failure

structure Report where
  exitCode : Nat
  output : String
  fatal : Option String
  deriving DecidableEq, Repr

namespace Report

def printed (exitCode : Nat) (text : String) : Report :=
  ⟨exitCode, text, none⟩

def silent (exitCode : Nat) : Report :=
  .printed exitCode ""

def failed (e : Failure) : Report :=
  ⟨e.exitCode, "", some ("fatal: " ++ e.message)⟩

end Report

inductive Ending where
  | done (r : Report)
  | write (path text : String) (after : Except FileError Unit → Report)

structure Surroundings where
  environment : Environment
  files : Files
  time : String

def settingsFor (reader : Settings.Reader) (w : Surroundings) (config database url : Option String)
    (batchSize : Option Nat) : Except Failure Settings := do
  let s ← match config with
    | none => .ok (Settings.ofEnvironment w.environment)
    | some path => (Settings.loadWith reader w.files w.environment path).mapError .settings
  let s := database.elim s s.withDatabase
  let s := url.elim s s.withUrl
  return batchSize.elim s s.withBatchSize

end Applicability.Command
