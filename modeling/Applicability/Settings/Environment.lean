import Applicability.Decimal.Unsigned
import Applicability.KeyMap
import Applicability.Settings.Basic
import Applicability.Text.Blank

namespace Applicability

abbrev Environment := KeyMap String

namespace Environment

def text? (env : Environment) (name : String) : Option String :=
  (env.get? name).filter fun s => !Text.isBlankText s

def number? (env : Environment) (name : String) (bound : Nat) : Option Nat :=
  (env.get? name).bind fun s => Decimal.readBelow? bound (Text.trim s.toList)

end Environment

namespace Settings

open Decimal (bound32 bound64)

def mergeEnvironment (env : Environment) (s : Settings) : Settings :=
  let s := (env.text? "PICS_PARSER_URL").elim s s.withUrl
  let s := (env.get? "PICS_PARSER_TOKEN").elim s s.withToken
  let s := (env.number? "PICS_PARSER_TIMEOUT" bound64).elim s s.withTimeout
  let s := (env.number? "PICS_PARSER_MAX_RETRIES" bound32).elim s s.withRetries
  let s := (env.number? "PICS_BATCH_SIZE" bound64).elim s s.withBatchSize
  (env.get? "PICS_DATABASE").elim s s.withDatabase

def ofEnvironment (env : Environment) : Settings :=
  default.mergeEnvironment env

end Settings

end Applicability
