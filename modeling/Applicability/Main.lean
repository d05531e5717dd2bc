import Applicability.Command.Basic
import Std.Time

/-!
The program. It reads what the command line names, runs the command, and delivers its report. There is no
connection to a network here, so a service that is configured cannot be reached.
-/

namespace Applicability.Program

open Command

def variableNames : List String :=
  ["PICS_PARSER_URL", "PICS_PARSER_TOKEN", "PICS_PARSER_TIMEOUT", "PICS_PARSER_MAX_RETRIES",
    "PICS_BATCH_SIZE", "PICS_DATABASE"]

def readEnvironment : IO Environment := do
  let found ← variableNames.filterMapM fun name => do
    return (← IO.getEnv name).map fun value => (name, value)
  return .ofList found

def systemCode (code : UInt32) : Nat :=
  if 2 * code.toNat < Decimal.bound32 then code.toNat else Decimal.bound32 - code.toNat

def fileError : IO.Error → FileError
  | .noFileOrDirectory .. => .notFound
  | .inappropriateType _ code _ =>
    if systemCode code = 21 then .isADirectory else .notADirectory
  | .permissionDenied _ code details =>
    .system (details ++ " (os error " ++ toString (systemCode code) ++ ")")
  | e => .system (toString e)

def readFile (path : String) : IO (Except FileError File) := do
  try return .ok (.ofBytes (← IO.FS.readBinFile path))
  catch e => return .error (fileError e)

def writeFile (path text : String) : IO (Except FileError Unit) := do
  try
    IO.FS.writeFile path text
    return .ok ()
  catch e => return .error (fileError e)

abbrev Known := List (String × Except FileError File)

def Known.files (known : Known) : Files := fun path =>
  match known.find? (·.1 == path) with
  | some (_, file) => file
  | none => .error .notFound

def readMissing (known : Known) (paths : List String) : IO Known :=
  paths.foldlM
    (fun known path => do
      if known.any (·.1 == path) then return known
      else return (path, ← readFile path) :: known)
    known

def readTime : IO String := do
  let time := Std.Time.DateTime.ofTimestamp (← Std.Time.Timestamp.now) .UTC
  return time.format "uuuu-MM-dd'T'HH:mm:ss.SSSSSSSSSxxx"

def readSurroundings (i : Option Invocation) : IO Surroundings := do
  let environment ← readEnvironment
  let time ← readTime
  let paths := fun (known : Known) =>
    i.elim [] fun i => i.paths Settings.ofPlainText ⟨environment, known.files, time⟩
  let known ← readMissing [] (paths [])
  let known ← readMissing known (paths known)
  return ⟨environment, known.files, time⟩

def deliver (ending : Ending) : IO Report :=
  match ending with
  | .done r => return r
  | .write path text after => return after (← writeFile path text)

def usage : String :=
  "Usage: pics [-v] <filter|eval|version> [OPTIONS]"

def run (args : List String) : IO Report := do
  let i := Invocation.ofArguments? args
  if i.isNone then IO.eprintln usage
  if i == some .help then IO.println usage
  let w ← readSurroundings i
  deliver (Command.run args w (.unreachable Unit) ()).1

end Applicability.Program

def main (args : List String) : IO UInt32 := do
  let r ← Applicability.Program.run args
  IO.print r.output
  r.fatal.forM IO.eprintln
  return r.exitCode.toUInt32
