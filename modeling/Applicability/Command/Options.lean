import Applicability.Decimal.Unsigned
import Applicability.Settings.Environment

namespace Applicability.Command

inductive Format where
  | json
  | text
  deriving DecidableEq, Repr

def Format.ofName? : String → Option Format
  | "json" => some json
  | "text" => some text
  | _ => none

structure FilterOptions where
  request : String
  database : Option String
  config : Option String
  url : Option String
  batchSize : Option Nat
  format : Format
  output : Option String
  explain : Bool
  failOnEmpty : Bool
  deriving DecidableEq, Repr

structure EvalOptions where
  expression : String
  capabilities : Option String
  config : Option String
  url : Option String
  format : Format
  deriving DecidableEq, Repr

inductive Invocation where
  | filter (o : FilterOptions)
  | eval (o : EvalOptions)
  | version
  | about
  | help
  deriving DecidableEq, Repr

inductive Argument where
  | nothing
  | path
  | text
  | number
  | format
  deriving DecidableEq, Repr

def Argument.accepts (value : String) : Argument → Bool
  | nothing => false
  | path => !value.isEmpty
  | text => true
  | number => (Decimal.readBelow? Decimal.bound64 value.toList).isSome
  | format => (Format.ofName? value).isSome

structure Parameter where
  name : String
  letter : Option Char
  argument : Argument
  deriving DecidableEq, Repr

inductive Stop where
  | usage
  | help
  | about
  deriving DecidableEq, Repr

abbrev Given := List (String × String)

namespace Given

def get? (g : Given) (name : String) : Option String :=
  (g.find? (·.1 == name)).map (·.2)

def has (g : Given) (name : String) : Bool :=
  (g.get? name).isSome

def add (g : Given) (o : Parameter) (value : String) : Except Stop Given :=
  if g.has o.name || !o.argument.accepts value then .error .usage else .ok ((o.name, value) :: g)

def raise (g : Given) (o : Parameter) : Except Stop Given :=
  if o.name == "help" then .error .help
  else if o.name == "version" then .error .about
  else if g.has o.name then .error .usage
  else .ok ((o.name, "") :: g)

end Given

def verbose : Parameter := ⟨"verbose", some 'v', .nothing⟩

def common : List Parameter :=
  [verbose, ⟨"help", some 'h', .nothing⟩]

def topOptions : List Parameter :=
  ⟨"version", some 'V', .nothing⟩ :: common

def filterOptions : List Parameter :=
  [⟨"request", none, .path⟩, ⟨"db", none, .path⟩, ⟨"config", none, .path⟩,
    ⟨"parser-url", none, .text⟩, ⟨"batch-size", none, .number⟩, ⟨"format", none, .format⟩,
    ⟨"output", none, .path⟩, ⟨"explain", none, .nothing⟩, ⟨"fail-on-empty", none, .nothing⟩] ++
    common

def evalOptions : List Parameter :=
  [⟨"expr", none, .text⟩, ⟨"pics", none, .path⟩, ⟨"config", none, .path⟩,
    ⟨"parser-url", none, .text⟩, ⟨"format", none, .format⟩] ++ common

def isDashed (arg : String) : Bool :=
  match arg.toList with
  | '-' :: _ :: _ => true
  | _ => false

def readLetters (options : List Parameter) : Given → List Char → Except Stop Given
  | g, [] => .ok g
  | g, c :: cs =>
    match options.find? (·.letter == some c) with
    | some o => do readLetters options (← g.raise o) cs
    | none => .error .usage

def splitLong (s : List Char) : String × Option String :=
  (String.ofList (s.takeWhile (· != '=')),
    match s.dropWhile (· != '=') with
    | _ :: value => some (String.ofList value)
    | [] => none)

def readOptions (options : List Parameter) :
    Option Parameter → Given → List String → Except Stop (Given × List String)
  | none, g, [] => .ok (g, [])
  | some _, _, [] => .error .usage
  | some o, g, arg :: rest =>
    if isDashed arg then .error .usage
    else do readOptions options none (← g.add o arg) rest
  | none, g, arg :: rest =>
    match arg.toList with
    | ['-', '-'] => if rest.isEmpty then .ok (g, []) else .error .usage
    | '-' :: '-' :: long =>
      let (name, value) := splitLong long
      match options.find? (·.name == name) with
      | none => .error .usage
      | some o =>
        match o.argument, value with
        | .nothing, none => do readOptions options none (← g.raise o) rest
        | .nothing, some _ => .error .usage
        | _, some value => do readOptions options none (← g.add o value) rest
        | _, none => readOptions options (some o) g rest
    | '-' :: c :: cs => do readOptions options none (← readLetters options g (c :: cs)) rest
    | _ => .ok (g, arg :: rest)

def readAll (options : List Parameter) (args : List String) : Except Stop Given := do
  let (g, rest) ← readOptions options none [] args
  if rest.isEmpty then .ok g else .error .usage

def formatOf (g : Given) (usual : Format) : Format :=
  ((g.get? "format").bind Format.ofName?).getD usual

def FilterOptions.ofGiven (g : Given) : Except Stop FilterOptions :=
  match g.get? "request" with
  | none => .error .usage
  | some request =>
    .ok
      { request
        database := g.get? "db"
        config := g.get? "config"
        url := g.get? "parser-url"
        batchSize := (g.get? "batch-size").bind fun s =>
          Decimal.readBelow? Decimal.bound64 s.toList
        format := formatOf g .json
        output := g.get? "output"
        explain := g.has "explain"
        failOnEmpty := g.has "fail-on-empty" }

def EvalOptions.ofGiven (g : Given) : Except Stop EvalOptions :=
  match g.get? "expr" with
  | none => .error .usage
  | some expression =>
    .ok ⟨expression, g.get? "pics", g.get? "config", g.get? "parser-url", formatOf g .text⟩

def commands : List String :=
  ["filter", "eval", "version", "help"]

def read (args : List String) : Except Stop Invocation := do
  let (_, rest) ← readOptions topOptions none [] args
  match rest with
  | "filter" :: args => return .filter (← FilterOptions.ofGiven (← readAll filterOptions args))
  | "eval" :: args => return .eval (← EvalOptions.ofGiven (← readAll evalOptions args))
  | "version" :: args =>
    let _ ← readAll common args
    return .version
  | "help" :: topics =>
    if topics.isEmpty || topics matches [_] && topics.all commands.contains then return .help
    else throw .usage
  | _ => throw .usage

def Invocation.ofArguments? (args : List String) : Option Invocation :=
  match read args with
  | .ok i => some i
  | .error .help => some .help
  | .error .about => some .about
  | .error .usage => none

end Applicability.Command
