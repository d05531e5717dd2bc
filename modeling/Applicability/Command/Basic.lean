import Applicability.Command.Eval
import Applicability.Command.Filter
import Applicability.File.Directory
import Applicability.Version

namespace Applicability.Command

variable {σ : Type} (reader : Settings.Reader)

def Invocation.run (i : Invocation) (w : Surroundings) (transport : Http.Transport σ) (s : σ) :
    Ending × σ :=
  match i with
  | .filter o => Filter.run reader o w transport s
  | .eval o => Eval.run reader o w transport s
  | .version => (.done (.printed 0 (Applicability.version ++ "\n")), s)
  | .about => (.done (.printed 0 ("pics " ++ Applicability.version ++ "\n")), s)
  | .help => (.done (.silent 0), s)

def Invocation.paths (i : Invocation) (w : Surroundings) : List String :=
  match i with
  | .filter o =>
    let settings := settingsFor reader w o.config o.database o.url o.batchSize
    o.config.toList ++ [o.request] ++ (settings.toOption.bind (·.database)).toList
  | .eval o => o.config.toList ++ o.capabilities.toList
  | .version | .about | .help => []

def runWith (args : List String) (w : Surroundings) (transport : Http.Transport σ) (s : σ) :
    Ending × σ :=
  match Invocation.ofArguments? args with
  | none => (.done (.silent 2), s)
  | some i => i.run reader w transport s

def run : List String → Surroundings → Http.Transport σ → σ → Ending × σ :=
  runWith Settings.ofPlainText

def Ending.onDisk {δ : Type} (disk : Disk δ) (e : Ending) (d : δ) : Report × δ :=
  match e with
  | .done r => (r, d)
  | .write path text after =>
    let (result, d) := disk.write d path text
    (after result, d)

def Ending.inDirectory : Ending → Directory → Report × Directory :=
  Ending.onDisk Directory.disk

end Applicability.Command
