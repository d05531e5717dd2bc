import Applicability.File.Disk

namespace Applicability

abbrev Location := List String

structure Directory where
  files : List (Location × File)
  folders : List Location

namespace Directory

inductive Entry where
  | file (f : File)
  | folder

def entry? (d : Directory) (place : Location) : Option Entry :=
  match d.files.find? (·.1 == place) with
  | some (_, f) => some (.file f)
  | none =>
    let below := place.isEmpty || d.folders.contains place ||
      (d.files.map (·.1) ++ d.folders).any fun other => place.isPrefixOf other
    if below then some .folder else none

def enter (d : Directory) (place : Location) : Except FileError Unit :=
  match d.entry? place with
  | some .folder => .ok ()
  | some (.file _) => .error .notADirectory
  | none => .error .notFound

def walk (d : Directory) (place : Location) : List String → Except FileError Location
  | [] => .ok place
  | part :: rest => do
    d.enter place
    if part == "" || part == "." then d.walk place rest
    else if part != ".." then d.walk (place ++ [part]) rest
    else if place.isEmpty then throw .notFound
    else d.walk place.dropLast rest

def locate (d : Directory) (path : String) : Except FileError Location :=
  if path.isEmpty || path.startsWith "/" then .error .notFound
  else d.walk [] ((path.toList.splitOn '/').map String.ofList)

def read (d : Directory) : Files := fun path => do
  match d.entry? (← d.locate path) with
  | some (.file f) => return f
  | some .folder => throw .isADirectory
  | none => throw .notFound

def write (d : Directory) (path text : String) : Except FileError Directory := do
  let named := String.ofList (path.toList.reverse.dropWhile (· == '/')).reverse
  let place ← d.locate named
  d.enter place.dropLast
  if path != named || d.entry? place matches some .folder then throw .isADirectory
  return { d with files := (place, .text text) :: d.files.filter (·.1 != place) }

def disk : Disk Directory where
  read := read
  write := fun d path text =>
    match d.write path text with
    | .ok d' => (.ok (), d')
    | .error e => (.error e, d)

end Directory

end Applicability
