import Applicability.File.Directory
import Mathlib.Data.List.Infix

namespace Applicability.Directory

variable {d d' : Directory} {place q : Location} {path text : String}

def Leads (d : Directory) (q : Location) : Prop :=
  q = [] ∨ ∃ other ∈ d.files.map (·.1) ++ d.folders, q <+: other

def put (d : Directory) (place : Location) (text : String) : Directory :=
  { d with files := (place, .text text) :: d.files.filter (·.1 != place) }

def target (d : Directory) (path : String) : Except FileError Location := do
  let named := String.ofList (path.toList.reverse.dropWhile (· == '/')).reverse
  let place ← d.locate named
  d.enter place.dropLast
  if path != named || d.entry? place matches some .folder then throw .isADirectory
  return place

end Applicability.Directory
