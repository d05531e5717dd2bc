import Applicability.Catalog.Database
import Applicability.Catalog.Image.Schema

namespace Applicability

inductive FileError where
  | notFound
  | notADirectory
  | isADirectory
  | notText
  | system (description : String)
  deriving DecidableEq, Repr

def FileError.message : FileError → String
  | notFound => "No such file or directory (os error 2)"
  | notADirectory => "Not a directory (os error 20)"
  | isADirectory => "Is a directory (os error 21)"
  | notText => "stream did not contain valid UTF-8"
  | system description => description

inductive File where
  | text (s : String)
  | tables (t : Catalog.Tables)
  | binary

namespace File

def ofBytes (bytes : ByteArray) : File :=
  match Catalog.Image.Pages.ofBytes? bytes, String.fromUTF8? bytes with
  | some p, _ => tables (Catalog.Image.tables p)
  | none, some s => text s
  | none, none => binary

def readText : File → Except FileError String
  | text s => .ok s
  | tables _ | binary => .error .notText

def store : File → Catalog.StoreFile
  | text s => if s.isEmpty then .tables ⟨none, none⟩ else .notADatabase
  | tables t => .tables t
  | binary => .notADatabase

end File

abbrev Files := String → Except FileError File

namespace Files

def readText (files : Files) (path : String) : Except FileError String :=
  (files path).bind File.readText

def store (files : Files) (path : String) : Catalog.StoreFile :=
  match files path with
  | .ok f => f.store
  | .error _ => .absent

end Files

end Applicability
