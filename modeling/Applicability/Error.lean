import Applicability.Json.Decoder
import Applicability.Service.Parsed

namespace Applicability

inductive CellKind where
  | null
  | integer
  | real
  | text
  | blob
  deriving DecidableEq, Repr

def CellKind.name : CellKind → String
  | null => "Null"
  | integer => "Integer"
  | real => "Real"
  | text => "Text"
  | blob => "Blob"

inductive ConfigurationError where
  | noStore
  | storeNotFound (path : String)
  | notADatabase
  | missingTable (name : String)
  | missingColumn (column statement : String) (offset : Nat)
  | cellKind (kind : CellKind) (index : Nat) (column : String)
  | service (e : Service.Error)
  deriving DecidableEq, Repr

def ConfigurationError.message : ConfigurationError → String
  | noStore => "no condition store configured"
  | storeNotFound path => "condition store not found: " ++ path
  | notADatabase => "condition store: file is not a database"
  | missingTable name => "condition store is missing table '" ++ name ++ "'"
  | missingColumn column statement offset =>
    "condition store: no such column: " ++ column ++ " in " ++ statement ++ " at offset " ++ toString offset
  | cellKind kind index column =>
    "condition store: Invalid column type " ++ kind.name ++ " at index: " ++ toString index ++
      ", name: " ++ column
  | service e => e.message

inductive RequestError where
  | undecodable (e : Json.DecodeError)
  | noCatalog
  deriving DecidableEq, Repr

def RequestError.message : RequestError → String
  | undecodable e => e.message
  | noCatalog => "request needs spec_data or specification_id"

inductive RunError where
  | configuration (e : ConfigurationError)
  | invalidRequest (e : RequestError)
  | invalidDocument (e : Json.DecodeError)
  deriving DecidableEq, Repr

namespace RunError

def message : RunError → String
  | configuration e => "configuration error: " ++ e.message
  | invalidRequest e => "invalid request: " ++ e.message
  | invalidDocument e => "invalid spec data: " ++ e.message

def exitCode : RunError → Nat
  | configuration _ | invalidRequest _ | invalidDocument _ => 2

end RunError

end Applicability
