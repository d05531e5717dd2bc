import Applicability.Capability.Item
import Applicability.Catalog.Document
import Applicability.Error

namespace Applicability

structure Request where
  items : List Capability.Item
  specificationId : Option String
  document : Option Catalog.Document

namespace Request

open Catalog

inductive Source where
  | given (d : Document)
  | stored (id : String)

structure Draft where
  items : Option (List Capability.Item)
  specificationId : Option (Option String)
  document : Option (Option Document)

def fields : List (Json.Field Draft) :=
  [.of "pics_items" ["pics"] false (.list Capability.Item.decoder) (·.items)
      fun d v => { d with items := some v },
    .of "specification_id" ["spec_id"] false (.optional .string) (·.specificationId)
      fun d v => { d with specificationId := some v },
    .of "spec_data" [] false (.optional Document.decoder) (·.document)
      fun d v => { d with document := some v }]

def decoder : Json.Decoder Request := fun levels n => do
  let d ← Json.Field.record "FilterRequest" fields ⟨none, none, none⟩ levels n
  return ⟨d.items.getD [], d.specificationId.getD none, d.document.getD none⟩

def ofText (text : String) : Except RunError Request :=
  match Json.decodeText decoder text with
  | .ok r => .ok r
  | .error e => .error (.invalidRequest (.undecodable e))

def toValue (r : Request) : Json.Value :=
  .object
    ([("pics_items", .array (r.items.map Capability.Item.toValue))] ++
      (match r.specificationId with
        | some id => [("specification_id", .string id)]
        | none => []) ++
      (match r.document with
        | some d => [("spec_data", d.toValue)]
        | none => []))

def source (r : Request) : Except RunError Source :=
  match r.document with
  | some d => .ok (.given d)
  | none =>
    match r.specificationId.map Text.trimmed with
    | some id => if id.isEmpty then .error (.invalidRequest .noCatalog) else .ok (.stored id)
    | none => .error (.invalidRequest .noCatalog)

end Request

def Catalog.Document.ofText (text : String) : Except RunError Catalog.Document :=
  match Json.decodeText Catalog.Document.decoder text with
  | .ok d => .ok d
  | .error e => .error (.invalidDocument e)

end Applicability
