import Applicability.Catalog.Database
import Applicability.Catalog.Document

namespace Applicability.Catalog

inductive Store where
  | document (d : Document)
  | database (db : Database)

namespace Store

def conditions (store : Store) (id : String) : Except ConfigurationError Conditions :=
  match store with
  | document d => .ok d.conditions
  | database db => db.conditions id

def cases (store : Store) (id : String) : Except ConfigurationError (List TestCase) :=
  match store with
  | document d => .ok d.cases
  | database db => db.cases id

end Store

end Applicability.Catalog
