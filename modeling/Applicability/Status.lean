import Applicability.Text.Blank

namespace Applicability

inductive Status where
  | required
  | mandatory
  | optional
  | notApplicable
  | error
  deriving DecidableEq, Repr

namespace Status

def token : Status → String
  | required => "R"
  | mandatory => "M"
  | optional => "O"
  | notApplicable => "N/A"
  | error => "ERROR"

def isApplicable : Status → Bool
  | required | mandatory | optional => true
  | notApplicable | error => false

def ofLiteral? (s : List Char) : Option Status :=
  match Text.upper (Text.trim s) with
  | ['R'] => some required
  | ['M'] => some mandatory
  | ['O'] => some optional
  | ['N', '/', 'A'] => some notApplicable
  | _ => none

def all : List Status :=
  [error, mandatory, notApplicable, optional, required]

def ofToken? (s : String) : Option Status :=
  all.find? fun t => t.token == s

end Status

end Applicability
