namespace Applicability.Yaml

inductive Node where
  | scalar (text : String) (plain : Bool)
  | sequence (items : List Node)
  | mapping (entries : List (Node × Node))
  deriving Repr

def Node.nothing : Node :=
  .scalar "" true

inductive Fault where
  | controlCharacter
  | unexpectedCharacter
  | unexpectedEnd
  | tabIndentation
  | unknownEscape
  | noKeyHere
  | expectedKey
  | expectedColon
  | expectedCommaOrEnd
  | expectedDocument
  deriving DecidableEq, Repr

def Fault.message : Fault → String
  | controlCharacter => "control characters are not allowed"
  | unexpectedCharacter => "found character that cannot start any token"
  | unexpectedEnd => "found unexpected end of stream"
  | tabIndentation => "found a tab character that violates indentation"
  | unknownEscape => "found unknown escape character"
  | noKeyHere => "mapping values are not allowed in this context"
  | expectedKey => "did not find expected key"
  | expectedColon => "could not find expected ':'"
  | expectedCommaOrEnd => "did not find expected ',' or closing bracket"
  | expectedDocument => "did not find expected <document start>"

end Applicability.Yaml
