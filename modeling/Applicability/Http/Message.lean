import Applicability.Decimal.Unsigned
import Applicability.Service.Parsed
import Applicability.Text.Blank
import Applicability.Version

namespace Applicability.Http

structure Request where
  method : String
  target : String
  authorization : Option String
  contentType : String
  userAgent : String
  body : String
  deriving DecidableEq, Repr

def isSpace (c : Char) : Bool :=
  c == ' ' || c == '\t'

def Request.post (target : String) (authorization : Option String) (body : String) : Request where
  method := "POST"
  target := target
  authorization := authorization.map fun s => String.ofList (Text.dropEndWhile isSpace s.toList)
  contentType := "application/json"
  userAgent := "pics-core/" ++ version
  body := body

inductive Reply where
  | dropped
  | answer (status : Nat) (headers : List (String × String)) (body : String)
  deriving DecidableEq, Repr

def header? (name : String) (headers : List (String × String)) : Option String :=
  (headers.find? fun h => String.ofList (h.1.toList.map Char.toLower) == name).map (·.2)

def retryAfter? (headers : List (String × String)) : Option Nat :=
  (header? "retry-after" headers).bind fun value =>
    Decimal.readBelow? Decimal.bound64 (Text.dropEndWhile isSpace (value.toList.dropWhile isSpace))

def content (status : Nat) (body : String) : String :=
  if status = 204 || status = 304 then "" else body

def Reply.read (url : String) : Reply → Except Service.Error String
  | dropped => .error (.network ("error sending request for url (" ++ url ++ ")"))
  | answer status headers body =>
    let text := "HTTP " ++ toString status ++ ": " ++ content status body
    if 200 ≤ status && status ≤ 299 then .ok (content status body)
    else if status = 429 then .error (.rateLimited (retryAfter? headers))
    else if 400 ≤ status && status ≤ 499 then .error (.invalidResponse text)
    else .error (.network text)

end Applicability.Http
