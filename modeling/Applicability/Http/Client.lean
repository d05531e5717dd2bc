import Applicability.Http.Address
import Applicability.Http.Message
import Applicability.Json.Printer
import Applicability.Service.Basic
import Applicability.Settings.Basic

namespace Applicability.Http

/-- The network as a client meets it: how it reads addresses, and what it does with a request. A reply may depend
on all that came before. -/
structure Transport (σ : Type) where
  address? : String → Option Address
  send : Request → σ → Reply × σ

namespace Transport

def unreachable (σ : Type) : Transport σ where
  address? := Address.ofText?
  send := fun _ s => (.dropped, s)

def replies (script : Nat → Reply) : Request → List Request → Reply × List Request := fun r sent =>
  (script sent.length, sent ++ [r])

def scripted (script : Nat → Reply) : Transport (List Request) where
  address? := Address.ofText?
  send := replies script

end Transport

structure Client where
  base : String
  token : Option String
  maxRetries : Nat
  deriving DecidableEq, Repr

namespace Client

def ofSettings (s : ServiceSettings) : Except Service.Error Client :=
  let base := String.ofList (Text.dropEndWhile (· == '/') (s.url.getD "").toList)
  if base.isEmpty then .error (.unavailable "parser url not configured")
  else .ok ⟨base, s.token, s.maxRetries⟩

def isHeaderChar (c : Char) : Bool :=
  (0x20 ≤ c.toNat && c.toNat != 0x7F) || c == '\t'

def prepare (client : Client) (address? : String → Option Address) (path body : String) :
    Except Service.Error (String × Request) :=
  match address? (client.base ++ path) with
  | none => .error (.network "builder error")
  | some address =>
    if !(client.token.getD "").toList.all isHeaderChar then .error (.network "builder error")
    else match address with
      | .web _ _ target =>
        .ok (address.text, .post target (client.token.map ("Bearer " ++ ·)) body)
      | .other text => .error (.network ("builder error for url (" ++ text ++ ")"))

variable {σ : Type}

def exchange (transport : Transport σ) (url : String) (r : Request) :
    Nat → σ → Except Service.Error String × σ
  | 0, s =>
    let (reply, s) := transport.send r s
    (reply.read url, s)
  | retries + 1, s =>
    let (reply, s) := transport.send r s
    match reply.read url with
    | .ok body => (.ok body, s)
    | .error e => if e.isRetryable then exchange transport url r retries s else (.error e, s)

def decodeBody {α : Type} (d : Json.Decoder α) (what : String) (body : String) :
    Except Service.Error α :=
  match Json.decodeText d body with
  | .ok v => .ok v
  | .error _ =>
    .error (.invalidResponse
      ("failed to parse " ++ what ++ " response: error decoding response body"))

def post {α : Type} (client : Client) (transport : Transport σ) (path : String) (body : Json.Value)
    (d : Json.Decoder α) (what : String) (s : σ) : Except Service.Error α × σ :=
  match client.prepare transport.address? path body.compact with
  | .error e => (.error e, s)
  | .ok (url, r) =>
    let (answer, s) := exchange transport url r client.maxRetries s
    (answer.bind (decodeBody d what), s)

def one (client : Client) (transport : Transport σ) (expression : String) (s : σ) :
    Except Service.Error Service.Parsed × σ :=
  client.post transport "/parse" (.object [("expression", .string expression)])
    Service.Parsed.decoder "condition" s

structure BatchDraft where
  results : Option (List Service.Parsed)

def batchFields : List (Json.Field BatchDraft) :=
  [.of "results" [] true (.list Service.Parsed.decoder) (·.results)
    fun d v => { d with results := some v }]

def batchDecoder : Json.Decoder (List Service.Parsed) := fun levels n => do
  let d ← Json.Field.record "ParseBatchResponse" batchFields ⟨none⟩ levels n
  return d.results.getD []

def batch (client : Client) (transport : Transport σ) (expressions : List String) (s : σ) :
    Except Service.Error (List Service.Parsed) × σ :=
  client.post transport "/parse/batch" (.object [("expressions", .strings expressions)])
    batchDecoder "batch" s

def service (client : Client) (transport : Transport σ) : Service σ where
  name := "http"
  one := client.one transport
  batch := client.batch transport

end Client

end Applicability.Http
