import LedgerBridge.Gateway.Client
import LedgerBridge.Http.MediaType
import LedgerBridge.Json.Reader
import LedgerBridge.Json.Record
import LedgerBridge.Text.Quoted

/-!
# Answers of the ledger gateway

* `Client.answer c response` is what a response says to a question; `none` is a connection that
  was closed without one;
* `Client.answers exchange` is the ledger that a client sees, given what becomes of its requests.
  The exchange stands for the library that sends them: connections, time limits and redirects are
  left to it, and its response is the one in the end.
-/

namespace LedgerBridge.Gateway

open Ledger (AccessError Answers Call Invocation)

/-- The wording of a payload that is not hexadecimal. -/
def payloadProblem : Hex.Flaw → String
  | .oddLength => "payload is not hex: Odd number of digits"
  | .notDigit byte position =>
    let c := Quoted.char (Char.ofNat byte.toNat)
    s!"payload is not hex: Invalid character {c} at position {position}"

/-- The bytes of a payload. -/
def decodePayload (endpoint : Url) (payload : String) : Except AccessError Bytes :=
  (Hex.decode (Utf8.encode payload)).mapError fun flaw =>
    .invalidResponse endpoint.text (payloadProblem flaw)

/-- The payload in the answer to a query, empty if it is left out. -/
def queryOfJson? (j : Json) : Option String := do
  let [payload] ← Json.slots? [⟨["payload"], true⟩] j | none
  Json.Record.orElse Json.asText? "" payload

/-- The transaction id and the payload in the answer to an invocation. -/
def invocationOfJson? (j : Json) : Option (String × String) := do
  let [txId, payload] ← Json.slots? [⟨["transaction_id"], false⟩, ⟨["payload"], true⟩] j | none
  return (← Json.Record.text? txId, ← Json.Record.orElse Json.asText? "" payload)

/-- The number of blocks in an answer. -/
def heightOfJson? (j : Json) : Option UInt64 := do
  let [height] ← Json.slots? [⟨["height"], false⟩] j | none
  Json.Record.required Json.asUInt64? height

/-- The body of a response; some statuses have none. -/
def bodyOf (r : Http.Response) : Bytes := if r.status = 204 ∨ r.status = 304 then [] else r.body

/-- What a body holds. -/
def readBody {α : Type} (endpoint : Url) (read : Json → Option α) (body : Bytes) :
    Except AccessError α :=
  match (Json.parse? body).bind read with
  | some a => .ok a
  | none => .error (.invalidResponse endpoint.text "error decoding response body")

/-- The error of a request that got no response. -/
def noResponse (endpoint : Url) : AccessError :=
  .transport endpoint.text s!"error sending request for url ({endpoint.withoutCredentials.text})"

/-- The error of a request that cannot be sent. -/
def notSendable (endpoint : Url) : AccessError :=
  .transport endpoint.text s!"builder error for url ({endpoint.withoutCredentials.text})"

/-- The body of a response that reports success. -/
def successBody (endpoint : Url) : Option Http.Response → Except AccessError Bytes
  | none => .error (noResponse endpoint)
  | some r =>
    if r.status < 200 then .error (noResponse endpoint)
    else if Http.Status.isSuccess r.status then .ok (bodyOf r)
    else .error (.status endpoint.text r.status (r.headers.encoding.text (bodyOf r)))

/-- The block that a body holds. -/
def readBlock (body : Bytes) : Except AccessError Ledger.Block :=
  (Ledger.Block.format.decode body).mapError .block

namespace Client

variable (client : Client)

/-- What a response says to a question. -/
def answer (c : Call) (response : Option Http.Response) : c.Answer :=
  let endpoint := client.endpoint c
  match c with
  | .query .. => do
    decodePayload endpoint (← readBody endpoint queryOfJson? (← successBody endpoint response))
  | .execute .. => do
    let (transactionId, payload) ←
      readBody endpoint invocationOfJson? (← successBody endpoint response)
    return { transactionId, payload := ← decodePayload endpoint payload }
  | .height => do readBody endpoint heightOfJson? (← successBody endpoint response)
  | .block _ => do readBlock (← successBody endpoint response)
  | .blockOf _ => do readBlock (← successBody endpoint response)

/-- The request that a question becomes, if it can be sent. -/
def request? (c : Call) : Option Http.Request :=
  if isSendable (client.endpoint c) then some (client.request c) else none

/-- The ledger as the client sees it. What `exchange` gives for a request is the response in the
end: if redirects are followed, then by the exchange. -/
def answers (exchange : Http.Request → Option Http.Response) : Answers := fun c =>
  match client.request? c with
  | some request => client.answer c (exchange request)
  | none => .error (notSendable (client.endpoint c))

end Client

end LedgerBridge.Gateway
