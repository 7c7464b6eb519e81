import LedgerBridge.Hex
import LedgerBridge.Http.Message
import LedgerBridge.Json.Writer
import LedgerBridge.Ledger.Access
import LedgerBridge.Url.Parse

/-!
# Requests to the ledger gateway

The ledger is reached through a gateway that speaks HTTP and owns the identities. Each question is
one request below the channel's route.

* `Client.ofConfig` checks what an operator sets;
* `Client.endpoint c` is the URL of a question, `Client.request c` the request;
* `isSendable` says which URLs a request can go to.
-/

namespace LedgerBridge.Gateway

open Ledger (Call)

/-- What an operator sets for the gateway. -/
structure Config where
  url : Url
  channel : String
  /-- The identity that the gateway signs with. -/
  user : String
  org : String
  deriving DecidableEq, Repr

/-- Why no client can be made. -/
inductive SetupError where
  /-- Routes cannot be appended to the URL. -/
  | invalidUrl (url : Url)
  | invalidUser
  | invalidOrg
  deriving DecidableEq, Repr

/-- The wording of a setup error. -/
def SetupError.message : SetupError → String
  | .invalidUrl url => s!"Invalid ledger gateway url {url.text}"
  | .invalidUser => "Invalid value for the user identity header"
  | .invalidOrg => "Invalid value for the org identity header"

/-- A client of the gateway. -/
structure Client where
  base : Url
  channel : String
  user : String
  org : String
  hasSegments_base : base.hasSegments = true
  isFieldValue_user : Http.isFieldValue user = true
  isFieldValue_org : Http.isFieldValue org = true

/-- The client with the given settings. -/
def Client.ofConfig (c : Config) : Except SetupError Client :=
  if hasSegments_base : c.url.hasSegments = true then
    if isFieldValue_user : Http.isFieldValue c.user = true then
      if isFieldValue_org : Http.isFieldValue c.org = true then
        .ok {
          base := c.url, channel := c.channel, user := c.user, org := c.org
          hasSegments_base, isFieldValue_user, isFieldValue_org }
      else .error .invalidOrg
    else .error .invalidUser
  else .error (.invalidUrl c.url)

/-! ### Routes -/

/-- The route of a question below that of the channel. -/
def route : Call → List String
  | .query chaincode _ _ => ["chaincodes", chaincode, "query"]
  | .execute chaincode _ _ => ["chaincodes", chaincode, "execute"]
  | .height => ["height"]
  | .block number => ["blocks", toString number.toNat]
  | .blockOf txId => ["transactions", txId, "block"]

/-- An invocation as the gateway expects it. -/
def invocation (function : String) (args : List Bytes) : Json :=
  .record [("fcn", .str function), ("args", .array (args.map fun a => .str (Hex.encode a)))]

namespace Client

variable (client : Client)

/-- The URL of a question. -/
def endpoint (c : Call) : Url := client.base.append ("channels" :: client.channel :: route c)

/-- The headers that name the identity. -/
def identity : Http.Headers :=
  [("x-ledger-user", Http.fieldValue client.user), ("x-ledger-org", Http.fieldValue client.org)]

/-- The request of an invocation. -/
def post (c : Call) (body : Json) : Http.Request where
  method := "POST"
  target := (client.endpoint c).bare.text
  headers :=
    [("accept", "application/json"), ("content-type", "application/json")] ++ client.identity
  body := Utf8.encode body.render

/-- The request of a look-up. -/
def get (c : Call) : Http.Request where
  method := "GET"
  target := (client.endpoint c).bare.text
  headers := ("accept", "*/*") :: client.identity

/-- The request of a question. -/
def request (c : Call) : Http.Request :=
  match c with
  | .query _ function args => client.post c (invocation function args)
  | .execute _ function args => client.post c (invocation function args)
  | .height | .block _ | .blockOf _ => client.get c

end Client

/-! ### Sending -/

/-- Characters of a host that no request can name. -/
def isUnnameable (c : Char) : Bool := ['"', '\x60', '\x7b', '\x7d'].contains c

/-- Whether a request can go to a URL: it is one of the web, with a host, and not too long. -/
def isSendable (u : Url) : Bool :=
  (u.scheme = "http" || u.scheme = "https")
    && u.host.any (fun h => h ≠ "" && !h.toList.any isUnnameable)
    && Utf8.size u.withoutCredentials.text ≤ 65534

end LedgerBridge.Gateway
