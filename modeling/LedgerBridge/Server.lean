import LedgerBridge.Http.Cors
import LedgerBridge.Rpc.Exchange
import LedgerBridge.Settings

/-!
# The server

From an HTTP request to the response, over a ledger that the methods ask.

* `Server.ofSettings` is the server that an operator set up;
* `Server.serve` answers a request while `connected` others are being answered.

Every response carries the cross-origin headers, whatever else it says.
-/

namespace LedgerBridge

open Http (OriginError OriginRule)
open Ledger (Access)

/-- How requests are served. -/
structure Server where
  origins : OriginRule := .wildcard
  maxConnections : Nat := 100
  /-- The greatest length of a body, in bytes. -/
  maxRequest : Nat := 15728640
  /-- The greatest length of a response, in bytes. -/
  maxResponse : Nat := 15728640
  methods : Eth.Config := {}
  deriving DecidableEq, Repr

namespace Server

/-- A size in mebibytes as bytes, as far as 32 bits hold it. -/
def mebibytes (n : UInt32) : Nat := min (n.toNat * 1048576) (UInt32.size - 1)

/-- The server of some settings. -/
def ofSettings (s : Settings) : Except OriginError Server := do
  return {
    origins := ← OriginRule.ofCors s.server.cors
    maxConnections := s.server.maxConnections.toNat
    maxRequest := mebibytes s.server.maxRequestSize
    maxResponse := mebibytes s.server.maxResponseSize
    methods := s.methods }

/-- A response for people. -/
def plain (status : Nat) (body : String) : Http.Response where
  status := status
  headers := [("content-type", "text/plain")]
  body := Utf8.encode body

/-- A response for clients. -/
def json (status : Nat) (body : String) : Http.Response where
  status := status
  headers := [("content-type", "application/json; charset=utf-8")]
  body := Utf8.encode body

/-- The ways to say that a body is JSON. -/
def contentTypes : List String := [
  "application/json", "application/json; charset=utf-8", "application/json;charset=utf-8",
  "application/json-rpc", "application/json-rpc; charset=utf-8",
  "application/json-rpc;charset=utf-8"]

/-- Whether headers say, once and in any case, that the body is JSON. -/
def saysJson (headers : Http.Headers) : Bool :=
  match headers.values "content-type" with
  | [value] => contentTypes.contains (Http.fieldValue value).toLower
  | _ => false

/-- The response that reports an error about the whole body. -/
def refusal (status : Nat) (e : Rpc.ErrorObject) : Http.Response :=
  json status (Rpc.Response.failure .null e).text

/-- The response to the body of a request. -/
def serveBody (server : Server) (body : Bytes) : Access Http.Response :=
  if server.maxRequest < body.length then
    return refusal 413 (.requestTooBig server.maxRequest)
  else
    match Rpc.answer? server.methods server.maxResponse body with
    | none => return refusal 400 .parseError
    | some reply => (fun r => json 200 r.text) <$> reply

/-- The response to a request that a connection is free for. -/
def serveMethod (server : Server) (request : Http.Request) : Access Http.Response :=
  if request.method ≠ "POST" then
    return plain 405 "Used HTTP Method is not allowed. POST or OPTIONS is required\n"
  else if saysJson request.headers then server.serveBody request.body
  else
    return plain 415
      "Supplied content type is not allowed. Content-Type: application/json is required\n"

/-- The response to a request without the headers that all have: a browser that asks what it may
send always gets one. -/
def respond (server : Server) (connected : Nat) (request : Http.Request) :
    Access Http.Response :=
  if request.method = "OPTIONS" then return Http.preflight
  else if server.maxConnections ≤ connected then
    return plain 429 "Too many connections. Please try again later."
  else server.serveMethod request

/-- What is sent of a response: one to `HEAD` has no body. -/
def sent (request : Http.Request) (response : Http.Response) : Http.Response :=
  if request.method = "HEAD" then { response with body := [] } else response

/-- The response to a request while `connected` others are being answered. -/
def serve (server : Server) (connected : Nat) (request : Http.Request) : Access Http.Response := do
  let response ← server.respond connected request
  return sent request
    { response with headers := response.headers ++ server.origins.headers request.headers }

end Server

end LedgerBridge
