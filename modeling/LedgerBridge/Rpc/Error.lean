import LedgerBridge.Json

/-!
# Error objects

What a client is told about a request that has no result: a code, a wording, and sometimes more.

* `ErrorObject.toJson` is the form that is sent;
* the errors below are those of the protocol itself; the methods have errors of their own.
-/

namespace LedgerBridge.Rpc

/-- What an error response says. -/
structure ErrorObject where
  code : Int
  message : String
  data : Option Json := none
  deriving Repr

namespace ErrorObject

/-- The JSON form of an error object. -/
def toJson (e : ErrorObject) : Json :=
  .record ([("code", .int e.code), ("message", .str e.message)]
    ++ e.data.elim [] fun data => [("data", data)])

/-- The text is no JSON. -/
def parseError : ErrorObject := { code := -32700, message := "Parse error" }

/-- The text is JSON, but no request. -/
def invalidRequest : ErrorObject := { code := -32600, message := "Invalid request" }

/-- There is no such method. -/
def methodNotFound : ErrorObject := { code := -32601, message := "Method not found" }

/-- The parameters are not what the method asks for. -/
def invalidParams : ErrorObject := { code := -32602, message := "Invalid params" }

/-- How a limit on sizes is reported. -/
def exceeded (limit : Nat) : Json := .str s!"Exceeded max limit of {limit}"

/-- The request is longer than `limit`. -/
def requestTooBig (limit : Nat) : ErrorObject where
  code := -32007
  message := "Request is too big"
  data := some (exceeded limit)

/-- The response would be longer than `limit`. -/
def responseTooBig (limit : Nat) : ErrorObject where
  code := -32008
  message := "Response is too big"
  data := some (exceeded limit)

/-- The responses of a batch would together be longer than `limit`. -/
def batchTooBig (limit : Nat) : ErrorObject where
  code := -32011
  message := "The batch response was too large"
  data := some (exceeded limit)

end ErrorObject

end LedgerBridge.Rpc
