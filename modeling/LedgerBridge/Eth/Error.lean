import LedgerBridge.Hex.Fixed
import LedgerBridge.Ledger.Envelope
import LedgerBridge.Ledger.Event

/-!
# Errors of the methods

Why a method has no result, the code that clients see, and the wording.
-/

namespace LedgerBridge.Eth

/-- Why a method has no result. -/
inductive ApiError where
  /-- The request cannot be meant as it stands. -/
  | invalidParams (reason : String)
  /-- The ledger did not answer a question. -/
  | ledgerQuery (cause : String)
  /-- The ledger did not commit a transaction. -/
  | ledgerExecute (cause : String)
  /-- A block holds what cannot be read. -/
  | unmarshal (cause : String)
  /-- A chaincode event cannot be read. -/
  | eventDecode (cause : String)
  /-- The payload of a chaincode event cannot be read. -/
  | eventPayload (cause : String)
  | transactionNotFound
  | noBlocks
  /-- The request has a meaning, but none that the ledger could give it. -/
  | unimplemented (what : String)
  deriving DecidableEq, Repr

namespace ApiError

/-- The code of an error. -/
def code : ApiError → Int
  | .invalidParams _ => -32602
  | .transactionNotFound => -32001
  | .unimplemented _ => -32004
  | .ledgerQuery _ | .ledgerExecute _ | .unmarshal _ | .eventDecode _ | .eventPayload _
  | .noBlocks => -32603

/-- The wording of an error. -/
def message : ApiError → String
  | .invalidParams reason => "Invalid params: " ++ reason
  | .ledgerQuery cause => "Failed to query the ledger: " ++ cause
  | .ledgerExecute cause => "Failed to execute transaction: " ++ cause
  | .unmarshal cause => "Failed to unmarshal transaction: " ++ cause
  | .eventDecode cause => "Failed to decode chaincode event: " ++ cause
  | .eventPayload cause => "Failed to unmarshal chaincode event payload: " ++ cause
  | .transactionNotFound => "Transaction not found"
  | .noBlocks => "There are no blocks"
  | .unimplemented what => "Unimplemented: " ++ what

/-- A hexadecimal value in a request that is none. -/
def ofHex (e : HexError) : ApiError := .invalidParams e.message

/-- The contents of a block that cannot be read. -/
def ofDecode (e : Ledger.DecodeError) : ApiError := .unmarshal e.message

/-- Events that cannot be read. -/
def ofEvents (e : Ledger.EventError) : ApiError :=
  match e with
  | .event _ => .eventDecode e.cause
  | .payload => .eventPayload e.cause

end ApiError

/-- A hexadecimal value, or the error of a request that needs one. -/
def checkHex {α : Type} (x : Except HexError α) : Except ApiError α := x.mapError .ofHex

/-- What was read out of a block, or the error of a method that needs it. -/
def checkDecode {α : Type} (x : Except Ledger.DecodeError α) : Except ApiError α :=
  x.mapError .ofDecode

/-- The events of a transaction, or the error of a method that needs them. -/
def checkEvents {α : Type} (x : Except Ledger.EventError α) : Except ApiError α :=
  x.mapError .ofEvents

end LedgerBridge.Eth
