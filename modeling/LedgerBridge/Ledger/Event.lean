import LedgerBridge.Json.Reader
import LedgerBridge.Json.Record
import LedgerBridge.Ledger.Message

/-!
# Events of a transaction

A chaincode action carries at most one chaincode event, whose payload is a JSON list of the logs
the transaction emitted.

* `EventRecord.ofJson?` reads one log: names in lower case or capitalised, topics and data may be
  left out, topics may be null; `EventRecord.toJson` writes it;
* `decodeEvents` reads them all, in the order of emission; nothing, or an event without payload,
  holds none.
-/

namespace LedgerBridge.Ledger

/-- A log as the chaincode emitted it; its hexadecimal texts usually carry no mark. -/
structure EventRecord where
  address : String
  topics : List String := []
  data : String := ""
  deriving DecidableEq, Repr

namespace EventRecord

/-- The members of a log in JSON. -/
def members : List Json.Member :=
  [⟨["address", "Address"], false⟩, ⟨["topics", "Topics"], true⟩, ⟨["data", "Data"], true⟩]

/-- The topics of a log, where null stands for none. -/
def topicsOfJson? (j : Json) : Option (List String) :=
  (·.getD []) <$> j.asOptional? (Json.asList? Json.asText?)

/-- The log that a JSON value holds. -/
def ofJson? (j : Json) : Option EventRecord := do
  let [address, topics, data] ← Json.slots? members j | none
  return {
    address := ← Json.Record.required Json.asText? address
    topics := ← Json.Record.orElse topicsOfJson? [] topics
    data := ← Json.Record.orElse Json.asText? "" data }

/-- The JSON form of a log. -/
def toJson (e : EventRecord) : Json :=
  .record [
    ("address", .str e.address), ("topics", .array (e.topics.map .str)), ("data", .str e.data)]

end EventRecord

/-- Why events cannot be read. -/
inductive EventError where
  /-- The event is no protobuf message. -/
  | event (e : Protobuf.DecodeError)
  /-- The payload is no JSON list of logs. -/
  | payload
  deriving DecidableEq, Repr

/-- What is wrong with an event, without saying where. -/
def EventError.cause : EventError → String
  | .event e => e.message
  | .payload => "not a list of logs"

/-- The wording of an event error. -/
def EventError.message : EventError → String
  | .event e => "failed to decode chaincode event: " ++ e.message
  | .payload => "failed to unmarshal chaincode event payload: " ++ EventError.payload.cause

/-- The logs in the payload of an event. -/
def eventsOfPayload? (payload : Bytes) : Option (List EventRecord) :=
  (Json.parse? payload).bind (Json.asList? EventRecord.ofJson?)

/-- The logs that a chaincode action emitted. -/
def decodeEvents (raw : Bytes) : Except EventError (List EventRecord) :=
  if raw = [] then .ok []
  else match ChaincodeEvent.format.decode raw with
    | .error e => .error (.event e)
    | .ok event =>
      if event.payload = [] then .ok []
      else match eventsOfPayload? event.payload with
        | some events => .ok events
        | none => .error .payload

end LedgerBridge.Ledger
