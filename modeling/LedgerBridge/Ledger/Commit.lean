import LedgerBridge.Json.Writer
import LedgerBridge.Ledger.Event

/-!
# Committing transactions

How endorsers, the ordering service and the peers write what the gateway later reads: events,
envelopes, and blocks with their validation codes.

* `chaincodeEvent` wraps the JSON list of a transaction's logs;
* `Endorsement.envelope` is the envelope of an endorsed transaction, `configEnvelope` that of a
  channel configuration;
* `Block.committed` is the block of a given number with given slots; in `Block.filled` every slot
  has some `Content`, and `blockBytes` are the bytes of that block.
-/

namespace LedgerBridge.Ledger

/-- The channel of the virtual machine. -/
def channelName : String := "mychannel"

/-- The chaincode that holds the virtual machine. -/
def chaincodeName : String := "evmcc"

/-- The serialized event whose payload is a JSON list of logs. -/
def chaincodeEvent (payload : Bytes) : Bytes :=
  ChaincodeEvent.format.encode
    { chaincodeId := chaincodeName, eventName := "Chaincode event", payload := payload }

/-- The JSON list of some logs. -/
def payloadOfEvents (events : List EventRecord) : Bytes :=
  Utf8.encode (Json.render (.array (events.map EventRecord.toJson)))

/-- The envelope of a payload of some type. -/
def envelopeOf (type : Int32) (txId : String) (data : Bytes) : Bytes :=
  let header : ChannelHeader := { type := type, channelId := channelName, txId := txId }
  let payload : Payload := {
    header := some { channelHeader := ChannelHeader.format.encode header }
    data := data }
  Envelope.format.encode { payload := Payload.format.encode payload }

/-- The envelope of a channel configuration. -/
def configEnvelope (txId : String) : Bytes :=
  envelopeOf configType txId (Utf8.encode "channel config")

/-- An endorsed invocation of the chaincode. -/
structure Endorsement where
  txId : String
  args : List Bytes := []
  response : Bytes := []
  /-- The serialized event, empty if there is none. -/
  events : Bytes := []
  /-- Whether the transaction has its action. -/
  hasActions : Bool := true
  /-- Whether the outcome has its extension. -/
  hasExtension : Bool := true

namespace Endorsement

variable (e : Endorsement)

/-- The invocation that was proposed. -/
def invocation : ChaincodeInvocationSpec where
  chaincodeSpec := some {
    type := 0
    chaincodeId := some { name := chaincodeName }
    input := some { args := e.args } }

/-- What the chaincode did. -/
def action : ChaincodeAction where
  events := e.events
  response := some { status := 200, payload := e.response }

/-- The outcome that was endorsed. -/
def outcome : ProposalResponsePayload where
  proposalHash := List.replicate 32 0xab
  extension := if e.hasExtension then ChaincodeAction.format.encode e.action else []

/-- The proposal with its endorsed outcome. -/
def actionPayload : ChaincodeActionPayload where
  chaincodeProposalPayload := ChaincodeProposalPayload.format.encode
    { input := ChaincodeInvocationSpec.format.encode e.invocation }
  action := some
    { proposalResponsePayload := ProposalResponsePayload.format.encode e.outcome }

/-- The transaction. -/
def transaction : Transaction where
  actions :=
    if e.hasActions then
      [{ payload := ChaincodeActionPayload.format.encode e.actionPayload }]
    else []

/-- The envelope of the transaction. -/
def envelope : Bytes :=
  envelopeOf endorserTransactionType e.txId (Transaction.format.encode e.transaction)

end Endorsement

/-! ### Blocks -/

/-- The eight bytes of a number, most significant first. -/
def bigEndian (n : UInt64) : Bytes :=
  (List.range 8).map fun i => UInt8.ofNat (n.toNat >>> (8 * (7 - i)))

/-- The data hash of the block with a given number. -/
def dataHashOf (number : UInt64) : Bytes := bigEndian number ++ List.replicate 24 0xda

/-- The block with a given number and slots, each with the validation code noted for it. -/
def Block.committed (number : UInt64) (slots : List (Bytes × UInt8)) : Block where
  header := some {
    number := number
    previousHash := if number = 0 then [] else dataHashOf (number - 1)
    dataHash := dataHashOf number }
  data := some { data := slots.map (·.1) }
  metadata := some { metadata := [[], [], slots.map (·.2)] }

/-- What a slot of a block is filled with. -/
inductive Content where
  | empty
  /-- A configuration of the channel. -/
  | config (txId : String)
  /-- An endorsed invocation, with the logs it emitted. -/
  | endorsed (txId : String) (args : List Bytes) (response : Bytes) (events : List EventRecord)

/-- The bytes in the slot. -/
def Content.raw : Content → Bytes
  | .empty => []
  | .config txId => configEnvelope txId
  | .endorsed txId args response events =>
    ({ txId, args, response, events := chaincodeEvent (payloadOfEvents events) } :
      Endorsement).envelope

/-- The block with a given number, whose slots are filled and have validation codes. -/
def Block.filled (number : UInt64) (slots : List (Content × UInt8)) : Block :=
  .committed number (slots.map fun s => (s.1.raw, s.2))

/-- The bytes of the block with a given number and filled slots. -/
def blockBytes (number : UInt64) (slots : List (Content × UInt8)) : Bytes :=
  Block.format.encode (.filled number slots)

end LedgerBridge.Ledger
