import LedgerBridge.Protobuf.Format

/-!
# Messages of the ledger

The messages a block is made of, down to the arguments, the response and the events of a chaincode
invocation, each with its protobuf format. Only the fields that the gateway reads are declared.

Some fields hold another message in serialized form; the comment of the record names it.
-/

namespace LedgerBridge.Ledger

open Protobuf (Format Field)

/-- The header of a block. -/
structure BlockHeader where
  number : UInt64 := 0
  previousHash : Bytes := []
  dataHash : Bytes := []
  deriving DecidableEq, Repr

/-- The format of `BlockHeader`. -/
def BlockHeader.format : Format BlockHeader where
  name := "BlockHeader"
  missing := {}
  fields :=
    [.of 1 "number" .uint64 (·.number) fun v m => { m with number := v },
     .of 2 "previous_hash" .bytes (·.previousHash) fun v m => { m with previousHash := v },
     .of 3 "data_hash" .bytes (·.dataHash) fun v m => { m with dataHash := v }]

/-- The slots of a block; each is empty or one serialized `Envelope`. -/
structure BlockData where
  data : List Bytes := []
  deriving DecidableEq, Repr

/-- The format of `BlockData`. -/
def BlockData.format : Format BlockData where
  name := "BlockData"
  missing := {}
  fields :=
    [.of 1 "data" .manyBytes (·.data) fun v m => { m with data := v }]

/-- What the peers noted about a block. -/
structure BlockMetadata where
  metadata : List Bytes := []
  deriving DecidableEq, Repr

/-- The format of `BlockMetadata`. -/
def BlockMetadata.format : Format BlockMetadata where
  name := "BlockMetadata"
  missing := {}
  fields :=
    [.of 1 "metadata" .manyBytes (·.metadata) fun v m => { m with metadata := v }]

/-- A block of the chain. -/
structure Block where
  header : Option BlockHeader := none
  data : Option BlockData := none
  metadata : Option BlockMetadata := none
  deriving DecidableEq, Repr

/-- The format of `Block`. -/
def Block.format : Format Block where
  name := "Block"
  missing := {}
  fields :=
    [.of 1 "header" (.message BlockHeader.format) (·.header) fun v m => { m with header := v },
     .of 2 "data" (.message BlockData.format) (·.data) fun v m => { m with data := v },
     .of 3 "metadata" (.message BlockMetadata.format) (·.metadata) fun v m =>
       { m with metadata := v }]

/-- A signed payload. -/
structure Envelope where
  payload : Bytes := []
  signature : Bytes := []
  deriving DecidableEq, Repr

/-- The format of `Envelope`. -/
def Envelope.format : Format Envelope where
  name := "Envelope"
  missing := {}
  fields :=
    [.of 1 "payload" .bytes (·.payload) fun v m => { m with payload := v },
     .of 2 "signature" .bytes (·.signature) fun v m => { m with signature := v }]

/-- The headers of a payload, serialized. -/
structure Header where
  channelHeader : Bytes := []
  signatureHeader : Bytes := []
  deriving DecidableEq, Repr

/-- The format of `Header`. -/
def Header.format : Format Header where
  name := "Header"
  missing := {}
  fields :=
    [.of 1 "channel_header" .bytes (·.channelHeader) fun v m => { m with channelHeader := v },
     .of 2 "signature_header" .bytes (·.signatureHeader) fun v m => { m with signatureHeader := v }]

/-- What an envelope carries. -/
structure Payload where
  header : Option Header := none
  data : Bytes := []
  deriving DecidableEq, Repr

/-- The format of `Payload`. -/
def Payload.format : Format Payload where
  name := "Payload"
  missing := {}
  fields :=
    [.of 1 "header" (.message Header.format) (·.header) fun v m => { m with header := v },
     .of 2 "data" .bytes (·.data) fun v m => { m with data := v }]

/-- What kind of payload it is, on which channel, and under which transaction id. -/
structure ChannelHeader where
  type : Int32 := 0
  version : Int32 := 0
  channelId : String := ""
  txId : String := ""
  epoch : UInt64 := 0
  deriving DecidableEq, Repr

/-- The format of `ChannelHeader`. -/
def ChannelHeader.format : Format ChannelHeader where
  name := "ChannelHeader"
  missing := {}
  fields :=
    [.of 1 "r#type" .int32 (·.type) fun v m => { m with type := v },
     .of 2 "version" .int32 (·.version) fun v m => { m with version := v },
     .of 4 "channel_id" .text (·.channelId) fun v m => { m with channelId := v },
     .of 5 "tx_id" .text (·.txId) fun v m => { m with txId := v },
     .of 6 "epoch" .uint64 (·.epoch) fun v m => { m with epoch := v }]

/-- One action of a transaction. -/
structure TransactionAction where
  header : Bytes := []
  payload : Bytes := []
  deriving DecidableEq, Repr

/-- The format of `TransactionAction`. -/
def TransactionAction.format : Format TransactionAction where
  name := "TransactionAction"
  missing := {}
  fields :=
    [.of 1 "header" .bytes (·.header) fun v m => { m with header := v },
     .of 2 "payload" .bytes (·.payload) fun v m => { m with payload := v }]

/-- An endorsed transaction. -/
structure Transaction where
  actions : List TransactionAction := []
  deriving DecidableEq, Repr

/-- The format of `Transaction`. -/
def Transaction.format : Format Transaction where
  name := "Transaction"
  missing := {}
  fields :=
    [.of 1 "actions" (.manyMessages TransactionAction.format) (·.actions) fun v m =>
      { m with actions := v }]

/-- The endorsed outcome of an action. -/
structure ChaincodeEndorsedAction where
  proposalResponsePayload : Bytes := []
  deriving DecidableEq, Repr

/-- The format of `ChaincodeEndorsedAction`. -/
def ChaincodeEndorsedAction.format : Format ChaincodeEndorsedAction where
  name := "ChaincodeEndorsedAction"
  missing := {}
  fields :=
    [.of 1 "proposal_response_payload" .bytes (·.proposalResponsePayload) fun v m =>
      { m with proposalResponsePayload := v }]

/-- A proposal and its endorsed outcome. -/
structure ChaincodeActionPayload where
  chaincodeProposalPayload : Bytes := []
  action : Option ChaincodeEndorsedAction := none
  deriving DecidableEq, Repr

/-- The format of `ChaincodeActionPayload`. -/
def ChaincodeActionPayload.format : Format ChaincodeActionPayload where
  name := "ChaincodeActionPayload"
  missing := {}
  fields :=
    [.of 1 "chaincode_proposal_payload" .bytes (·.chaincodeProposalPayload) fun v m =>
      { m with chaincodeProposalPayload := v },
     .of 2 "action" (.message ChaincodeEndorsedAction.format) (·.action) fun v m =>
       { m with action := v }]

/-- The outcome of a proposal; `extension` is a serialized `ChaincodeAction`. -/
structure ProposalResponsePayload where
  proposalHash : Bytes := []
  extension : Bytes := []
  deriving DecidableEq, Repr

/-- The format of `ProposalResponsePayload`. -/
def ProposalResponsePayload.format : Format ProposalResponsePayload where
  name := "ProposalResponsePayload"
  missing := {}
  fields :=
    [.of 1 "proposal_hash" .bytes (·.proposalHash) fun v m => { m with proposalHash := v },
     .of 2 "extension" .bytes (·.extension) fun v m => { m with extension := v }]

/-- What a chaincode answered. -/
structure Response where
  status : Int32 := 0
  message : String := ""
  payload : Bytes := []
  deriving DecidableEq, Repr

/-- The format of `Response`. -/
def Response.format : Format Response where
  name := "Response"
  missing := {}
  fields :=
    [.of 1 "status" .int32 (·.status) fun v m => { m with status := v },
     .of 2 "message" .text (·.message) fun v m => { m with message := v },
     .of 3 "payload" .bytes (·.payload) fun v m => { m with payload := v }]

/-- What a chaincode did; `events` is a serialized `ChaincodeEvent`. -/
structure ChaincodeAction where
  results : Bytes := []
  events : Bytes := []
  response : Option Response := none
  deriving DecidableEq, Repr

/-- The format of `ChaincodeAction`. -/
def ChaincodeAction.format : Format ChaincodeAction where
  name := "ChaincodeAction"
  missing := {}
  fields :=
    [.of 1 "results" .bytes (·.results) fun v m => { m with results := v },
     .of 2 "events" .bytes (·.events) fun v m => { m with events := v },
     .of 3 "response" (.message Response.format) (·.response) fun v m => { m with response := v }]

/-- A proposal; `input` is a serialized `ChaincodeInvocationSpec`. -/
structure ChaincodeProposalPayload where
  input : Bytes := []
  deriving DecidableEq, Repr

/-- The format of `ChaincodeProposalPayload`. -/
def ChaincodeProposalPayload.format : Format ChaincodeProposalPayload where
  name := "ChaincodeProposalPayload"
  missing := {}
  fields :=
    [.of 1 "input" .bytes (·.input) fun v m => { m with input := v }]

/-- The name of a chaincode. -/
structure ChaincodeId where
  path : String := ""
  name : String := ""
  version : String := ""
  deriving DecidableEq, Repr

/-- The format of `ChaincodeId`. -/
def ChaincodeId.format : Format ChaincodeId where
  name := "ChaincodeId"
  missing := {}
  fields :=
    [.of 1 "path" .text (·.path) fun v m => { m with path := v },
     .of 2 "name" .text (·.name) fun v m => { m with name := v },
     .of 3 "version" .text (·.version) fun v m => { m with version := v }]

/-- The arguments of an invocation. -/
structure ChaincodeInput where
  args : List Bytes := []
  deriving DecidableEq, Repr

/-- The format of `ChaincodeInput`. -/
def ChaincodeInput.format : Format ChaincodeInput where
  name := "ChaincodeInput"
  missing := {}
  fields :=
    [.of 1 "args" .manyBytes (·.args) fun v m => { m with args := v }]

/-- Which chaincode is invoked with which arguments. -/
structure ChaincodeSpec where
  type : Int32 := 0
  chaincodeId : Option ChaincodeId := none
  input : Option ChaincodeInput := none
  deriving DecidableEq, Repr

/-- The format of `ChaincodeSpec`. -/
def ChaincodeSpec.format : Format ChaincodeSpec where
  name := "ChaincodeSpec"
  missing := {}
  fields :=
    [.of 1 "r#type" .int32 (·.type) fun v m => { m with type := v },
     .of 2 "chaincode_id" (.message ChaincodeId.format) (·.chaincodeId) fun v m =>
       { m with chaincodeId := v },
     .of 3 "input" (.message ChaincodeInput.format) (·.input) fun v m => { m with input := v }]

/-- An invocation of a chaincode. -/
structure ChaincodeInvocationSpec where
  chaincodeSpec : Option ChaincodeSpec := none
  deriving DecidableEq, Repr

/-- The format of `ChaincodeInvocationSpec`. -/
def ChaincodeInvocationSpec.format : Format ChaincodeInvocationSpec where
  name := "ChaincodeInvocationSpec"
  missing := {}
  fields :=
    [.of 1 "chaincode_spec" (.message ChaincodeSpec.format) (·.chaincodeSpec) fun v m =>
      { m with chaincodeSpec := v }]

/-- An event that a chaincode emitted; `payload` is a JSON list of `EventRecord`s. -/
structure ChaincodeEvent where
  chaincodeId : String := ""
  txId : String := ""
  eventName : String := ""
  payload : Bytes := []
  deriving DecidableEq, Repr

/-- The format of `ChaincodeEvent`. -/
def ChaincodeEvent.format : Format ChaincodeEvent where
  name := "ChaincodeEvent"
  missing := {}
  fields :=
    [.of 1 "chaincode_id" .text (·.chaincodeId) fun v m => { m with chaincodeId := v },
     .of 2 "tx_id" .text (·.txId) fun v m => { m with txId := v },
     .of 3 "event_name" .text (·.eventName) fun v m => { m with eventName := v },
     .of 4 "payload" .bytes (·.payload) fun v m => { m with payload := v }]

/-- The type of a payload that holds an endorsed transaction. -/
def endorserTransactionType : Int32 := 3

/-- The type of a payload that holds a channel configuration. -/
def configType : Int32 := 1

/-- Where the metadata of a block holds the validation codes. -/
def validationCodesIndex : Nat := 2

/-- The validation code of a valid transaction. -/
def validCode : UInt8 := 0

end LedgerBridge.Ledger
