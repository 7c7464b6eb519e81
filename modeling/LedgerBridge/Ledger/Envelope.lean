import LedgerBridge.Hex.Fixed
import LedgerBridge.Ledger.Message

/-!
# Envelopes

What the gateway reads out of a serialized envelope: the header of its channel, and for an endorsed
transaction the call of the virtual machine, the answer of the chaincode and its events.

* `decodeChannelHeader` reads only the header, which is enough to find a transaction;
* `decodeTransaction` walks down to the arguments of the invocation and to its endorsed outcome.
  Any other payload, such as a channel configuration, has its header only;
* an invocation is a call exactly when it has two arguments, both are texts, and the first is not
  the name of the code look-up (`EvmCall.ofArgs?`).
-/

namespace LedgerBridge.Ledger

/-- The parts of an envelope that are messages of their own. -/
inductive Part where
  | envelope
  | payload
  | channelHeader
  | transaction
  | actionPayload
  | proposalPayload
  | responsePayload
  | action
  | invocation
  deriving DecidableEq, Repr

/-- The name of a part in messages. -/
def Part.name : Part → String
  | .envelope => "envelope"
  | .payload => "payload"
  | .channelHeader => "channel header"
  | .transaction => "transaction"
  | .actionPayload => "chaincode action payload"
  | .proposalPayload => "chaincode proposal payload"
  | .responsePayload => "proposal response payload"
  | .action => "chaincode action"
  | .invocation => "chaincode invocation spec"

/-- Why the contents of a block cannot be read. -/
inductive DecodeError where
  /-- A part is no message of its format. -/
  | protobuf (part : Part) (source : Protobuf.DecodeError)
  | missingHeader
  | noActions
  | missingProposalResponse
  | missingExtension
  | missingBlockHeader
  /-- No validation code is noted for the transaction in a slot. -/
  | missingValidationCode (slot : Nat)
  deriving DecidableEq, Repr

/-- The wording of an error in the contents of a block. -/
def DecodeError.message : DecodeError → String
  | .protobuf part source => s!"failed to decode {part.name}: {source.message}"
  | .missingHeader => "payload has no header"
  | .noActions => "transaction has no actions"
  | .missingProposalResponse => "no payload in ChaincodeActionPayload"
  | .missingExtension => "response payload is missing extension"
  | .missingBlockHeader => "block has no header"
  | .missingValidationCode slot => s!"block has no validity flag for transaction {slot}"

/-- The message that a part holds. -/
def decodePart {α : Type} (part : Part) (format : Protobuf.Format α) (raw : Bytes) :
    Except DecodeError α :=
  match format.decode raw with
  | .ok a => .ok a
  | .error e => .error (.protobuf part e)

/-! ### Calls -/

/-- The function that looks up the code of a contract. -/
def getCodeFunction : String := "getCode"

/-- A call of the virtual machine, in the hexadecimal texts that the chaincode was given. -/
structure EvmCall where
  callee : String
  input : String
  deriving DecidableEq, Repr

/-- Whether a call deploys a contract: its callee is the zero address. -/
def EvmCall.isCreation (c : EvmCall) : Bool := (FixedHex.zero 20).denotedBy c.callee

/-- The call that the arguments of an invocation make. -/
def EvmCall.ofArgs? : List Bytes → Option EvmCall
  | [callee, input] =>
    if callee = Utf8.encode getCodeFunction then none
    else do return { callee := ← Utf8.decode? callee, input := ← Utf8.decode? input }
  | _ => none

/-! ### Transactions -/

/-- What the gateway reads out of an envelope. -/
structure Decoded where
  channelHeader : ChannelHeader
  /-- `none` unless the transaction is a call of the virtual machine. -/
  call : Option EvmCall := none
  /-- The answer of the chaincode. -/
  response : Bytes := []
  /-- The serialized event of the chaincode, empty if there is none. -/
  events : Bytes := []
  deriving DecidableEq, Repr

/-- The id of a transaction. -/
def Decoded.txId (t : Decoded) : String := t.channelHeader.txId

/-- The payload of an envelope. -/
def decodePayload (raw : Bytes) : Except DecodeError Payload := do
  let envelope ← decodePart .envelope Envelope.format raw
  decodePart .payload Payload.format envelope.payload

/-- The channel header of a payload. -/
def Payload.decodeChannelHeader (payload : Payload) : Except DecodeError ChannelHeader :=
  match payload.header with
  | some header => decodePart .channelHeader ChannelHeader.format header.channelHeader
  | none => .error .missingHeader

/-- The channel header of an envelope. -/
def decodeChannelHeader (raw : Bytes) : Except DecodeError ChannelHeader := do
  (← decodePayload raw).decodeChannelHeader

/-- The endorsed outcome of an action, which must not be empty. -/
def ChaincodeActionPayload.outcome (p : ChaincodeActionPayload) : Except DecodeError Bytes :=
  match p.action with
  | some endorsed =>
    if endorsed.proposalResponsePayload = [] then .error .missingProposalResponse
    else .ok endorsed.proposalResponsePayload
  | none => .error .missingProposalResponse

/-- The arguments of an invocation. -/
def ChaincodeInvocationSpec.args (i : ChaincodeInvocationSpec) : List Bytes :=
  ((i.chaincodeSpec.bind (·.input)).map (·.args)).getD []

/-- The endorsed transaction under a channel header. -/
def decodeEndorsed (header : ChannelHeader) (raw : Bytes) : Except DecodeError Decoded := do
  let transaction ← decodePart .transaction Transaction.format raw
  let action :: _ := transaction.actions | throw .noActions
  let actionPayload ← decodePart .actionPayload ChaincodeActionPayload.format action.payload
  let outcome ← actionPayload.outcome
  let proposal ← decodePart .proposalPayload ChaincodeProposalPayload.format
    actionPayload.chaincodeProposalPayload
  let response ← decodePart .responsePayload ProposalResponsePayload.format outcome
  if response.extension = [] then throw .missingExtension
  let done ← decodePart .action ChaincodeAction.format response.extension
  let invocation ← decodePart .invocation ChaincodeInvocationSpec.format proposal.input
  return {
    channelHeader := header
    call := EvmCall.ofArgs? invocation.args
    response := (done.response.map (·.payload)).getD []
    events := done.events }

/-- Everything the gateway reads out of an envelope. -/
def decodeTransaction (raw : Bytes) : Except DecodeError Decoded := do
  let payload ← decodePayload raw
  let header ← payload.decodeChannelHeader
  if header.type = endorserTransactionType then decodeEndorsed header payload.data
  else return { channelHeader := header }

end LedgerBridge.Ledger
