import LedgerBridge.Gateway.Answer
import LedgerBridge.Proofs.Ledger.Message
import LedgerBridge.Proofs.Protobuf.Regular

/-!
# All messages of the ledger

What holds of each message of the ledger, for every record of it and every byte string.

* `MessageType` lists the messages; `t.Record` and `t.format` are the record and the format of one;
* the readers of all formats take whole fields (`Format.Regular`), and the formats are lawful;
* `MessageType.decode_reencode`: encoding loses nothing, be it of a record or of what was decoded;
* `MessageType.decode_declared`: only the declared fields matter, and not their order.
-/

namespace LedgerBridge.Ledger

open Protobuf
open Protobuf.Format (Lawful Regular)

/-! ### Regular formats -/

instance BlockHeader.regular_format : format.Regular where
  distinct := by decide
  fields := .cons (.cons (.cons .nil))

instance BlockData.regular_format : format.Regular where
  distinct := by decide
  fields := .cons .nil

instance BlockMetadata.regular_format : format.Regular where
  distinct := by decide
  fields := .cons .nil

instance Block.regular_format : format.Regular where
  distinct := by decide
  fields := .cons (.cons (.cons .nil))

instance Envelope.regular_format : format.Regular where
  distinct := by decide
  fields := .cons (.cons .nil)

instance Header.regular_format : format.Regular where
  distinct := by decide
  fields := .cons (.cons .nil)

instance Payload.regular_format : format.Regular where
  distinct := by decide
  fields := .cons (.cons .nil)

instance ChannelHeader.regular_format : format.Regular where
  distinct := by decide
  fields := .cons (.cons (.cons (.cons (.cons .nil))))

instance TransactionAction.regular_format : format.Regular where
  distinct := by decide
  fields := .cons (.cons .nil)

instance Transaction.regular_format : format.Regular where
  distinct := by decide
  fields := .cons .nil

instance ChaincodeEndorsedAction.regular_format : format.Regular where
  distinct := by decide
  fields := .cons .nil

instance ChaincodeActionPayload.regular_format : format.Regular where
  distinct := by decide
  fields := .cons (.cons .nil)

instance ProposalResponsePayload.regular_format : format.Regular where
  distinct := by decide
  fields := .cons (.cons .nil)

instance Response.regular_format : format.Regular where
  distinct := by decide
  fields := .cons (.cons (.cons .nil))

instance ChaincodeAction.regular_format : format.Regular where
  distinct := by decide
  fields := .cons (.cons (.cons .nil))

instance ChaincodeProposalPayload.regular_format : format.Regular where
  distinct := by decide
  fields := .cons .nil

instance ChaincodeId.regular_format : format.Regular where
  distinct := by decide
  fields := .cons (.cons (.cons .nil))

instance ChaincodeInput.regular_format : format.Regular where
  distinct := by decide
  fields := .cons .nil

instance ChaincodeSpec.regular_format : format.Regular where
  distinct := by decide
  fields := .cons (.cons (.cons .nil))

instance ChaincodeInvocationSpec.regular_format : format.Regular where
  distinct := by decide
  fields := .cons .nil

instance ChaincodeEvent.regular_format : format.Regular where
  distinct := by decide
  fields := .cons (.cons (.cons (.cons .nil)))

/-! ### The messages -/

/-- A message of the ledger. -/
inductive MessageType where
  | block | blockHeader | blockData | blockMetadata
  | envelope | payload | header | channelHeader
  | transaction | transactionAction | chaincodeActionPayload | chaincodeEndorsedAction
  | proposalResponsePayload | chaincodeAction | response
  | chaincodeProposalPayload | chaincodeInvocationSpec | chaincodeSpec | chaincodeId
  | chaincodeInput | chaincodeEvent
  deriving DecidableEq, Repr

namespace MessageType

/-- The record of a message. -/
abbrev Record : MessageType → Type
  | block => Block
  | blockHeader => BlockHeader
  | blockData => BlockData
  | blockMetadata => BlockMetadata
  | envelope => Envelope
  | payload => Payload
  | header => Header
  | channelHeader => ChannelHeader
  | transaction => Transaction
  | transactionAction => TransactionAction
  | chaincodeActionPayload => ChaincodeActionPayload
  | chaincodeEndorsedAction => ChaincodeEndorsedAction
  | proposalResponsePayload => ProposalResponsePayload
  | chaincodeAction => ChaincodeAction
  | response => Response
  | chaincodeProposalPayload => ChaincodeProposalPayload
  | chaincodeInvocationSpec => ChaincodeInvocationSpec
  | chaincodeSpec => ChaincodeSpec
  | chaincodeId => ChaincodeId
  | chaincodeInput => ChaincodeInput
  | chaincodeEvent => ChaincodeEvent

/-- The format of a message. -/
def format : (t : MessageType) → Format t.Record
  | block => Block.format
  | blockHeader => BlockHeader.format
  | blockData => BlockData.format
  | blockMetadata => BlockMetadata.format
  | envelope => Envelope.format
  | payload => Payload.format
  | header => Header.format
  | channelHeader => ChannelHeader.format
  | transaction => Transaction.format
  | transactionAction => TransactionAction.format
  | chaincodeActionPayload => ChaincodeActionPayload.format
  | chaincodeEndorsedAction => ChaincodeEndorsedAction.format
  | proposalResponsePayload => ProposalResponsePayload.format
  | chaincodeAction => ChaincodeAction.format
  | response => Response.format
  | chaincodeProposalPayload => ChaincodeProposalPayload.format
  | chaincodeInvocationSpec => ChaincodeInvocationSpec.format
  | chaincodeSpec => ChaincodeSpec.format
  | chaincodeId => ChaincodeId.format
  | chaincodeInput => ChaincodeInput.format
  | chaincodeEvent => ChaincodeEvent.format

instance regular_format (t : MessageType) : t.format.Regular := by
  cases t <;> unfold format <;> infer_instance

instance lawful_format (t : MessageType) : t.format.Lawful Format.levels := by
  cases t <;> unfold format Format.levels <;> infer_instance

/-- **Encoding loses nothing.** A record is decoded from its encoding, and so is the record that any
byte string was decoded to; a byte string in memory is shorter than `2 ^ 63`. So a block that is
encoded once more arrives as the same block. -/
theorem decode_reencode :
    (∀ (t : MessageType) a, (t.format.encode a).length < UInt64.size →
      t.format.decode (t.format.encode a) = .ok a) ∧
    (∀ (t : MessageType) s a, s.length < 2 ^ 63 → t.format.decode s = .ok a →
      t.format.decode (t.format.encode a) = .ok a) ∧
    ∀ s b, s.length < 2 ^ 63 → Gateway.readBlock s = .ok b →
      Gateway.readBlock (Block.format.encode b) = .ok b := by
  have hdecoded (t : MessageType) (s : Bytes) (a : t.Record) (hs : s.length < 2 ^ 63)
      (h : t.format.decode s = .ok a) : t.format.decode (t.format.encode a) = .ok a := by
    refine t.lawful_format.decode_encode ?_
    have hle := Format.length_encode_le h
    simp only [UInt64.size]
    omega
  refine ⟨fun t a ha => t.lawful_format.decode_encode ha, hdecoded, fun s b hs h => ?_⟩
  exact mapError_eq_ok.2 (hdecoded .block s b hs (mapError_eq_ok.1 h))

/-- A channel header with negative numbers, a block whose header comes in two parts around a field
that is not declared, and the same block from the ledger gateway. -/
theorem decode_reencode_samples :
    ((ChannelHeader.format.encode { type := -1, version := -2147483648 }).length < UInt64.size ∧
      ChannelHeader.format.decode
          (ChannelHeader.format.encode { type := -1, version := -2147483648 }) =
        .ok { type := -1, version := -2147483648 }) ∧
    (Block.format.decode [0x12, 0, 0x0a, 2, 8, 5, 0x22, 1, 8, 0x0a, 3, 8, 0x87, 0] =
        .ok { header := some { number := 7 }, data := some {} } ∧
      Block.format.decode
          (Block.format.encode { header := some { number := 7 }, data := some {} }) =
        .ok { header := some { number := 7 }, data := some {} }) ∧
    Gateway.readBlock (Block.format.encode { header := some { number := 7 }, data := some {} }) =
      .ok { header := some { number := 7 }, data := some {} } := by
  have hlength :
      (ChannelHeader.format.encode { type := -1, version := -2147483648 }).length <
        UInt64.size := by
    decide +kernel
  have hblock : Block.format.decode [0x12, 0, 0x0a, 2, 8, 5, 0x22, 1, 8, 0x0a, 3, 8, 0x87, 0] =
      .ok { header := some { number := 7 }, data := some {} } := by
    decide +kernel
  obtain ⟨hrecord, hdecoded, harrived⟩ := decode_reencode
  exact ⟨⟨hlength, hrecord .channelHeader _ hlength⟩,
    ⟨hblock, hdecoded .block _ _ (by decide) hblock⟩,
    harrived _ _ (by decide) (mapError_eq_ok.2 hblock)⟩

/-- **Only the declared fields matter, and not their order.** Behind a message, a field with an
undeclared number changes neither the record nor the error, unless it is a group, which may be
nested too deeply; and fields with different numbers, groups or not, may change places. -/
theorem decode_declared (t : MessageType) {a : Bytes} {m : t.Record}
    (ha : t.format.decode a = .ok m) (b : Bytes) :
    (∀ key u, IsField key u → key.wire ≠ .startGroup →
      (∀ field ∈ t.format.fields, field.number ≠ key.number) →
      t.format.decode (a ++ u ++ b) = t.format.decode (a ++ b)) ∧
    ∀ key key' f g m', IsField key f → IsField key' g → key.number ≠ key'.number →
      t.format.decode (a ++ f ++ g ++ b) = .ok m' →
      t.format.decode (a ++ g ++ f ++ b) = .ok m' := by
  refine ⟨fun key u hu hgroup hunknown => ?_, fun key key' f g m' hf hg hne h => ?_⟩
  · refine Format.decode_append_unknown ha hu hgroup (fun hmem => ?_) b
    obtain ⟨field, hfield, hnumber⟩ := List.mem_map.1 hmem
    exact hunknown field hfield hnumber
  · exact Format.decode_swap ha hf hg hne h

/-- A timestamp, whose bytes look like a field, is passed over between two fields of a channel
header; and its version, with a digit more than it needs, may come behind the transaction id. -/
theorem decode_declared_channelHeader :
    ChannelHeader.format.decode [8, 3, 0x1a, 2, 8, 1, 0x10, 1] =
      ChannelHeader.format.decode [8, 3, 0x10, 1] ∧
    ChannelHeader.format.decode [8, 3, 0x2a, 1, 0x61, 0x10, 0x81, 0, 0x30, 2] =
      .ok { type := 3, version := 1, txId := "a", epoch := 2 } := by
  have htype : ChannelHeader.format.decode [8, 3] = .ok { type := 3 } := by decide +kernel
  have htimestamp : IsField ⟨3, .lengthDelimited⟩ ([0x1a] ++ ([2] ++ [8, 1])) :=
    .intro ⟨⟨.last (by decide), by decide, by decide⟩, by decide, by decide⟩
      (.lengthDelimited ⟨.last (by decide), by decide, by decide⟩)
  have hversion : IsField ⟨2, .varint⟩ ([0x10] ++ [0x81, 0]) :=
    .intro ⟨⟨.last (by decide), by decide, by decide⟩, by decide, by decide⟩
      (.varint ⟨.more (by decide) (.last (by decide)), by decide, by decide⟩)
  have hid : IsField ⟨5, .lengthDelimited⟩ ([0x2a] ++ ([1] ++ [0x61])) :=
    .intro ⟨⟨.last (by decide), by decide, by decide⟩, by decide, by decide⟩
      (.lengthDelimited ⟨.last (by decide), by decide, by decide⟩)
  exact ⟨(decode_declared .channelHeader htype [0x10, 1]).1 _ _ htimestamp (by decide)
      (by decide),
    (decode_declared .channelHeader htype [0x30, 2]).2 _ _ _ _ _ hversion hid (by decide)
      (by decide +kernel)⟩

end MessageType

end LedgerBridge.Ledger
