import LedgerBridge.Gateway.Answer
import LedgerBridge.Ledger.Block
import LedgerBridge.Proofs.Ledger.Endorsement
import LedgerBridge.Proofs.Ledger.Event

/-!
# Committed blocks read back

A block that was filled with some `Content` is read back from its bytes (`readBlock_blockBytes`),
and so is what its slots hold (`decodeTransaction_config`, `decodeTransaction_endorsed`).
-/

namespace LedgerBridge.Ledger

open Protobuf.Format (length_le_of_manyBytes length_le_of_message)

theorem Content.raw_ne_nil {c : Content} (h : c ≠ .empty) : c.raw ≠ [] := by
  cases c with
  | empty => exact absurd rfl h
  | config txId => exact envelopeOf_ne_nil
  | endorsed txId args response events => exact envelopeOf_ne_nil

theorem decodeTransaction_config {txId : String}
    (h : (Content.config txId).raw.length < UInt64.size) :
    decodeTransaction (Content.config txId).raw =
      .ok { channelHeader := headerOf configType txId } := by
  rw [Content.raw, configEnvelope, decodeTransaction_envelopeOf h, if_neg (by decide)]

section Endorsed

variable {txId : String} {args : List Bytes} {response : Bytes} {events : List EventRecord}
  (h : (Content.endorsed txId args response events).raw.length < UInt64.size)
include h

theorem decodeTransaction_endorsed :
    decodeTransaction (Content.endorsed txId args response events).raw = .ok {
      channelHeader := headerOf endorserTransactionType txId
      call := EvmCall.ofArgs? args
      response := response
      events := chaincodeEvent (payloadOfEvents events) } :=
  Endorsement.decodeTransaction_envelope _ rfl rfl h

theorem decodeEvents_endorsed :
    decodeEvents (chaincodeEvent (payloadOfEvents events)) = .ok events :=
  decodeEvents_chaincodeEvent (lt_of_le_of_lt (Endorsement.length_events_le
    { txId, args, response, events := chaincodeEvent (payloadOfEvents events) } rfl rfl) h)

end Endorsed

/-! ### Blocks -/

section Block

variable {number : UInt64} {slots : List (Content × UInt8)}

theorem readBlock_blockBytes (h : (blockBytes number slots).length < UInt64.size) :
    Gateway.readBlock (blockBytes number slots) = .ok (.filled number slots) := by
  rw [Gateway.readBlock, blockBytes, Block.lawful_format.decode_encode h]
  rfl

namespace Block

theorem slots_filled : (filled number slots).slots = slots.map (·.1.raw) := List.map_map

theorem transactions_filled :
    (filled number slots).transactions =
      (slots.zipIdx.filter fun p => p.1.1.raw ≠ []).map fun p => (p.2, p.1.1.raw) := by
  rw [transactions, slots_filled, List.zipIdx_map, List.map_map, List.filter_map]
  rfl

theorem validationCode_filled {slot : Nat} {s : Content × UInt8} (h : slots[slot]? = some s) :
    (filled number slots).validationCode slot = .ok s.2 := by
  have hcodes : (filled number slots).validationCodes = slots.map (·.2) := List.map_map
  rw [validationCode, hcodes, List.getElem?_map, h]
  rfl

end Block

theorem length_raw_le {s : Content × UInt8} (hs : s ∈ slots) :
    s.1.raw.length ≤ (blockBytes number slots).length := by
  have hdata : s.1.raw ∈ (Block.filled number slots).slots := by
    rw [Block.slots_filled]
    exact List.mem_map_of_mem (f := fun s : Content × UInt8 => s.1.raw) hs
  calc
    _ ≤ _ := length_le_of_manyBytes (f := BlockData.format) (a := { data := _ }) (.head _) hdata
    _ ≤ _ := length_le_of_message (f := Block.format) (.tail _ (.head _))
        (a := .filled number slots) rfl

end Block

end LedgerBridge.Ledger
