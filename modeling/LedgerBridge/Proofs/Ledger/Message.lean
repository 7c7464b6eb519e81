import LedgerBridge.Ledger.Message
import LedgerBridge.Proofs.Protobuf.RoundTrip

/-!
# The formats of the ledger are lawful

Every message of the ledger has distinct field numbers and is restored from its fields, so that it
is decoded from its encoding (`Format.Lawful.decode_encode`). A message holds at most three others
inside each other.
-/

namespace LedgerBridge.Ledger

open Protobuf
open Protobuf.Format (Lawful Restores)
open Protobuf.Kind (roundTrips_uint64 roundTrips_int32 roundTrips_bytes roundTrips_text
  roundTrips_manyBytes roundTrips_message roundTrips_manyMessages)

instance BlockHeader.lawful_format {levels : Nat} : format.Lawful levels where
  distinct := by decide
  restores _ :=
    .cons roundTrips_uint64 (.cons roundTrips_bytes (.cons roundTrips_bytes (.nil _)))

instance BlockData.lawful_format {levels : Nat} : format.Lawful levels where
  distinct := by decide
  restores _ := .cons roundTrips_manyBytes (.nil _)

instance BlockMetadata.lawful_format {levels : Nat} : format.Lawful levels where
  distinct := by decide
  restores _ := .cons roundTrips_manyBytes (.nil _)

instance Block.lawful_format {levels : Nat} : format.Lawful (levels + 1) where
  distinct := by decide
  restores _ :=
    .cons (roundTrips_message BlockHeader.lawful_format.roundTrips)
      (.cons (roundTrips_message BlockData.lawful_format.roundTrips)
        (.cons (roundTrips_message BlockMetadata.lawful_format.roundTrips) (.nil _)))

instance Envelope.lawful_format {levels : Nat} : format.Lawful levels where
  distinct := by decide
  restores _ := .cons roundTrips_bytes (.cons roundTrips_bytes (.nil _))

instance Header.lawful_format {levels : Nat} : format.Lawful levels where
  distinct := by decide
  restores _ := .cons roundTrips_bytes (.cons roundTrips_bytes (.nil _))

instance Payload.lawful_format {levels : Nat} : format.Lawful (levels + 1) where
  distinct := by decide
  restores _ :=
    .cons (roundTrips_message Header.lawful_format.roundTrips) (.cons roundTrips_bytes (.nil _))

instance ChannelHeader.lawful_format {levels : Nat} : format.Lawful levels where
  distinct := by decide
  restores _ :=
    .cons roundTrips_int32 (.cons roundTrips_int32 (.cons roundTrips_text
      (.cons roundTrips_text (.cons roundTrips_uint64 (.nil _)))))

instance TransactionAction.lawful_format {levels : Nat} : format.Lawful levels where
  distinct := by decide
  restores _ := .cons roundTrips_bytes (.cons roundTrips_bytes (.nil _))

instance Transaction.lawful_format {levels : Nat} : format.Lawful (levels + 1) where
  distinct := by decide
  restores _ :=
    .cons (roundTrips_manyMessages TransactionAction.lawful_format.roundTrips) (.nil _)

instance ChaincodeEndorsedAction.lawful_format {levels : Nat} : format.Lawful levels where
  distinct := by decide
  restores _ := .cons roundTrips_bytes (.nil _)

instance ChaincodeActionPayload.lawful_format {levels : Nat} : format.Lawful (levels + 1) where
  distinct := by decide
  restores _ :=
    .cons roundTrips_bytes
      (.cons (roundTrips_message ChaincodeEndorsedAction.lawful_format.roundTrips) (.nil _))

instance ProposalResponsePayload.lawful_format {levels : Nat} : format.Lawful levels where
  distinct := by decide
  restores _ := .cons roundTrips_bytes (.cons roundTrips_bytes (.nil _))

instance Response.lawful_format {levels : Nat} : format.Lawful levels where
  distinct := by decide
  restores _ :=
    .cons roundTrips_int32 (.cons roundTrips_text (.cons roundTrips_bytes (.nil _)))

instance ChaincodeAction.lawful_format {levels : Nat} : format.Lawful (levels + 1) where
  distinct := by decide
  restores _ :=
    .cons roundTrips_bytes (.cons roundTrips_bytes
      (.cons (roundTrips_message Response.lawful_format.roundTrips) (.nil _)))

instance ChaincodeProposalPayload.lawful_format {levels : Nat} : format.Lawful levels where
  distinct := by decide
  restores _ := .cons roundTrips_bytes (.nil _)

instance ChaincodeId.lawful_format {levels : Nat} : format.Lawful levels where
  distinct := by decide
  restores _ :=
    .cons roundTrips_text (.cons roundTrips_text (.cons roundTrips_text (.nil _)))

instance ChaincodeInput.lawful_format {levels : Nat} : format.Lawful levels where
  distinct := by decide
  restores _ := .cons roundTrips_manyBytes (.nil _)

instance ChaincodeSpec.lawful_format {levels : Nat} : format.Lawful (levels + 1) where
  distinct := by decide
  restores _ :=
    .cons roundTrips_int32
      (.cons (roundTrips_message ChaincodeId.lawful_format.roundTrips)
        (.cons (roundTrips_message ChaincodeInput.lawful_format.roundTrips) (.nil _)))

instance ChaincodeInvocationSpec.lawful_format {levels : Nat} : format.Lawful (levels + 2) where
  distinct := by decide
  restores _ :=
    .cons (roundTrips_message ChaincodeSpec.lawful_format.roundTrips) (.nil _)

instance ChaincodeEvent.lawful_format {levels : Nat} : format.Lawful levels where
  distinct := by decide
  restores _ :=
    .cons roundTrips_text (.cons roundTrips_text (.cons roundTrips_text
      (.cons roundTrips_bytes (.nil _))))

end LedgerBridge.Ledger
