import LedgerBridge.Ledger.Block
import LedgerBridge.Ledger.Event
import LedgerBridge.Proofs.Ledger.MessageType
import LedgerBridge.Proofs.Protobuf.Invariant

/-!
# How much a slot can hold

Every event of a transaction takes up at least one byte of its slot, through all the messages that
lie inside each other there.

* `length_events_le`: the serialized events of a transaction are no longer than the slot;
* `Json.length_le_of_parse?`, `length_le_of_decodeEvents`: a list has no more items than its text
  has bytes;
* `Block.Addressable`: the slots of a block and the bytes of each slot can be counted in 64 bits.
  Then so can the events of every transaction (`Block.Addressable.length_le`).
-/

namespace LedgerBridge

open Protobuf (Format Field Kind)

/-! ### Texts of lists -/

namespace Json

theorem length_skipSpace_le (s : Bytes) : (skipSpace s).length ≤ s.length :=
  (List.dropWhile_suffix _).length_le

/-- By induction on the fuel, of which every item takes a unit. -/
theorem length_le_of_readItems {α : Type} {close : UInt8} {item : Bytes → Option (α × Bytes)}
    {fuel : Nat} {before items : List α} {s r : Bytes}
    (h : readItems close item fuel before s = some (items, r)) :
    items.length ≤ before.length + fuel := by
  induction fuel generalizing before s with
  | zero => cases h
  | succ fuel ih =>
    obtain ⟨⟨a, r'⟩, -, h⟩ := Option.bind_eq_some_iff.1 h
    simp only at h
    split at h
    · cases h
    · split at h
      · cases h
        rw [List.length_reverse, List.length_cons]
        omega
      · split at h
        · have hle := ih h
          rw [List.length_cons] at hle
          omega
        · cases h

theorem length_le_of_readSeries {α : Type} {close : UInt8} {item : Bytes → Option (α × Bytes)}
    {items : List α} {s r : Bytes} (h : readSeries close item s = some (items, r)) :
    items.length ≤ s.length := by
  have hspace := length_skipSpace_le s
  unfold readSeries at h
  split at h
  · cases h
  · next b tail hs =>
    rw [hs, List.length_cons] at hspace
    split at h
    · cases h
      exact Nat.zero_le _
    · have hle := length_le_of_readItems h
      rw [List.length_nil] at hle
      omega

/-- Only an opening mark starts a list. -/
theorem length_le_of_readValue {fuel : Nat} {items : List Json} {s r : Bytes}
    (h : readValue fuel s = some (.array items, r)) : items.length ≤ s.length := by
  cases fuel with
  | zero => cases h
  | succ fuel =>
    have hspace := length_skipSpace_le s
    rw [readValue] at h
    split at h
    · cases h
    · next b tail hs =>
      rw [hs, List.length_cons] at hspace
      split_ifs at h <;> obtain ⟨⟨x, r'⟩, hx, h⟩ := Option.bind_eq_some_iff.1 h <;> cases h
      have hle := length_le_of_readSeries hx
      omega

/-- **A list has no more items than its text has bytes.** -/
theorem length_le_of_parse? {items : List Json} {s : Bytes} (h : parse? s = some (.array items)) :
    items.length ≤ s.length := by
  obtain ⟨⟨j, r⟩, hj, h⟩ := Option.bind_eq_some_iff.1 h
  simp only at h
  split at h
  · cases h
    exact length_le_of_readValue hj
  · cases h

end Json

namespace Ledger

/-! ### Messages inside each other -/

section Messages

variable {raw : Bytes}

theorem Envelope.length_payload_le {e : Envelope} (h : Envelope.format.decode raw = .ok e) :
    e.payload.length ≤ raw.length :=
  Format.keeps_decode (Q := fun e : Envelope => e.payload.length ≤ raw.length) h
    ⟨Field.keeps_of_kind Kind.keeps_bytes, Field.keeps_of_apart fun _ _ => id⟩
    (Nat.zero_le _) le_rfl

theorem Payload.length_data_le {p : Payload} (h : Payload.format.decode raw = .ok p) :
    p.data.length ≤ raw.length :=
  Format.keeps_decode (Q := fun p : Payload => p.data.length ≤ raw.length) h
    ⟨Field.keeps_of_apart fun _ _ => id, Field.keeps_of_kind Kind.keeps_bytes⟩
    (Nat.zero_le _) le_rfl

theorem Transaction.length_payload_le {t : Transaction} {action : TransactionAction}
    (h : Transaction.format.decode raw = .ok t) (ha : action ∈ t.actions) :
    action.payload.length ≤ raw.length := by
  have hf : TransactionAction.format.Keeps raw.length fun a => a.payload.length ≤ raw.length :=
    ⟨Field.keeps_of_apart fun _ _ => id, Field.keeps_of_kind Kind.keeps_bytes⟩
  exact Format.keeps_decode h
    (Field.keeps_of_kind (Kind.keeps_manyMessages hf (Nat.zero_le _)))
    (List.forall_mem_nil _) le_rfl action ha

theorem ChaincodeActionPayload.length_outcome_le {p : ChaincodeActionPayload} {outcome : Bytes}
    (h : ChaincodeActionPayload.format.decode raw = .ok p) (ho : p.outcome = .ok outcome) :
    outcome.length ≤ raw.length := by
  have hf : ChaincodeEndorsedAction.format.Keeps raw.length fun a =>
      a.proposalResponsePayload.length ≤ raw.length :=
    Field.keeps_of_kind Kind.keeps_bytes
  have haction : ∀ endorsed ∈ p.action, endorsed.proposalResponsePayload.length ≤ raw.length :=
    Format.keeps_decode h
      ⟨Field.keeps_of_apart fun _ _ => id,
        Field.keeps_of_kind (Kind.keeps_message hf (Nat.zero_le _))⟩
      (by simp [ChaincodeActionPayload.format]) le_rfl
  unfold ChaincodeActionPayload.outcome at ho
  split at ho
  · next endorsed hendorsed =>
    split at ho
    · cases ho
    · cases ho
      exact haction endorsed hendorsed
  · cases ho

theorem ProposalResponsePayload.length_extension_le {p : ProposalResponsePayload}
    (h : ProposalResponsePayload.format.decode raw = .ok p) : p.extension.length ≤ raw.length :=
  Format.keeps_decode (Q := fun p : ProposalResponsePayload => p.extension.length ≤ raw.length) h
    ⟨Field.keeps_of_apart fun _ _ => id, Field.keeps_of_kind Kind.keeps_bytes⟩
    (Nat.zero_le _) le_rfl

theorem ChaincodeAction.length_events_le {a : ChaincodeAction}
    (h : ChaincodeAction.format.decode raw = .ok a) : a.events.length ≤ raw.length :=
  Format.keeps_decode (Q := fun a : ChaincodeAction => a.events.length ≤ raw.length) h
    ⟨Field.keeps_of_apart fun _ _ => id, Field.keeps_of_kind Kind.keeps_bytes,
      Field.keeps_of_apart fun _ _ => id⟩
    (Nat.zero_le _) le_rfl

theorem ChaincodeEvent.length_payload_le {e : ChaincodeEvent}
    (h : ChaincodeEvent.format.decode raw = .ok e) : e.payload.length ≤ raw.length :=
  Format.keeps_decode (Q := fun e : ChaincodeEvent => e.payload.length ≤ raw.length) h
    ⟨Field.keeps_of_apart fun _ _ => id, Field.keeps_of_apart fun _ _ => id,
      Field.keeps_of_apart fun _ _ => id, Field.keeps_of_kind Kind.keeps_bytes⟩
    (Nat.zero_le _) le_rfl

end Messages

theorem decodePart_eq_ok {α : Type} {part : Part} {format : Format α} {raw : Bytes} {a : α} :
    decodePart part format raw = .ok a ↔ format.decode raw = .ok a := by
  unfold decodePart
  cases format.decode raw <;> simp

/-! ### Events of a slot -/

section Events

variable {raw : Bytes} {t : Decoded} {events : List EventRecord}

theorem length_events_le_of_decodeEndorsed {header : ChannelHeader}
    (h : decodeEndorsed header raw = .ok t) : t.events.length ≤ raw.length := by
  obtain ⟨transaction, htransaction, h⟩ := bind_eq_ok.1 h
  split at h
  · next action _ hactions =>
    obtain ⟨payload, hpayload, h⟩ := bind_eq_ok.1 h
    obtain ⟨outcome, houtcome, h⟩ := bind_eq_ok.1 h
    obtain ⟨proposal, -, h⟩ := bind_eq_ok.1 h
    obtain ⟨response, hresponse, h⟩ := bind_eq_ok.1 h
    split at h
    · cases h
    · obtain ⟨done, hdone, h⟩ := bind_eq_ok.1 h
      obtain ⟨invocation, -, h⟩ := bind_eq_ok.1 h
      cases h
      -- each layer is no longer than the one around it
      calc done.events.length
        _ ≤ response.extension.length :=
          ChaincodeAction.length_events_le (decodePart_eq_ok.1 hdone)
        _ ≤ outcome.length :=
          ProposalResponsePayload.length_extension_le (decodePart_eq_ok.1 hresponse)
        _ ≤ action.payload.length :=
          ChaincodeActionPayload.length_outcome_le (decodePart_eq_ok.1 hpayload) houtcome
        _ ≤ raw.length :=
          Transaction.length_payload_le (decodePart_eq_ok.1 htransaction) (by simp [hactions])
  · cases h

theorem length_events_le (h : decodeTransaction raw = .ok t) : t.events.length ≤ raw.length := by
  obtain ⟨payload, hpayload, h⟩ := bind_eq_ok.1 h
  obtain ⟨envelope, henvelope, hpayload⟩ := bind_eq_ok.1 hpayload
  obtain ⟨header, -, h⟩ := bind_eq_ok.1 h
  split at h
  · calc t.events.length
      _ ≤ payload.data.length := length_events_le_of_decodeEndorsed h
      _ ≤ envelope.payload.length := Payload.length_data_le (decodePart_eq_ok.1 hpayload)
      _ ≤ raw.length := Envelope.length_payload_le (decodePart_eq_ok.1 henvelope)
  · cases h
    exact Nat.zero_le _

theorem length_le_of_eventsOfPayload? {payload : Bytes}
    (h : eventsOfPayload? payload = some events) : events.length ≤ payload.length := by
  obtain ⟨j, hj, h⟩ := Option.bind_eq_some_iff.1 h
  cases j with
  | array items =>
    rw [← (mapM_eq_some_iff.1 h).length_eq]
    exact Json.length_le_of_parse? hj
  | _ => cases h

theorem length_le_of_decodeEvents (h : decodeEvents raw = .ok events) :
    events.length ≤ raw.length := by
  unfold decodeEvents at h
  split at h
  · cases h
    exact Nat.zero_le _
  · split at h
    · cases h
    · next event hevent =>
      refine le_trans ?_ (ChaincodeEvent.length_payload_le hevent)
      split at h
      · cases h
        exact Nat.zero_le _
      · split at h
        · next hpayload =>
          cases h
          exact length_le_of_eventsOfPayload? hpayload
        · cases h

end Events

/-- The positions of the slots, and those of the bytes of each slot, are numbers of 64 bits. -/
structure Block.Addressable (b : Block) : Prop where
  length_slots_le : b.slots.length ≤ UInt64.size
  length_slot_le : ∀ raw ∈ b.slots, raw.length ≤ UInt64.size

/-- **So are the positions of the events of a slot.** -/
theorem Block.Addressable.length_le {b : Block} (hb : b.Addressable) {raw : Bytes}
    (hraw : raw ∈ b.slots) {t : Decoded} {events : List EventRecord}
    (ht : decodeTransaction raw = .ok t) (hevents : decodeEvents t.events = .ok events) :
    events.length ≤ UInt64.size := calc
  _ ≤ t.events.length := length_le_of_decodeEvents hevents
  _ ≤ raw.length := length_events_le ht
  _ ≤ UInt64.size := hb.length_slot_le raw hraw

end Ledger

end LedgerBridge
