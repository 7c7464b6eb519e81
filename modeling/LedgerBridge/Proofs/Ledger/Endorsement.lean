import LedgerBridge.Ledger.Commit
import LedgerBridge.Ledger.Envelope
import LedgerBridge.Proofs.Ledger.Message

/-!
# Envelopes read back

What endorsers and the ordering service write into an envelope is what the gateway reads out of it.

* `EvmCall.ofArgs?_eq_some_iff` says which arguments are a call;
* `decodePayload_envelopeOf` and `decodeChannelHeader_envelopeOf` read the outer layers of any
  envelope, `Endorsement.decodeEndorsed_transaction` walks down the layers of an endorsed one
  (`Endorsement.decodeTransaction_envelope`);
* `decode_envelope` puts them together: the header, the call, the answer and the events come back,
  and a part that was left out is reported.
-/

namespace LedgerBridge.Ledger

open Protobuf (Format)
open Protobuf.Format (Lawful length_le_of_bytes length_le_of_message length_le_of_manyMessages)

theorem decodePart_encode {α : Type} {f : Format α} (hf : f.Lawful Format.levels) {a : α}
    (h : (f.encode a).length < UInt64.size) (part : Part) :
    decodePart part f (f.encode a) = .ok a := by
  rw [decodePart, hf.decode_encode h]

/-- Two texts are a call unless they look up code, and no other arguments are. -/
theorem EvmCall.ofArgs?_eq_some_iff {args : List Bytes} {c : EvmCall} :
    EvmCall.ofArgs? args = some c ↔
      args = [Utf8.encode c.callee, Utf8.encode c.input] ∧ c.callee ≠ getCodeFunction := by
  constructor
  · intro h
    unfold EvmCall.ofArgs? at h
    split at h
    · next callee input =>
      split at h
      · cases h
      · next hne =>
        obtain ⟨s, hs, h⟩ := Option.bind_eq_some_iff.1 h
        obtain ⟨t, ht, h⟩ := Option.bind_eq_some_iff.1 h
        cases h
        rw [Utf8.decode?_eq_some_iff] at hs ht
        subst hs ht
        exact ⟨rfl, fun he => hne (congrArg Utf8.encode he)⟩
    · cases h
  · rintro ⟨rfl, hne⟩
    have henc : Utf8.encode c.callee ≠ Utf8.encode getCodeFunction := fun he =>
      hne (Utf8.encode_injective he)
    simp [EvmCall.ofArgs?, henc]

/-! ### The outer layers -/

/-- The channel header of a payload of some type. -/
def headerOf (type : Int32) (txId : String) : ChannelHeader :=
  { type := type, channelId := channelName, txId := txId }

/-- The payload of some type. -/
def payloadOf (type : Int32) (txId : String) (data : Bytes) : Payload where
  header := some { channelHeader := ChannelHeader.format.encode (headerOf type txId) }
  data := data

section Outer

variable {type : Int32} {txId : String} {data : Bytes}

theorem length_payload_le :
    (Payload.format.encode (payloadOf type txId data)).length ≤
      (envelopeOf type txId data).length :=
  length_le_of_bytes (f := Envelope.format) (.head _)
    { payload := Payload.format.encode (payloadOf type txId data) }

theorem length_data_le : data.length ≤ (envelopeOf type txId data).length :=
  le_trans (length_le_of_bytes (f := Payload.format) (.tail _ (.head _)) (payloadOf type txId data))
    length_payload_le

theorem length_channelHeader_le :
    (ChannelHeader.format.encode (headerOf type txId)).length ≤
      (envelopeOf type txId data).length :=
  calc
    _ ≤ _ := length_le_of_bytes (f := Header.format) (.head _)
        { channelHeader := ChannelHeader.format.encode (headerOf type txId) }
    _ ≤ _ := length_le_of_message (f := Payload.format) (.head _)
        (a := payloadOf type txId data) rfl
    _ ≤ _ := length_payload_le

theorem envelopeOf_ne_nil : envelopeOf type txId data ≠ [] := by
  intro h
  have hpayload := congrArg Envelope.payload (Envelope.lawful_format.eq_missing h)
  cases congrArg Payload.header (Payload.lawful_format.eq_missing hpayload)

variable (h : (envelopeOf type txId data).length < UInt64.size)
include h

theorem decodePayload_envelopeOf :
    decodePayload (envelopeOf type txId data) = .ok (payloadOf type txId data) := by
  have hp := decodePart_encode Payload.lawful_format
    (lt_of_le_of_lt length_payload_le h) .payload
  have he := decodePart_encode Envelope.lawful_format h .envelope
  rw [decodePayload]
  simp only [envelopeOf] at he ⊢
  rw [he, ok_bind]
  exact hp

theorem decodeChannelHeader_payloadOf :
    (payloadOf type txId data).decodeChannelHeader = .ok (headerOf type txId) :=
  decodePart_encode ChannelHeader.lawful_format
    (lt_of_le_of_lt length_channelHeader_le h) .channelHeader

theorem decodeChannelHeader_envelopeOf :
    decodeChannelHeader (envelopeOf type txId data) = .ok (headerOf type txId) := by
  rw [decodeChannelHeader, decodePayload_envelopeOf h, ok_bind, decodeChannelHeader_payloadOf h]

/-- Below the header, an envelope is an endorsed transaction or nothing to the gateway. -/
theorem decodeTransaction_envelopeOf :
    decodeTransaction (envelopeOf type txId data) =
      if type = endorserTransactionType then decodeEndorsed (headerOf type txId) data
      else .ok { channelHeader := headerOf type txId } := by
  rw [decodeTransaction, decodePayload_envelopeOf h, ok_bind, decodeChannelHeader_payloadOf h,
    ok_bind]
  rfl

end Outer

/-! ### The layers of an endorsed transaction -/

namespace Endorsement

variable (e : Endorsement)

/-- The action of the transaction. -/
def transactionAction : TransactionAction where
  payload := ChaincodeActionPayload.format.encode e.actionPayload

/-- The proposal. -/
def proposal : ChaincodeProposalPayload where
  input := ChaincodeInvocationSpec.format.encode e.invocation

/-- The endorsed outcome. -/
def endorsed : ChaincodeEndorsedAction where
  proposalResponsePayload := ProposalResponsePayload.format.encode e.outcome

theorem outcome_ne_nil : ProposalResponsePayload.format.encode e.outcome ≠ [] := by
  intro h
  have := ProposalResponsePayload.lawful_format.eq_missing h
  cases congrArg ProposalResponsePayload.proposalHash this

theorem action_ne_nil : ChaincodeAction.format.encode e.action ≠ [] := by
  intro h
  have := ChaincodeAction.lawful_format.eq_missing h
  cases congrArg ChaincodeAction.response this

theorem outcome_actionPayload :
    e.actionPayload.outcome = .ok (ProposalResponsePayload.format.encode e.outcome) := by
  simp only [ChaincodeActionPayload.outcome, actionPayload]
  rw [if_neg e.outcome_ne_nil]

section Lengths

theorem length_actionPayload_le (ha : e.hasActions) :
    (ChaincodeActionPayload.format.encode e.actionPayload).length ≤
      (Transaction.format.encode e.transaction).length := by
  have hmem : e.transactionAction ∈ e.transaction.actions := by
    simp [transaction, transactionAction, ha]
  calc
    _ ≤ _ := length_le_of_bytes (f := TransactionAction.format) (.tail _ (.head _))
        e.transactionAction
    _ ≤ _ := length_le_of_manyMessages (f := Transaction.format) (.head _) hmem

theorem length_outcome_le :
    (ProposalResponsePayload.format.encode e.outcome).length ≤
      (ChaincodeActionPayload.format.encode e.actionPayload).length :=
  calc
    _ ≤ _ := length_le_of_bytes (f := ChaincodeEndorsedAction.format) (.head _) e.endorsed
    _ ≤ _ := length_le_of_message (f := ChaincodeActionPayload.format) (.tail _ (.head _))
        (a := e.actionPayload) rfl

theorem length_proposal_le :
    (ChaincodeProposalPayload.format.encode e.proposal).length ≤
      (ChaincodeActionPayload.format.encode e.actionPayload).length :=
  length_le_of_bytes (f := ChaincodeActionPayload.format) (.head _) e.actionPayload

theorem length_invocation_le :
    (ChaincodeInvocationSpec.format.encode e.invocation).length ≤
      (ChaincodeProposalPayload.format.encode e.proposal).length :=
  length_le_of_bytes (f := ChaincodeProposalPayload.format) (.head _) e.proposal

theorem length_action_le (hx : e.hasExtension) :
    (ChaincodeAction.format.encode e.action).length ≤
      (ProposalResponsePayload.format.encode e.outcome).length := by
  have h := length_le_of_bytes (f := ProposalResponsePayload.format) (.tail _ (.head _)) e.outcome
  simpa only [outcome, hx, if_true] using h

theorem length_events_le (ha : e.hasActions) (hx : e.hasExtension) :
    e.events.length ≤ e.envelope.length :=
  calc
    _ ≤ _ := length_le_of_bytes (f := ChaincodeAction.format) (.tail _ (.head _)) e.action
    _ ≤ _ := e.length_action_le hx
    _ ≤ _ := e.length_outcome_le
    _ ≤ _ := e.length_actionPayload_le ha
    _ ≤ _ := length_data_le

end Lengths

/-- An endorsed transaction gives its call, its answer and its events, unless its action or the
extension of its outcome was left out. -/
theorem decodeEndorsed_transaction (header : ChannelHeader)
    (h : (Transaction.format.encode e.transaction).length < UInt64.size) :
    decodeEndorsed header (Transaction.format.encode e.transaction) =
      if ¬ e.hasActions then .error .noActions
      else if ¬ e.hasExtension then .error .missingExtension
      else .ok {
        channelHeader := header
        call := EvmCall.ofArgs? e.args
        response := e.response
        events := e.events } := by
  rw [decodeEndorsed, decodePart_encode Transaction.lawful_format h,
    ok_bind]
  by_cases ha : e.hasActions
  · -- each layer is shorter than the one around it, so all of them are short enough
    have h1 := lt_of_le_of_lt (e.length_actionPayload_le ha) h
    have h2 := lt_of_le_of_lt e.length_outcome_le h1
    have h3 := lt_of_le_of_lt e.length_proposal_le h1
    have h4 := lt_of_le_of_lt e.length_invocation_le h3
    have hactions : e.transaction.actions = [e.transactionAction] := by
      simp [transaction, transactionAction, ha]
    have hproposal : e.actionPayload.chaincodeProposalPayload =
        ChaincodeProposalPayload.format.encode e.proposal := rfl
    rw [hactions, if_neg (not_not.2 ha)]
    simp only [transactionAction]
    rw [decodePart_encode ChaincodeActionPayload.lawful_format h1, ok_bind,
      outcome_actionPayload, ok_bind, hproposal,
      decodePart_encode ChaincodeProposalPayload.lawful_format h3, ok_bind,
      decodePart_encode ProposalResponsePayload.lawful_format h2, ok_bind]
    by_cases hx : e.hasExtension
    · have h5 := lt_of_le_of_lt (e.length_action_le hx) h2
      have hextension : e.outcome.extension = ChaincodeAction.format.encode e.action := by
        simp [outcome, hx]
      have hinput : e.proposal.input = ChaincodeInvocationSpec.format.encode e.invocation := rfl
      rw [hextension, if_neg e.action_ne_nil, if_neg (not_not.2 hx), hinput,
        decodePart_encode ChaincodeAction.lawful_format h5]
      simp only [pure_eq_ok, ok_bind]
      rw [decodePart_encode ChaincodeInvocationSpec.lawful_format h4]
      rfl
    · have hextension : e.outcome.extension = [] := by simp [outcome, hx]
      rw [if_pos hextension, if_pos hx]
      rfl
  · have hactions : e.transaction.actions = [] := by simp [transaction, ha]
    rw [hactions, if_pos ha]
    rfl

theorem decodeTransaction_envelope (ha : e.hasActions) (hx : e.hasExtension)
    (h : e.envelope.length < UInt64.size) :
    decodeTransaction e.envelope = .ok {
      channelHeader := headerOf endorserTransactionType e.txId
      call := EvmCall.ofArgs? e.args
      response := e.response
      events := e.events } := by
  rw [envelope, decodeTransaction_envelopeOf h, if_pos rfl,
    e.decodeEndorsed_transaction _ (lt_of_le_of_lt length_data_le h), if_neg (not_not.2 ha),
    if_neg (not_not.2 hx)]

end Endorsement

/-! ### Whole envelopes -/

/-- **What was put into an envelope is read out of it.** The header of the channel comes back in all
cases. An endorsed transaction has a call exactly when its arguments are two texts of which the
first is not the code look-up; without its extension or without its action it is refused. The
envelope of a configuration holds nothing but its header. -/
theorem decode_envelope :
    (∀ e : Endorsement, e.envelope.length < UInt64.size →
      decodeChannelHeader e.envelope =
        .ok { type := 3, channelId := "mychannel", txId := e.txId } ∧
      (e.hasActions → e.hasExtension → ∃ call,
        decodeTransaction e.envelope = .ok {
          channelHeader := { type := 3, channelId := "mychannel", txId := e.txId }
          call := call
          response := e.response
          events := e.events } ∧
        ∀ c : EvmCall, call = some c ↔
          e.args = [Utf8.encode c.callee, Utf8.encode c.input] ∧ c.callee ≠ "getCode") ∧
      (e.hasActions → ¬ e.hasExtension → decodeTransaction e.envelope = .error .missingExtension) ∧
      (¬ e.hasActions → decodeTransaction e.envelope = .error .noActions)) ∧
    ∀ txId : String, (configEnvelope txId).length < UInt64.size →
      decodeChannelHeader (configEnvelope txId) =
        .ok { type := 1, channelId := "mychannel", txId := txId } ∧
      decodeTransaction (configEnvelope txId) = .ok {
        channelHeader := { type := 1, channelId := "mychannel", txId := txId }
        call := none
        response := []
        events := [] } := by
  refine ⟨fun e h => ?_, fun txId h => ?_⟩
  · have hrun : decodeTransaction e.envelope =
        decodeEndorsed (headerOf endorserTransactionType e.txId)
          (Transaction.format.encode e.transaction) := by
      rw [Endorsement.envelope, decodeTransaction_envelopeOf h, if_pos rfl]
    rw [hrun, e.decodeEndorsed_transaction _ (lt_of_le_of_lt length_data_le h)]
    refine ⟨decodeChannelHeader_envelopeOf h, fun ha hx => ?_, fun ha hx => ?_, fun ha => ?_⟩
    · refine ⟨EvmCall.ofArgs? e.args, ?_, fun c => EvmCall.ofArgs?_eq_some_iff⟩
      rw [if_neg (not_not.2 ha), if_neg (not_not.2 hx)]
      rfl
    · rw [if_neg (not_not.2 ha), if_pos hx]
    · rw [if_pos ha]
  · refine ⟨decodeChannelHeader_envelopeOf h, ?_⟩
    rw [configEnvelope, decodeTransaction_envelopeOf h, if_neg (by decide)]
    rfl

theorem decode_envelope_small :
    (∃ call, decodeTransaction (⟨"tx-1", [Utf8.encode "00ab", []], [1], [2], true, true⟩ :
        Endorsement).envelope = .ok {
          channelHeader := { type := 3, channelId := "mychannel", txId := "tx-1" }
          call := call
          response := [1]
          events := [2] } ∧
        call = some ⟨"00ab", ""⟩) ∧
    decodeTransaction (⟨"tx-2", [], [], [], true, false⟩ : Endorsement).envelope =
      .error .missingExtension ∧
    decodeTransaction (⟨"tx-3", [], [], [], false, false⟩ : Endorsement).envelope =
      .error .noActions ∧
    decodeChannelHeader (configEnvelope "genesis") =
      .ok { type := 1, channelId := "mychannel", txId := "genesis" } := by
  obtain ⟨hendorsed, hconfig⟩ := decode_envelope
  have h1 := (hendorsed ⟨"tx-1", [Utf8.encode "00ab", []], [1], [2], true, true⟩
    (by decide +kernel)).2.1 rfl rfl
  have h2 := (hendorsed ⟨"tx-2", [], [], [], true, false⟩ (by decide +kernel)).2.2.1 rfl (by decide)
  have h3 := (hendorsed ⟨"tx-3", [], [], [], false, false⟩ (by decide +kernel)).2.2.2 (by decide)
  obtain ⟨call, hdec, hcall⟩ := h1
  exact ⟨⟨call, hdec, (hcall ⟨"00ab", ""⟩).2 ⟨rfl, by decide⟩⟩, h2, h3,
    (hconfig "genesis" (by decide +kernel)).1⟩

end LedgerBridge.Ledger
