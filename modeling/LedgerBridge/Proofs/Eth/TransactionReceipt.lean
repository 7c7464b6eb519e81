import LedgerBridge.Proofs.Eth.Receipt

/-!
# Transactions and their receipts

A transaction and its receipt are made from the same slot, but what they say of the callee is
written twice, under conditions of their own. They tell the same story (`sameStory_of_getReceipt`),
with one exception: a call whose callee is the empty text has no recipient as a transaction, while
its receipt puts the mark in front of nothing (`recipient_differs`).

* `exists_of_getTransaction`: what a transaction that is shown is made of;
* `PartiesOf` says what a receipt names as callee and deployed contract;
* `SameStory` compares the replies, given the transaction that the ledger holds.
-/

namespace LedgerBridge.Eth

open Ledger (Answers Decoded EvmCall)

/-! ### What the replies are made of -/

section Lookup

variable {L : Answers} {hash : String}

theorem exists_of_getTransaction {tx : Transaction}
    (h : (getTransaction hash).outcome L = .ok tx) :
    ∃ b i t summary, L (.blockOf (Hex.bare hash)) = .ok b ∧
      b.findTransaction (Hex.bare hash) = .ok (some (i, t)) ∧
      BlockSummary.ofBlock b = .ok summary ∧
      tx = (Place.ofSlot summary (Hex.bare hash) i).transaction t := by
  unfold getTransaction at h
  simp only at h
  split at h
  · cases h
  · rw [Service.outcome_bind] at h
    obtain ⟨found, hfound, h⟩ := bind_eq_ok.1 h
    obtain ⟨b, i, t, hb, ht, rfl⟩ := exists_of_outcome_findTransaction hfound
    simp only [Service.outcome_bind, Service.outcome_check] at h
    obtain ⟨summary, hsummary, h⟩ := bind_eq_ok.1 h
    cases h
    exact ⟨b, i, t, summary, hb, ht, hsummary, rfl⟩

end Lookup

/-! ### Callee and deployed contract -/

theorem isCreation_iff {c : EvmCall} :
    c.isCreation ↔ FixedHex.parse 20 c.callee = .ok (.zero 20) := by
  rw [EvmCall.isCreation, FixedHex.denotedBy_eq, beq_iff_eq, toOption_eq_some]

/-- No text without digits denotes the zero address. -/
theorem not_isCreation_of_empty {c : EvmCall} (h : c.callee = "") : ¬ c.isCreation := by
  rw [isCreation_iff, h]
  intro hparse
  exact FixedHex.ne_of_parse hparse (FixedHex.toOption_parse_empty (by decide)) rfl

/-- What a receipt names as the callee and the deployed contract of a transaction. -/
inductive PartiesOf (t : Decoded) : Option String → Option String → Prop
  | foreign (h : t.call = none) : PartiesOf t none none
  | deployment {c : EvmCall} {deployed : String} (h : t.call = some c) (hc : c.isCreation) :
      PartiesOf t none (some deployed)
  | call {c : EvmCall} (h : t.call = some c) (hc : ¬ c.isCreation) :
      PartiesOf t (some (Hex.marked c.callee)) none

theorem partiesOf_of_eq_ok {t : Decoded} {recipient contract : Option String}
    (h : parties t = .ok (recipient, contract)) : PartiesOf t recipient contract := by
  unfold parties at h
  cases hcall : t.call with
  | none =>
    rw [hcall] at h
    cases h
    exact .foreign hcall
  | some c =>
    simp only [hcall] at h
    by_cases hc : c.isCreation
    · rw [if_pos hc] at h
      split at h
      · cases h
        exact .deployment hcall hc
      · cases h
    · rw [if_neg hc] at h
      cases h
      exact .call hcall hc

theorem parties_of_receiptOf {txId : String} {b : Ledger.Block} {i : Nat} {t : Decoded}
    {r : Receipt}
    (h : receiptOf txId b i t = .ok r) : parties t = .ok (r.recipient, r.contractAddress) := by
  obtain ⟨summary, -, h⟩ := bind_eq_ok.1 h
  obtain ⟨valid, -, h⟩ := bind_eq_ok.1 h
  obtain ⟨⟨recipient, contract⟩, hparties, h⟩ := bind_eq_ok.1 h
  obtain ⟨events, -, h⟩ := bind_eq_ok.1 h
  cases h
  exact hparties

/-! ### The same story -/

/-- A transaction and a receipt say the same of what the ledger holds. They name the same recipient
unless the callee of a call is the empty text. -/
structure SameStory (t : Decoded) (tx : Transaction) (r : Receipt) : Prop where
  hash : r.transactionHash = tx.hash
  index : r.transactionIndex = tx.transactionIndex
  blockHash : r.blockHash = tx.blockHash
  blockNumber : r.blockNumber = tx.blockNumber
  recipient : r.recipient = tx.recipient ↔ ∀ c, t.call = some c → c.callee ≠ ""
  contractAddress :
    r.contractAddress.isSome ↔ ∃ c, t.call = some c ∧ FixedHex.parse 20 c.callee = .ok (.zero 20)
  recipient_of_deployment (h : r.contractAddress.isSome) :
    r.recipient = none ∧ tx.recipient = none
  input_of_foreign (h : t.call = none) : tx.input = none

section Parties

variable {t : Decoded} {recipient contract : Option String} (h : PartiesOf t recipient contract)
include h

theorem recipient_eq_iff :
    recipient = t.call.bind Place.calleeOf ↔ ∀ c, t.call = some c → c.callee ≠ "" := by
  cases h with
  | foreign hcall => simp [hcall]
  | @deployment c _ hcall hc =>
    have hempty : c.callee ≠ "" := fun he => not_isCreation_of_empty he hc
    simp [hcall, Place.calleeOf, hc, hempty]
  | @call c hcall hc => by_cases hempty : c.callee = "" <;> simp [hcall, Place.calleeOf, hc, hempty]

theorem contract_isSome_iff :
    contract.isSome ↔ ∃ c, t.call = some c ∧ FixedHex.parse 20 c.callee = .ok (.zero 20) := by
  simp only [← isCreation_iff]
  cases h with
  | foreign hcall => simp [hcall]
  | deployment hcall hc => simp [hcall, hc]
  | call hcall hc => simp [hcall, hc]

theorem recipient_of_contract (hsome : contract.isSome) :
    recipient = none ∧ t.call.bind Place.calleeOf = none := by
  cases h with
  | foreign hcall => cases hsome
  | deployment hcall hc => simp [hcall, Place.calleeOf, hc]
  | call hcall hc => cases hsome

end Parties

/-- **A transaction and its receipt tell the same story.** Where a hash has both, they are made from
one transaction that the ledger holds, and agree on its hash and its place. They agree on the
recipient too, unless the transaction is a call of the empty text. The receipt names a contract
exactly for a call of the zero address, and then there is no recipient; and there is no input
without a call. -/
theorem sameStory_of_getReceipt {L : Answers} {hash : String} {tx : Transaction} {r : Receipt}
    (htx : (getTransaction hash).outcome L = .ok tx) (hr : (getReceipt hash).outcome L = .ok r) :
    ∃ b i t, L (.blockOf (Hex.bare hash)) = .ok b ∧
      b.findTransaction (Hex.bare hash) = .ok (some (i, t)) ∧ SameStory t tx r := by
  obtain ⟨b, i, t, summary, hb, hfound, hsummary, rfl⟩ := exists_of_getTransaction htx
  obtain ⟨b', i', t', hb', hfound', hreceipt⟩ := exists_of_getReceipt hr
  obtain rfl : b = b' := Except.ok.inj (hb.symm.trans hb')
  obtain ⟨rfl, rfl⟩ : i = i' ∧ t = t' := by simpa using hfound.symm.trans hfound'
  have hparties := partiesOf_of_eq_ok (parties_of_receiptOf hreceipt)
  obtain ⟨summary', valid, events, hsummary', -, -, hhash, hindex, hblockHash, hblockNumber,
    -, -⟩ :=
    receiptOf_eq_ok hreceipt
  obtain rfl : summary = summary' := Except.ok.inj (hsummary.symm.trans hsummary')
  refine ⟨b, i, t, hb, hfound, ?_⟩
  constructor
  case hash => exact hhash
  case index => exact hindex
  case blockHash => exact hblockHash
  case blockNumber => exact hblockNumber
  case recipient => exact recipient_eq_iff hparties
  case contractAddress => exact contract_isSome_iff hparties
  case recipient_of_deployment => exact recipient_of_contract hparties
  case input_of_foreign =>
    intro hcall
    show t.call.bind Place.inputOf = none
    rw [hcall, Option.bind_none]

theorem sameStory_of_getReceipt_callChain : ∃ tx r,
    (getTransaction "0xd1").outcome (Ledger.answersOf Ledger.callChain) = .ok tx ∧
    (getReceipt "0xd1").outcome (Ledger.answersOf Ledger.callChain) = .ok r ∧
    r.transactionIndex = tx.transactionIndex ∧ r.contractAddress.isSome ∧ r.recipient = none := by
  have htx : ((getTransaction "0xd1").outcome (Ledger.answersOf Ledger.callChain)).isOk := by
    decide +kernel
  have hr : (fun r : Receipt => r.contractAddress) <$>
      (getReceipt "0xd1").outcome (Ledger.answersOf Ledger.callChain) = .ok (some "0x") := by
    decide +kernel
  obtain ⟨tx, htx⟩ := exists_of_isOk htx
  obtain ⟨r, hr, hcontract⟩ := map_eq_ok.1 hr
  obtain ⟨b, i, t, -, -, hstory⟩ := sameStory_of_getReceipt htx hr
  have hsome : r.contractAddress.isSome := by rw [hcontract]; rfl
  exact ⟨tx, r, htx, hr, hstory.index, hsome, (hstory.recipient_of_deployment hsome).1⟩

/-- A chain with one transaction, a call of the empty text. -/
def unaddressedChain : List (List (Ledger.Content × UInt8)) :=
  [[(.endorsed "a1" [[], Utf8.encode "6060"] [] [], 0)]]

/-- Of a call of the empty text, the transaction has no recipient and the receipt has one. -/
theorem recipient_differs : ∃ tx r,
    (getTransaction "0xa1").outcome (Ledger.answersOf unaddressedChain) = .ok tx ∧
    (getReceipt "0xa1").outcome (Ledger.answersOf unaddressedChain) = .ok r ∧
    tx.recipient = none ∧ r.recipient = some "0x" := by
  have htx : (fun tx : Transaction => tx.recipient) <$>
      (getTransaction "0xa1").outcome (Ledger.answersOf unaddressedChain) = .ok none := by
    decide +kernel
  have hr : (fun r : Receipt => r.recipient) <$>
      (getReceipt "0xa1").outcome (Ledger.answersOf unaddressedChain) = .ok (some "0x") := by
    decide +kernel
  obtain ⟨tx, htx, hnone⟩ := map_eq_ok.1 htx
  obtain ⟨r, hr, hsome⟩ := map_eq_ok.1 hr
  exact ⟨tx, r, htx, hr, hnone, hsome⟩

end LedgerBridge.Eth
