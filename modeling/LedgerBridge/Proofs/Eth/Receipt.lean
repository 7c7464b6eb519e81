import LedgerBridge.Proofs.Eth.LogFilter
import LedgerBridge.Proofs.Eth.Lookup
import LedgerBridge.Proofs.Eth.Place
import LedgerBridge.Proofs.Ledger.Chain

/-!
# Receipts and scans

The receipt of a transaction and a scan of its block come to its logs on different ways: the scan
walks over the slots, the receipt looks for the id. Where both succeed they show the same records
(`receipt_of_getLogs`).
-/

namespace LedgerBridge.Eth

open Ledger (Answers validCode)
open Service (check)

/-- What a receipt is made of. -/
theorem receiptOf_eq_ok {txId : String} {b : Ledger.Block} {i : Nat} {t : Ledger.Decoded}
    {r : Receipt} (h : receiptOf txId b i t = .ok r) :
    ∃ summary valid events, BlockSummary.ofBlock b = .ok summary ∧ b.isValid i = .ok valid ∧
      Ledger.decodeEvents t.events = .ok events ∧
      r.transactionHash = Hex.marked txId ∧
      r.transactionIndex = Quantity.text (UInt64.ofNat i) ∧
      r.blockHash = summary.hash ∧ r.blockNumber = summary.number ∧
      r.status = (if valid then "0x1" else "0x0") ∧
      r.logs = events.zipIdx.map fun p => (Place.ofSlot summary txId i).log p.1 p.2 := by
  obtain ⟨summary, hsummary, h⟩ := bind_eq_ok.1 h
  obtain ⟨valid, hvalid, h⟩ := bind_eq_ok.1 h
  obtain ⟨parties, -, h⟩ := bind_eq_ok.1 h
  obtain ⟨events, hevents, h⟩ := bind_eq_ok.1 h
  cases h
  refine ⟨summary, valid, events, hsummary, ?_, ?_, rfl, rfl, rfl, rfl, rfl, rfl⟩
  · exact mapError_eq_ok.1 hvalid
  · exact mapError_eq_ok.1 hevents

/-- A receipt is that of the slot found under the id in the block that the ledger gives for it. -/
theorem exists_of_getReceipt {L : Answers} {hash : String} {r : Receipt}
    (h : (getReceipt hash).outcome L = .ok r) :
    ∃ b i t, L (.blockOf (Hex.bare hash)) = .ok b ∧
      b.findTransaction (Hex.bare hash) = .ok (some (i, t)) ∧
      receiptOf (Hex.bare hash) b i t = .ok r := by
  unfold getReceipt at h
  simp only [Service.outcome_bind] at h
  obtain ⟨found, hfound, h⟩ := bind_eq_ok.1 h
  obtain ⟨b, i, t, hb, ht, rfl⟩ := exists_of_outcome_findTransaction hfound
  exact ⟨b, i, t, hb, ht, h⟩

theorem outcome_getReceipt_eq_ok {L : Answers} {txId : String} {b : Ledger.Block} {r : Receipt}
    (htx : txId ≠ "") (hb : L (.blockOf txId) = .ok b)
    (h : (getReceipt (Hex.marked txId)).outcome L = .ok r) :
    ∃ i t, b.findTransaction txId = .ok (some (i, t)) ∧ receiptOf txId b i t = .ok r := by
  obtain ⟨b', i, t, hb', hfound, hreceipt⟩ := exists_of_getReceipt h
  rw [Hex.bare_marked htx] at hb' hfound hreceipt
  obtain rfl : b = b' := Except.ok.inj (hb.symm.trans hb')
  exact ⟨i, t, hfound, hreceipt⟩

/-- **Receipts and scans agree.** Suppose that a query for all logs of a block succeeds, and that
the ledger gives the same block for the id of a valid transaction in it. If the transaction has a
receipt, that receipt names the transaction's slot, and its logs are those of the query which name
the slot. The id must not be that of an earlier slot, and positions of slots are numbers of 64
bits. -/
theorem receipt_of_getLogs {L : Answers} {q : LogQuery} {f : LogFilter} {number : UInt64}
    {logs : List Log} {b : Ledger.Block} {i : Nat} {raw : Bytes} {header : Ledger.ChannelHeader}
    {r : Receipt} (hf : LogFilter.ofQuery q = .ok f) (ha : f.addresses = {}) (ht : f.topics = {})
    (hfrom : (Service.resolve f.fromBlock).outcome L = .ok number)
    (hto : (Service.resolve f.toBlock).outcome L = .ok number)
    (hlogs : (getLogs q).outcome L = .ok logs) (hblock : L (.block number) = .ok b)
    (hlen : b.slots.length ≤ UInt64.size) (hslot : b.slots[i]? = some raw) (hraw : raw ≠ [])
    (hvalid : b.validationCode i = .ok validCode)
    (hheader : Ledger.decodeChannelHeader raw = .ok header) (hid : header.txId ≠ "")
    (hfirst : ∀ k < i, ∀ other, b.slots[k]? = some other → other ≠ [] →
      ∀ h, Ledger.decodeChannelHeader other = .ok h → h.txId ≠ header.txId)
    (hblockOf : L (.blockOf header.txId) = .ok b)
    (hreceipt : (getReceipt (Hex.marked header.txId)).outcome L = .ok r) :
    r.status = "0x1" ∧ r.transactionHash = Hex.marked header.txId ∧
      r.transactionIndex = Quantity.text (UInt64.ofNat i) ∧
      (∃ blockHeader, b.header = some blockHeader ∧
        r.blockHash = Hex.ofBytes blockHeader.dataHash ∧
        r.blockNumber = Quantity.text blockHeader.number) ∧
      r.logs = logs.filter fun log => log.transactionIndex = Quantity.text (UInt64.ofNat i) := by
  -- with both bounds at one block, the query scans that block
  have hscan : blockLogs f b = .ok logs := by
    rw [outcome_getLogs_same L hf hfrom hto, logsAt, outcome_blockAt, hblock] at hlogs
    exact hlogs
  obtain ⟨summary, hsummary, hown⟩ := filter_blockLogs hscan hlen hslot hraw
  -- the receipt looks for the id, and finds it in the slot that the scan came across
  obtain ⟨j, t, hfound, hreceipt⟩ := outcome_getReceipt_eq_ok hid hblockOf hreceipt
  obtain ⟨rfl, hdecoded⟩ := Ledger.Block.findTransaction_first hslot hraw hheader hfirst hfound
  obtain ⟨summary', valid, events, hsummary', hvalid', hevents, hhash, hindex, hblockHash,
    hblockNumber, hstatus, hrlogs⟩ := receiptOf_eq_ok hreceipt
  obtain rfl : summary = summary' := Except.ok.inj (hsummary.symm.trans hsummary')
  obtain ⟨blockHeader, hb, hnumber, hblock⟩ := BlockSummary.ofBlock_eq_ok hsummary
  -- the scan shows the id that it read, the receipt the one that was asked for
  have htxId : t.txId = header.txId := by
    have hsame := Ledger.channelHeader_of_decodeTransaction hdecoded
    rw [hheader] at hsame
    rw [Ledger.Decoded.txId, Except.ok.inj hsame]
  refine ⟨?_, hhash, hindex, ⟨blockHeader, hb, hblockHash.trans hblock,
    hblockNumber.trans hnumber⟩, ?_⟩
  · rw [Ledger.Block.isValid, hvalid] at hvalid'
    cases hvalid'
    exact hstatus
  · rw [slotLogs_of_valid hvalid, hdecoded, checkDecode_ok, ok_bind, hevents, checkEvents_ok,
      ok_bind, eventLogs_of_accepts (LogFilter.accepts_eq_true ha ht), htxId] at hown
    exact hrlogs.trans (Except.ok.inj hown)

theorem receipt_of_getLogs_sampleChain : ∃ logs r,
    (getLogs {}).outcome (Ledger.answersOf Ledger.sampleChain) = .ok logs ∧
    (getReceipt "0xa1").outcome (Ledger.answersOf Ledger.sampleChain) = .ok r ∧
    r.status = "0x1" ∧ r.transactionIndex = "0x1" ∧
    r.logs = logs.filter fun log => log.transactionIndex = "0x1" := by
  have hlogs : ((getLogs {}).outcome (Ledger.answersOf Ledger.sampleChain)).isOk := by
    decide +kernel
  have hreceipt : ((getReceipt "0xa1").outcome (Ledger.answersOf Ledger.sampleChain)).isOk := by
    decide +kernel
  obtain ⟨logs, hlogs⟩ := exists_of_isOk hlogs
  obtain ⟨r, hreceipt⟩ := exists_of_isOk hreceipt
  obtain ⟨b, raw, hblock, hblockOf, hlen, hempty, hslot, hraw, hvalid, hheader⟩ :
      ∃ (b : Ledger.Block) (raw : Bytes),
        Ledger.answersOf Ledger.sampleChain (.block 1) = .ok b ∧
        Ledger.answersOf Ledger.sampleChain (.blockOf "a1") = .ok b ∧
        b.slots.length ≤ UInt64.size ∧ b.slots[0]? = some [] ∧ b.slots[1]? = some raw ∧ raw ≠ [] ∧
        b.validationCode 1 = .ok 0 ∧
        Ledger.decodeChannelHeader raw =
          .ok { type := 3, channelId := "mychannel", txId := "a1" } :=
    ⟨.filled 1 Ledger.sampleChain[1],
      (Ledger.sampleChain[1].map fun s => s.1.raw).getD 1 [], by decide +kernel⟩
  have hlast : (Service.resolve .latest).outcome (Ledger.answersOf Ledger.sampleChain) =
      .ok 1 := by decide
  have hfirst : ∀ k < 1, ∀ other, b.slots[k]? = some other → other ≠ [] →
      ∀ h, Ledger.decodeChannelHeader other = .ok h → h.txId ≠ "a1" := by
    intro k hk other hother hne
    obtain rfl : k = 0 := by omega
    rw [hempty] at hother
    exact absurd (Option.some.inj hother).symm hne
  obtain ⟨hstatus, -, hindex, -, heq⟩ := receipt_of_getLogs (q := {}) (i := 1) rfl rfl rfl hlast
    hlast hlogs hblock hlen hslot hraw hvalid hheader (by decide) hfirst hblockOf hreceipt
  exact ⟨logs, r, hlogs, hreceipt, hstatus, hindex, heq⟩

end LedgerBridge.Eth
