import LedgerBridge.Proofs.Eth.Lookup
import LedgerBridge.Proofs.Hex.Mark
import LedgerBridge.Proofs.Ledger.Chain

/-!
# Listings of a block

The transactions of a block are listed whole or by their hashes. A listing with hashes reads only
the headers of the envelopes, one with whole transactions reads everything, and a look-up reads the
headers until it comes to the id. All of them show the same block (`getBlock_full_eq_ok`).

* `fullTransactions_eq_ok`, `transactionHashes_eq_ok`: what a listing shows, entry by entry;
* `transactionHashes_of_fullTransactions`: the hashes of a block are those of its transactions;
* `findTransaction_of_fullTransactions`: an entry is found under its id, unless an earlier one has
  the same id.
-/

namespace LedgerBridge.Eth

open Ledger (Answers decodeChannelHeader decodeTransaction)

variable {summary : BlockSummary} {b : Ledger.Block}

/-- The transactions of a listing are those of the slots, each at the place of its slot. -/
theorem fullTransactions_eq_ok {ts : List Transaction} :
    fullTransactions summary b = .ok ts ↔
      List.Forall₂ (fun p tx => ∃ t, decodeTransaction p.2 = .ok t ∧
        (Place.ofSlot summary t.txId p.1).transaction t = tx) b.transactions ts := by
  rw [fullTransactions, mapM_eq_ok]
  simp only [bind_eq_ok, checkDecode, mapError_eq_ok, pure_eq_ok, Except.ok.injEq]

/-- The hashes of a listing are the ids of the slots behind the mark. -/
theorem transactionHashes_eq_ok {hashes : List String} :
    transactionHashes b = .ok hashes ↔
      List.Forall₂ (fun p hash => ∃ header, decodeChannelHeader p.2 = .ok header ∧
        Hex.marked header.txId = hash) b.transactions hashes := by
  rw [transactionHashes, mapM_eq_ok]
  simp only [bind_eq_ok, checkDecode, mapError_eq_ok, pure_eq_ok, Except.ok.injEq]

/-- Every entry of a listing shows the id in the header of its slot. -/
theorem hash_of_fullTransactions {ts : List Transaction} (h : fullTransactions summary b = .ok ts) :
    List.Forall₂ (fun p tx => ∃ header, decodeChannelHeader p.2 = .ok header ∧
      tx.hash = Hex.marked header.txId) b.transactions ts := by
  refine (fullTransactions_eq_ok.1 h).imp ?_
  rintro p tx ⟨t, ht, rfl⟩
  exact ⟨t.channelHeader, Ledger.channelHeader_of_decodeTransaction ht, rfl⟩

/-- A block whose transactions can be read has their hashes. -/
theorem transactionHashes_of_fullTransactions {ts : List Transaction}
    (h : fullTransactions summary b = .ok ts) :
    transactionHashes b = .ok (ts.map (·.hash)) := by
  rw [transactionHashes_eq_ok, List.forall₂_map_right_iff]
  refine (hash_of_fullTransactions h).imp ?_
  rintro p tx ⟨header, hheader, hhash⟩
  exact ⟨header, hheader, hhash.symm⟩

/-- An entry of a listing is found under its id if no earlier entry has that id. -/
theorem findTransaction_of_fullTransactions {before behind : List Transaction} {tx : Transaction}
    {id : String} (h : fullTransactions summary b = .ok (before ++ tx :: behind))
    (hid : tx.hash = Hex.marked id) (hfirst : ∀ other ∈ before, other.hash ≠ Hex.marked id) :
    ∃ i t, b.findTransaction id = .ok (some (i, t)) ∧
      (Place.ofSlot summary id i).transaction t = tx := by
  obtain ⟨slots, ⟨i, raw⟩, rest, hslots, hbefore, t, ht, rfl⟩ :=
    exists_of_forall₂_append (fullTransactions_eq_ok.1 h)
  obtain rfl : t.txId = id := Hex.marked_injective hid
  refine ⟨i, t, Ledger.Block.findAmong_eq_some_iff.2 ⟨slots, raw, rest, hslots, ?_, rfl, ht⟩, rfl⟩
  intro p hp
  obtain ⟨entry, hentry, other, hother, rfl⟩ := exists_of_mem_forall₂ hbefore hp
  -- an earlier slot with the id would be an earlier entry with its hash
  exact ⟨other.channelHeader, Ledger.channelHeader_of_decodeTransaction hother, fun hsame =>
    hfirst _ hentry (congrArg Hex.marked hsame)⟩

/-- What the listing of a block is made of. -/
theorem outcome_getBlock_eq_ok {L : Answers} {ref : BlockRef} {full : Bool} {block : Block} :
    (getBlock ref full).outcome L = .ok block ↔ ∃ number b,
      (Service.resolve ref).outcome L = .ok number ∧ L (.block number) = .ok b ∧
      showBlock full b = .ok block := by
  rw [getBlock]
  simp only [Service.outcome_bind, Service.outcome_check, bind_eq_ok, outcome_blockAt,
    mapError_eq_ok]
  constructor
  · rintro ⟨number, hnumber, b, hb, h⟩
    exact ⟨number, b, hnumber, hb, h⟩
  · rintro ⟨number, b, hnumber, hb, h⟩
    exact ⟨number, hnumber, b, hb, h⟩

/-- A block is shown whole if its header and all of its transactions can be read. -/
theorem showBlock_full_eq_ok {block : Block} (h : showBlock true b = .ok block) :
    ∃ summary ts, BlockSummary.ofBlock b = .ok summary ∧ fullTransactions summary b = .ok ts ∧
      block = ⟨summary.number, summary.hash, summary.parentHash, .full ts⟩ := by
  obtain ⟨summary, hsummary, h⟩ := bind_eq_ok.1 h
  obtain ⟨transactions, htransactions, h⟩ := bind_eq_ok.1 h
  obtain ⟨ts, hts, rfl⟩ := map_eq_ok.1 htransactions
  cases h
  exact ⟨summary, ts, hsummary, hts, rfl⟩

/-- **Listings and look-ups agree.** Suppose that a block is listed with whole transactions. Then
it is listed with hashes too, with the same header and with the hashes of those transactions, each
of which is the id in the header of a slot. And every entry is what a look-up of its hash gives, if
the ledger gives the same block for its id, the id is not empty or the bare mark, and no earlier
entry has it. -/
theorem getBlock_full_eq_ok {L : Answers} {ref : BlockRef} {block : Block}
    (h : (getBlock ref true).outcome L = .ok block) :
    ∃ (number : UInt64) (b : Ledger.Block) (ts : List Transaction),
      (Service.resolve ref).outcome L = .ok number ∧ L (.block number) = .ok b ∧
      block.transactions = .full ts ∧
      (getBlock ref false).outcome L = .ok {
        number := block.number
        hash := block.hash
        parentHash := block.parentHash
        transactions := .hashes (ts.map (·.hash)) } ∧
      List.Forall₂ (fun p tx => ∃ header, decodeChannelHeader p.2 = .ok header ∧
        tx.hash = Hex.marked header.txId) b.transactions ts ∧
      ∀ before tx behind id, ts = before ++ tx :: behind → tx.hash = Hex.marked id →
        id ≠ "" → id ≠ "0x" → (∀ other ∈ before, other.hash ≠ Hex.marked id) →
        L (.blockOf id) = .ok b → (getTransaction tx.hash).outcome L = .ok tx := by
  obtain ⟨number, b, hnumber, hb, hshow⟩ := outcome_getBlock_eq_ok.1 h
  obtain ⟨summary, ts, hsummary, hts, rfl⟩ := showBlock_full_eq_ok hshow
  refine ⟨number, b, ts, hnumber, hb, rfl, ?_, hash_of_fullTransactions hts, ?_⟩
  · refine outcome_getBlock_eq_ok.2 ⟨number, b, hnumber, hb, ?_⟩
    rw [showBlock, hsummary, ok_bind, transactionHashes_of_fullTransactions hts]
    rfl
  · rintro before tx behind id rfl hid hempty hmark hfirst hblockOf
    obtain ⟨i, t, hfound, rfl⟩ := findTransaction_of_fullTransactions hts hid hfirst
    rw [hid]
    exact outcome_getTransaction hempty hmark hblockOf hfound hsummary

theorem getBlock_full_callChain : ∃ deployment call,
    (getBlock .earliest true).outcome (Ledger.answersOf Ledger.callChain) =
      .ok ⟨"0x0", Hex.ofBytes (Ledger.dataHashOf 0), "0x", .full [deployment, call]⟩ ∧
    (getBlock .earliest false).outcome (Ledger.answersOf Ledger.callChain) =
      .ok ⟨"0x0", Hex.ofBytes (Ledger.dataHashOf 0), "0x", .hashes ["0xd1", "0xc1"]⟩ ∧
    (getTransaction "0xc1").outcome (Ledger.answersOf Ledger.callChain) = .ok call ∧
    call.recipient = some "0x82373458164820947891abcdefabcdefabcdefab" ∧
    call.input = some "0xa905" ∧ call.transactionIndex = "0x2" := by
  have hfull : (getBlock .earliest true).outcome (Ledger.answersOf Ledger.callChain) =
      .ok ⟨"0x0", Hex.ofBytes (Ledger.dataHashOf 0), "0x", .full [
        ⟨Hex.ofBytes (Ledger.dataHashOf 0), "0x0", none, some "0x6060", "0x0", "0xd1"⟩,
        ⟨Hex.ofBytes (Ledger.dataHashOf 0), "0x0",
          some "0x82373458164820947891abcdefabcdefabcdefab", some "0xa905", "0x2", "0xc1"⟩]⟩ := by
    decide +kernel
  obtain ⟨number, b, ts, hnumber, hb, hts, hhashes, -, hlookup⟩ := getBlock_full_eq_ok hfull
  cases hnumber
  cases hts
  have hblockOf : Ledger.answersOf Ledger.callChain (.blockOf "c1") = .ok b := by
    rw [← hb]
    decide +kernel
  have hcall := hlookup [_] _ [] "c1" rfl rfl (by decide) (by decide)
    (List.forall_mem_singleton.2 (by decide)) hblockOf
  exact ⟨_, _, hfull, hhashes, hcall, rfl, rfl, rfl⟩

end LedgerBridge.Eth
