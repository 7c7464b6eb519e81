import LedgerBridge.Proofs.Eth.LogScan
import LedgerBridge.Proofs.Ledger.Chain

/-!
# Logs of committed transactions

`committedLogs` says which logs a block of a chain holds, without its bytes: those of its valid
endorsed transactions. A scan of the serialized chain gives exactly these
(`outcome_getLogs_committed`).
-/

namespace LedgerBridge.Eth

open Ledger (Answers Content EventRecord Serves blockBytes validCode)

/-- The log of an event, given the number of its block, the id and the slot of its transaction, and
its position among all events of the transaction. -/
def committedLog (number : UInt64) (txId : String) (slot : Nat) (event : EventRecord)
    (position : Nat) : Log where
  address := remarked event.address
  topics := event.topics.map remarked
  data := remarked event.data
  blockNumber := Quantity.text number
  transactionHash := Hex.marked txId
  transactionIndex := Quantity.text (UInt64.ofNat slot)
  blockHash := Hex.ofBytes (Ledger.dataHashOf number)
  logIndex := Quantity.text (UInt64.ofNat position)

/-- The logs of a slot that pass a filter: only valid endorsed transactions have any. -/
def committedSlotLogs (f : LogFilter) (number : UInt64) (slot : Nat) :
    Content × UInt8 → List Log
  | (.endorsed txId _ _ events, code) =>
    if code = 0 then
      (events.zipIdx.filter fun p => f.accepts p.1).map fun p =>
        committedLog number txId slot p.1 p.2
    else []
  | _ => []

/-- The logs of a block that pass a filter, in the order of its slots. -/
def committedLogs (f : LogFilter) (number : UInt64) (slots : List (Content × UInt8)) : List Log :=
  slots.zipIdx.flatMap fun p => committedSlotLogs f number p.2 p.1

/-! ### Blocks -/

section Block

variable {f : LogFilter} {number : UInt64} {slots : List (Content × UInt8)}

/-- How the header of a committed block is shown. -/
def committedSummary (number : UInt64) : BlockSummary where
  number := Quantity.text number
  hash := Hex.ofBytes (Ledger.dataHashOf number)
  parentHash := Hex.ofBytes (if number = 0 then [] else Ledger.dataHashOf (number - 1))

theorem ofBlock_filled :
    BlockSummary.ofBlock (.filled number slots) = .ok (committedSummary number) := rfl

theorem eventLogs_committed (txId : String) (slot : Nat) (events : List EventRecord) :
    eventLogs f (Place.ofSlot (committedSummary number) txId slot) events =
      (events.zipIdx.filter fun p => f.accepts p.1).map fun p =>
        committedLog number txId slot p.1 p.2 := rfl

variable (hsize : (blockBytes number slots).length < UInt64.size)
include hsize

/-- The scan of a slot that is not empty gives its logs. -/
theorem slotLogs_committed {slot : Nat} {s : Content × UInt8} (hs : slots[slot]? = some s)
    (hraw : s.1.raw ≠ []) :
    slotLogs f (.filled number slots) (committedSummary number) slot s.1.raw =
      .ok (committedSlotLogs f number slot s) := by
  obtain ⟨content, code⟩ := s
  have hlength : content.raw.length < UInt64.size :=
    lt_of_le_of_lt (Ledger.length_raw_le (List.mem_of_getElem? hs)) hsize
  have hcode : (Ledger.Block.filled number slots).validationCode slot = .ok code :=
    Ledger.Block.validationCode_filled hs
  by_cases hvalid : code = validCode
  · subst hvalid
    rw [slotLogs_of_valid hcode]
    cases content with
    | empty => exact absurd rfl hraw
    | config txId =>
      rw [Ledger.decodeTransaction_config hlength]
      rfl
    | endorsed txId args response events =>
      rw [Ledger.decodeTransaction_endorsed hlength, checkDecode_ok, ok_bind,
        Ledger.decodeEvents_endorsed hlength, checkEvents_ok, ok_bind, eventLogs_committed]
      rfl
  · rw [slotLogs_of_invalid hcode hvalid]
    cases content with
    | empty => rfl
    | config txId => rfl
    | endorsed txId args response events =>
      have hne : code ≠ 0 := hvalid
      rw [committedSlotLogs, if_neg hne]

/-- The scan of a block gives the logs of its slots. -/
theorem blockLogs_committed :
    blockLogs f (.filled number slots) = .ok (committedLogs f number slots) := by
  have hrun : ∀ p ∈ slots.zipIdx.filter fun p => p.1.1.raw ≠ [],
      slotLogs f (.filled number slots) (committedSummary number) p.2 p.1.1.raw =
        .ok (committedSlotLogs f number p.2 p.1) := by
    rintro ⟨s, slot⟩ hp
    obtain ⟨hmem, hraw⟩ := List.mem_filter.1 hp
    exact slotLogs_committed hsize (List.mem_zipIdx_iff_getElem?.1 hmem) (of_decide_eq_true hraw)
  -- slots without bytes are not scanned, and they have no logs
  have hempty : ∀ p ∈ slots.zipIdx, decide (p.1.1.raw ≠ []) = false →
      committedSlotLogs f number p.2 p.1 = [] := by
    rintro ⟨⟨content, code⟩, slot⟩ - hraw
    have hcontent : content = .empty :=
      not_imp_comm.1 Ledger.Content.raw_ne_nil (of_decide_eq_false hraw)
    subst hcontent
    rfl
  rw [blockLogs, ofBlock_filled, ok_bind, Ledger.Block.transactions_filled, List.mapM_map]
  show (List.mapM (fun p : (Content × UInt8) × Nat => slotLogs f _ _ p.2 p.1.1.raw) _ >>= _) = _
  rw [mapM_eq_ok_map hrun, ok_bind, pure_eq_ok, ← List.flatMap_def, flatMap_filter_eq hempty]
  rfl

end Block

/-- **A scan of a committed chain gives its logs.** On a ledger that serves the serialized blocks of
a chain, each of less than `2 ^ 64` bytes, a query between two of its blocks succeeds. It gives one
log for every event that passes the filter in a valid endorsed transaction, in the order of blocks,
slots and emission. -/
theorem outcome_getLogs_committed {L : Answers} {chain : List (List (Content × UInt8))}
    (hL : Serves L chain)
    (hsize : ∀ (n : Nat) (h : n < chain.length),
      (blockBytes (UInt64.ofNat n) chain[n]).length < UInt64.size)
    {q : LogQuery} {f : LogFilter} {first last : UInt64} (hf : LogFilter.ofQuery q = .ok f)
    (hfirst : (Service.resolve f.fromBlock).outcome L = .ok first)
    (hlast : (Service.resolve f.toBlock).outcome L = .ok last) (hle : first ≤ last)
    (hlt : last.toNat < chain.length) :
    (getLogs q).outcome L = .ok
      ((List.range' first.toNat (last.toNat - first.toNat + 1)).flatMap fun n =>
        committedLogs f (UInt64.ofNat n) (chain[n]?.getD [])) := by
  have hrun : ∀ n ∈ List.range' first.toNat (last.toNat - first.toNat + 1),
      logsAt L f (UInt64.ofNat n) =
        .ok (committedLogs f (UInt64.ofNat n) (chain[n]?.getD [])) := by
    intro n hn
    rw [UInt64.le_iff_toNat_le] at hle
    have hlast : n ≤ last.toNat := by
      have := List.mem_range'_1.1 hn
      omega
    have hn : (UInt64.ofNat n).toNat = n :=
      UInt64.toNat_ofNat_of_lt' (lt_of_le_of_lt hlast last.toNat_lt)
    have hlength : n < chain.length := lt_of_le_of_lt hlast hlt
    have hblock := hL.block (UInt64.ofNat n) (hn.symm ▸ hlength)
    simp only [hn] at hblock
    rw [logsAt, outcome_blockAt, hblock, Ledger.readBlock_blockBytes (hsize n hlength),
      List.getElem?_eq_getElem hlength]
    exact blockLogs_committed (hsize n hlength)
  rw [outcome_getLogs L hf hfirst hlast hle, mapM_eq_ok_map hrun, map_ok, ← List.flatMap_def]

theorem outcome_getLogs_sampleChain :
    (getLogs { fromBlock := some "0x0", topics := some [none] }).outcome
      (Ledger.answersOf Ledger.sampleChain) = .ok [
        { address := "0x0c"
          topics := ["0x0d"]
          data := "0x"
          blockNumber := "0x1"
          transactionHash := "0xa1"
          transactionIndex := "0x1"
          blockHash := "0x0000000000000001dadadadadadadadadadadadadadadadadadadadadadadada"
          logIndex := "0x1" }] := by
  have hf : LogFilter.ofQuery { fromBlock := some "0x0", topics := some [none] } =
      .ok { fromBlock := .number 0, topics := ⟨[[]]⟩ } := by decide +kernel
  have hfirst : (Service.resolve (.number 0)).outcome (Ledger.answersOf Ledger.sampleChain) =
      .ok 0 := rfl
  have hlast : (Service.resolve .latest).outcome (Ledger.answersOf Ledger.sampleChain) =
      .ok 1 := by decide
  rw [outcome_getLogs_committed (Ledger.serves_answersOf _) (by decide +kernel) hf hfirst hlast
    (by decide) (by decide)]
  decide +kernel

end LedgerBridge.Eth
