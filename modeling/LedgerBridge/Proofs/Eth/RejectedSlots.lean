import LedgerBridge.Proofs.Eth.LogAccess

/-!
# Rejected transactions have no influence on queries

What a slot holds that the peers found invalid is never looked at. So two ledgers which differ only
in such slots answer every query for logs alike, and are asked the same questions.

* `Block.AgreesOffRejected` and `AgreesOffRejected` relate two blocks and two ledgers that differ
  only in slots with a code other than that of a valid transaction;
* `slotLogs_congr`, `blockLogs_congr`, `logsAt_congr` go from slots to ledgers;
* `getLogs_congr` is the result for queries.
-/

namespace LedgerBridge

open Ledger (Answers AccessError validCode)
open Eth.Service (SameRun sameRun_ask sameRun_check sameRun_pure sameRun_throw)

/-- Two blocks that differ only in what rejected slots hold. -/
structure Ledger.Block.AgreesOffRejected (b c : Ledger.Block) : Prop where
  header : b.header = c.header
  metadata : b.metadata = c.metadata
  length_slots : b.slots.length = c.slots.length
  slot (i : Nat) :
    (∃ code, b.validationCode i = .ok code ∧ code ≠ validCode) ∨ b.slots[i]? = c.slots[i]?

namespace Eth

/-- Two answers to a question for a block that differ only in what rejected slots hold. -/
inductive SameLookup :
    Except AccessError Ledger.Block → Except AccessError Ledger.Block → Prop where
  | failed (e : AccessError) : SameLookup (.error e) (.error e)
  | found {b c : Ledger.Block} (h : b.AgreesOffRejected c) : SameLookup (.ok b) (.ok c)

/-- Two ledgers whose blocks differ only in what rejected slots hold. -/
structure AgreesOffRejected (L M : Answers) : Prop where
  height : L .height = M .height
  block (number : UInt64) : SameLookup (L (.block number)) (M (.block number))

/-! ### Slots and blocks -/

section Block

variable {f : LogFilter} {b c : Ledger.Block}

/-- The logs of a slot depend on its block through its code only. -/
theorem slotLogs_congr (h : b.metadata = c.metadata) (summary : BlockSummary) (i : Nat)
    (raw : Bytes) : slotLogs f b summary i raw = slotLogs f c summary i raw := by
  simp only [slotLogs, Ledger.Block.isValid, Ledger.Block.validationCode,
    Ledger.Block.validationCodes, h]

/-- The logs of a block are those of all its slots, where an empty slot has none. -/
theorem blockLogs_eq_slots (f : LogFilter) (b : Ledger.Block) :
    blockLogs f b = BlockSummary.ofBlock b >>= fun summary =>
      List.flatten <$> b.slots.zipIdx.mapM (fun p =>
        if p.1 ≠ [] then slotLogs f b summary p.2 p.1 else .ok []) := by
  rw [blockLogs]
  refine bind_congr fun summary => ?_
  have hfilter := flatten_mapM_filter (fun p : Nat × Bytes => decide (p.2 ≠ []))
    (fun p => slotLogs f b summary p.1 p.2) (b.slots.zipIdx.map Prod.swap)
  rw [List.mapM_map] at hfilter
  simp only [decide_eq_true_eq] at hfilter
  exact hfilter

theorem blockLogs_congr (h : b.AgreesOffRejected c) : blockLogs f b = blockLogs f c := by
  have hsummary : BlockSummary.ofBlock b = BlockSummary.ofBlock c := by
    rw [BlockSummary.ofBlock, BlockSummary.ofBlock, Ledger.Block.blockHeader,
      Ledger.Block.blockHeader, h.header]
  rw [blockLogs_eq_slots, blockLogs_eq_slots, hsummary]
  refine bind_congr fun summary => congrArg _ (mapM_congr ?_)
  refine List.forall₂_iff_get.2 ⟨by simpa using h.length_slots, fun i hi hj => ?_⟩
  simp only [List.get_eq_getElem, List.getElem_zipIdx, Nat.zero_add]
  rw [← slotLogs_congr h.metadata]
  rcases h.slot i with ⟨code, hcode, hrejected⟩ | hsame
  · -- a rejected slot has no logs, whether there is something in it or not
    simp only [slotLogs_of_invalid hcode hrejected, ite_self]
  · rw [List.length_zipIdx] at hi hj
    rw [List.getElem?_eq_getElem hi, List.getElem?_eq_getElem hj] at hsame
    rw [Option.some.inj hsame]

end Block

/-! ### Ledgers -/

section Ledger

variable {L M : Answers} (h : AgreesOffRejected L M)
include h

theorem sameRun_resolve (ref : BlockRef) : SameRun L M (Service.resolve ref) := by
  cases ref with
  | latest =>
    refine (sameRun_ask h.height _).bind fun n => ?_
    split
    · exact sameRun_throw _
    · exact sameRun_pure _
  | earliest => exact sameRun_pure _
  | pending => exact sameRun_throw _
  | number n => exact sameRun_pure _

theorem logsAt_congr (f : LogFilter) (number : UInt64) : logsAt L f number = logsAt M f number := by
  rw [logsAt, logsAt, outcome_blockAt, outcome_blockAt]
  have hnumber := h.block number
  generalize L (.block number) = x, M (.block number) = y at hnumber ⊢
  cases hnumber with
  | failed e => rfl
  | found hblock => exact blockLogs_congr hblock

/-- The blocks that a scan gets are not the same on both ledgers, but their logs are. -/
theorem sameRun_scan (f : LogFilter) (count : Nat) (first : UInt64) :
    SameRun L M (scan f count first) := by
  rw [← UInt64.ofNat_toNat (x := first)]
  constructor
  · rw [outcome_scan, outcome_scan, funext (logsAt_congr h f)]
  · rw [calls_scan, calls_scan, funext (logsAt_congr h f)]

/-- **Rejected transactions have no influence on queries.** On two ledgers whose blocks differ only
in what rejected slots hold, a query has the same answer, a list of logs or an error, and asks the
same questions. -/
theorem getLogs_congr (q : LogQuery) :
    (getLogs q).outcome L = (getLogs q).outcome M ∧ (getLogs q).calls L = (getLogs q).calls M := by
  have hrun : SameRun L M (getLogs q) := by
    refine (sameRun_check _).bind fun f => ?_
    refine (sameRun_resolve h _).bind fun first => ?_
    refine (sameRun_resolve h _).bind fun last => ?_
    split
    · exact sameRun_throw _
    · exact sameRun_scan h f _ first
  exact ⟨hrun.outcome, hrun.calls⟩

end Ledger

theorem getLogs_congr_undecodable : ∃ log,
    (getLogs { fromBlock := some "0x7", toBlock := some "0x7" }).outcome
        (Ledger.answersWithRejected []) = .ok [log] ∧
    (getLogs { fromBlock := some "0x7", toBlock := some "0x7" }).outcome
        (Ledger.answersWithRejected [0xff]) = .ok [log] ∧
    log.transactionHash = "0xa1" ∧ log.data = "0x01" := by
  have hagree : AgreesOffRejected (Ledger.answersWithRejected [])
      (Ledger.answersWithRejected [0xff]) := by
    refine ⟨rfl, fun number => .found ⟨rfl, rfl, rfl, fun i => ?_⟩⟩
    match i with
    | 0 => exact .inr rfl
    | 1 => exact .inl ⟨11, rfl, by decide⟩
    | i + 2 => exact .inr rfl
  have hlogs : (getLogs { fromBlock := some "0x7", toBlock := some "0x7" }).outcome
      (Ledger.answersWithRejected []) =
      .ok [⟨"0x0c", [], "0x01", "0x7", "0xa1", "0x0",
        Hex.ofBytes (Ledger.dataHashOf 7), "0x0"⟩] := by
    decide +kernel
  obtain ⟨hsame, -⟩ := getLogs_congr hagree { fromBlock := some "0x7", toBlock := some "0x7" }
  exact ⟨_, hlogs, hsame ▸ hlogs, rfl, rfl⟩

end Eth

end LedgerBridge
