import LedgerBridge.Eth.LogScan
import LedgerBridge.Proofs.Eth.Service
import LedgerBridge.Proofs.Ledger.Block
import LedgerBridge.Proofs.Quantity

/-!
# What a scan gives

A scan without its questions: on a ledger that always answers alike, the logs of a query are those
of the blocks between its bounds (`outcome_scan`, `outcome_getLogs`), the logs of a block those of
its slots, and the logs of a slot those of its events (`slotLogs_of_valid`, `slotLogs_of_invalid`).
Every log names its slot, so the logs of a slot can be told from those of the others
(`filter_blockLogs`).
-/

namespace LedgerBridge.Eth

open Ledger (Answers validCode)
open Service (check_ok)

/-- The logs of the block with a number. -/
def logsAt (L : Answers) (f : LogFilter) (number : UInt64) : Except ApiError (List Log) := do
  blockLogs f (← (Service.blockAt number).outcome L)

theorem outcome_blockAt (L : Answers) (number : UInt64) :
    (Service.blockAt number).outcome L =
      (L (.block number)).mapError fun e => .ledgerQuery e.message :=
  Service.outcome_ask L _ _

theorem outcome_scan (L : Answers) (f : LogFilter) (count first : Nat) :
    (scan f count (UInt64.ofNat first)).outcome L =
      List.flatten <$> (List.range' first count).mapM fun n => logsAt L f (UInt64.ofNat n) := by
  induction count generalizing first with
  | zero => rfl
  | succ count ih =>
    have hnext : UInt64.ofNat first + 1 = UInt64.ofNat (first + 1) := by
      rw [UInt64.ofNat_add]
      rfl
    rw [scan, hnext, List.range'_succ, List.mapM_cons]
    simp only [Service.outcome_bind, Service.outcome_check, ih]
    rw [logsAt]
    cases (Service.blockAt (UInt64.ofNat first)).outcome L with
    | error e => rfl
    | ok block =>
      simp only [ok_bind]
      cases blockLogs f block with
      | error e => rfl
      | ok logs =>
        cases (List.range' (first + 1) count).mapM fun n => logsAt L f (UInt64.ofNat n) <;> rfl

/-- The logs of a query are those of the blocks between its bounds, in their order. -/
theorem outcome_getLogs (L : Answers) {q : LogQuery} {f : LogFilter} {first last : UInt64}
    (hf : LogFilter.ofQuery q = .ok f)
    (hfirst : (Service.resolve f.fromBlock).outcome L = .ok first)
    (hlast : (Service.resolve f.toBlock).outcome L = .ok last) (hle : first ≤ last) :
    (getLogs q).outcome L =
      List.flatten <$> (List.range' first.toNat (last.toNat - first.toNat + 1)).mapM fun n =>
        logsAt L f (UInt64.ofNat n) := by
  have hscan := outcome_scan L f (last.toNat - first.toNat + 1) first.toNat
  rw [UInt64.ofNat_toNat] at hscan
  rw [getLogs, hf, check_ok, pure_bind, Service.outcome_bind, hfirst, ok_bind, Service.outcome_bind,
    hlast, ok_bind, ← hscan, if_neg (UInt64.not_lt.2 hle)]

/-- The logs of a query for one block. -/
theorem outcome_getLogs_same (L : Answers) {q : LogQuery} {f : LogFilter} {number : UInt64}
    (hf : LogFilter.ofQuery q = .ok f)
    (hfirst : (Service.resolve f.fromBlock).outcome L = .ok number)
    (hlast : (Service.resolve f.toBlock).outcome L = .ok number) :
    (getLogs q).outcome L = logsAt L f number := by
  rw [outcome_getLogs L hf hfirst hlast (UInt64.le_refl _), Nat.sub_self, List.range'_one,
    List.mapM_cons, List.mapM_nil, UInt64.ofNat_toNat]
  cases logsAt L f number <;> simp

/-! ### Slots -/

@[simp] theorem checkDecode_ok {α : Type} (a : α) : checkDecode (.ok a) = .ok a := rfl

@[simp] theorem checkEvents_ok {α : Type} (a : α) : checkEvents (.ok a) = .ok a := rfl

theorem eventLogs_of_accepts {f : LogFilter} (h : ∀ event, f.accepts event = true) (place : Place)
    (events : List Ledger.EventRecord) :
    eventLogs f place events = events.zipIdx.map fun p => place.log p.1 p.2 := by
  simp only [eventLogs, h, List.filter_true]

section Slots

variable {f : LogFilter} {b : Ledger.Block} {summary : BlockSummary} {i : Nat} {raw : Bytes}

theorem slotLogs_of_valid (h : b.validationCode i = .ok validCode) :
    slotLogs f b summary i raw = do
      let t ← checkDecode (Ledger.decodeTransaction raw)
      let events ← checkEvents (Ledger.decodeEvents t.events)
      return eventLogs f (Place.ofSlot summary t.txId i) events := by
  have hvalid : b.isValid i = .ok true := by
    rw [Ledger.Block.isValid, h]
    rfl
  rw [slotLogs, hvalid]
  rfl

theorem slotLogs_of_invalid {code : UInt8} (h : b.validationCode i = .ok code)
    (hcode : code ≠ validCode) : slotLogs f b summary i raw = .ok [] := by
  have hvalid : b.isValid i = .ok false := by
    rw [Ledger.Block.isValid, h, map_ok, beq_false_of_ne hcode]
  rw [slotLogs, hvalid]
  rfl

theorem transactionIndex_of_mem_eventLogs {place : Place} {events : List Ledger.EventRecord}
    {log : Log} (h : log ∈ eventLogs f place events) : log.transactionIndex = place.index := by
  obtain ⟨p, -, rfl⟩ := List.mem_map.1 h
  rfl

/-- Every log of a slot names the slot. -/
theorem transactionIndex_of_mem_slotLogs {logs : List Log} {log : Log}
    (h : slotLogs f b summary i raw = .ok logs) (hlog : log ∈ logs) :
    log.transactionIndex = Quantity.text (UInt64.ofNat i) := by
  obtain ⟨valid, -, h⟩ := bind_eq_ok.1 h
  cases valid with
  | false =>
    cases h
    cases hlog
  | true =>
    obtain ⟨t, -, h⟩ := bind_eq_ok.1 h
    obtain ⟨events, -, h⟩ := bind_eq_ok.1 h
    cases h
    exact transactionIndex_of_mem_eventLogs hlog

theorem filter_eq_nil_of_mapM {slots : List (Nat × Bytes)} {lists : List (List Log)}
    {index : String} (h : (slots.mapM fun p => slotLogs f b summary p.1 p.2) = .ok lists)
    (hne : ∀ p ∈ slots, Quantity.text (UInt64.ofNat p.1) ≠ index) :
    (lists.flatten.filter fun log => log.transactionIndex = index) = [] := by
  rw [List.filter_eq_nil_iff]
  intro log hlog hindex
  obtain ⟨list, hlist, hmem⟩ := List.mem_flatten.1 hlog
  obtain ⟨p, hp, hrun⟩ := exists_of_mem_mapM h hlist
  rw [decide_eq_true_eq, transactionIndex_of_mem_slotLogs hrun hmem] at hindex
  exact hne p hp hindex

/-- **The logs of a slot are the logs of its block that name it.** -/
theorem filter_blockLogs {logs : List Log} (h : blockLogs f b = .ok logs)
    (hlen : b.slots.length ≤ UInt64.size) (hslot : b.slots[i]? = some raw) (hraw : raw ≠ []) :
    ∃ summary, BlockSummary.ofBlock b = .ok summary ∧
      slotLogs f b summary i raw =
        .ok (logs.filter fun log => log.transactionIndex = Quantity.text (UInt64.ofNat i)) := by
  obtain ⟨summary, hsummary, h⟩ := bind_eq_ok.1 h
  obtain ⟨lists, hlists, h⟩ := bind_eq_ok.1 h
  cases h
  -- positions below `2 ^ 64` are shown differently
  have hlt : ∀ p ∈ b.transactions, p.1 < UInt64.size := fun p hp =>
    (Ledger.Block.lt_length_of_mem_transactions hp).trans_le hlen
  have hmem := Ledger.Block.mem_transactions.2 ⟨hslot, hraw⟩
  obtain ⟨before, behind, heq⟩ := List.append_of_mem hmem
  obtain ⟨hbefore, hbehind⟩ := Ledger.Block.lt_of_transactions_eq heq
  have hother : ∀ p ∈ b.transactions, p.1 ≠ i →
      Quantity.text (UInt64.ofNat p.1) ≠ Quantity.text (UInt64.ofNat i) := fun p hp hne ht =>
    hne (Quantity.text_ofNat_injective (hlt p hp) (hlt _ hmem) ht)
  -- the scan is that of the slots in front, of the slot itself, and of the slots behind
  rw [heq] at hlists hother
  rw [List.mapM_append] at hlists
  obtain ⟨first, hfirst, hlists⟩ := bind_eq_ok.1 hlists
  obtain ⟨rest, hrest, hlists⟩ := bind_eq_ok.1 hlists
  cases hlists
  rw [List.mapM_cons] at hrest
  obtain ⟨own, hown, hrest⟩ := bind_eq_ok.1 hrest
  obtain ⟨last, hlast, hrest⟩ := bind_eq_ok.1 hrest
  cases hrest
  change slotLogs f b summary i raw = .ok own at hown
  refine ⟨summary, hsummary, ?_⟩
  rw [hown, List.flatten_append, List.flatten_cons, List.filter_append, List.filter_append,
    filter_eq_nil_of_mapM hfirst fun p hp => hother p (by simp [hp]) (hbefore p hp).ne,
    filter_eq_nil_of_mapM hlast fun p hp => hother p (by simp [hp]) (hbehind p hp).ne',
    List.nil_append, List.append_nil, List.filter_eq_self.2]
  intro log hlog
  exact decide_eq_true (transactionIndex_of_mem_slotLogs hown hlog)

end Slots

end LedgerBridge.Eth
