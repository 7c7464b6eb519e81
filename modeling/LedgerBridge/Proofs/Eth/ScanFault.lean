import LedgerBridge.Proofs.Eth.LogScan
import LedgerBridge.Proofs.Eth.Place

/-!
# What keeps a block from being scanned

A scan reads of a block its header, the validation code of every slot that is not empty, and the
transaction and its events in every such slot that is valid. Whether all of that can be read has
nothing to do with the filter.

* `SlotReadable`, `BlockReadable` and `HeightReadable` say that a slot, a block and the block with a
  number can be read;
* `SlotFault`, `BlockFault` and `HeightFault` relate them to the error of what is found first that
  cannot be read;
* `exists_slotLogs_iff`, `exists_blockLogs_iff`, `exists_logsAt_iff`: there are logs exactly if all
  can be read; `slotFault_of_error`, `blockFault_of_error`, `heightFault_of_error`: an error is that
  of a fault.
-/

namespace LedgerBridge.Eth

open Ledger (Answers decodeEvents decodeTransaction validCode)

/-- A slot has a validation code and, if it is valid, a transaction with its events. -/
def SlotReadable (b : Ledger.Block) (i : Nat) (raw : Bytes) : Prop :=
  ∃ code, b.validationCode i = .ok code ∧
    (code = validCode →
      ∃ t events, decodeTransaction raw = .ok t ∧ decodeEvents t.events = .ok events)

/-- What cannot be read of a slot. Only a valid slot is decoded. -/
inductive SlotFault (b : Ledger.Block) (i : Nat) (raw : Bytes) : ApiError → Prop where
  | code {e : Ledger.DecodeError} (h : b.validationCode i = .error e) :
      SlotFault b i raw (.ofDecode e)
  | transaction {e : Ledger.DecodeError} (hvalid : b.validationCode i = .ok validCode)
      (h : decodeTransaction raw = .error e) : SlotFault b i raw (.ofDecode e)
  | events {t : Ledger.Decoded} {e : Ledger.EventError}
      (hvalid : b.validationCode i = .ok validCode)
      (ht : decodeTransaction raw = .ok t) (h : decodeEvents t.events = .error e) :
      SlotFault b i raw (.ofEvents e)

/-- A block has a header, and each of its slots that is not empty can be read. -/
structure BlockReadable (b : Ledger.Block) : Prop where
  header : ∃ header, b.header = some header
  slot (i : Nat) (raw : Bytes) (hslot : b.slots[i]? = some raw) (hraw : raw ≠ []) :
    SlotReadable b i raw

/-- What cannot be read of a block: its header, or else the first slot with a fault. -/
inductive BlockFault (b : Ledger.Block) : ApiError → Prop where
  | header (h : b.header = none) : BlockFault b (.ofDecode .missingBlockHeader)
  | slot {i : Nat} {raw : Bytes} {e : ApiError} (hheader : ∃ header, b.header = some header)
      (hslot : b.slots[i]? = some raw) (hraw : raw ≠ [])
      (hbefore : ∀ k < i, ∀ other, b.slots[k]? = some other → other ≠ [] → SlotReadable b k other)
      (h : SlotFault b i raw e) : BlockFault b e

/-- The ledger has a block with the number, and it can be read. -/
def HeightReadable (L : Answers) (number : UInt64) : Prop :=
  ∃ b, L (.block number) = .ok b ∧ BlockReadable b

/-- Why the block with a number cannot be read: the ledger does not give it, or it has a fault. -/
inductive HeightFault (L : Answers) (number : UInt64) : ApiError → Prop where
  | lookup {e : Ledger.AccessError} (h : L (.block number) = .error e) :
      HeightFault L number (.ledgerQuery e.message)
  | contents {b : Ledger.Block} {e : ApiError} (hb : L (.block number) = .ok b)
      (h : BlockFault b e) : HeightFault L number e

/-! ### Slots -/

section Slot

variable {f : LogFilter} {b : Ledger.Block} {summary : BlockSummary} {i : Nat} {raw : Bytes}

theorem slotLogs_of_missing {e : Ledger.DecodeError} (h : b.validationCode i = .error e) :
    slotLogs f b summary i raw = .error (.ofDecode e) := by
  rw [slotLogs, Ledger.Block.isValid, h]
  rfl

theorem exists_slotLogs_iff :
    (∃ logs, slotLogs f b summary i raw = .ok logs) ↔ SlotReadable b i raw := by
  unfold SlotReadable
  cases hcode : b.validationCode i with
  | error e => simp [slotLogs_of_missing hcode]
  | ok code =>
    by_cases hvalid : code = validCode
    · subst hvalid
      simp [slotLogs_of_valid hcode, bind_eq_ok, checkDecode, checkEvents, mapError_eq_ok]
    · simp [slotLogs_of_invalid hcode hvalid, hvalid]

theorem slotFault_of_error {e : ApiError} (h : slotLogs f b summary i raw = .error e) :
    SlotFault b i raw e := by
  cases hcode : b.validationCode i with
  | error e' =>
    rw [slotLogs_of_missing hcode] at h
    cases h
    exact .code hcode
  | ok code =>
    by_cases hvalid : code = validCode
    · subst hvalid
      rw [slotLogs_of_valid hcode] at h
      rcases bind_eq_error.1 h with h | ⟨t, ht, h⟩
      · obtain ⟨e', ht, rfl⟩ := mapError_eq_error.1 h
        exact .transaction hcode ht
      · rcases bind_eq_error.1 h with h | ⟨events, -, h⟩
        · obtain ⟨e', hevents, rfl⟩ := mapError_eq_error.1 h
          exact .events hcode (mapError_eq_ok.1 ht) hevents
        · cases h
    · rw [slotLogs_of_invalid hcode hvalid] at h
      cases h

end Slot

/-! ### Blocks -/

section Block

variable {f : LogFilter} {b : Ledger.Block}

theorem exists_blockLogs_iff : (∃ logs, blockLogs f b = .ok logs) ↔ BlockReadable b := by
  cases hheader : b.header with
  | none =>
    rw [blockLogs, BlockSummary.ofBlock_of_header_eq_none hheader]
    constructor
    · rintro ⟨logs, h⟩
      cases h
    · rintro ⟨⟨header, h⟩, -⟩
      rw [hheader] at h
      cases h
  | some header =>
    rw [blockLogs, BlockSummary.ofBlock_of_header hheader, ok_bind]
    simp only [bind_eq_ok, pure_eq_ok, Except.ok.injEq]
    constructor
    · rintro ⟨logs, lists, h, -⟩
      refine ⟨⟨header, hheader⟩, fun i raw hslot hraw => ?_⟩
      have hp := Ledger.Block.mem_transactions.2 ⟨hslot, hraw⟩
      exact exists_slotLogs_iff.1 (exists_mapM_eq_ok.1 ⟨lists, h⟩ (i, raw) hp)
    · rintro ⟨-, hslots⟩
      obtain ⟨lists, h⟩ := exists_mapM_eq_ok.2 fun (p : Nat × Bytes) (hp : p ∈ b.transactions) =>
        have hslot := Ledger.Block.mem_transactions.1 hp
        exists_slotLogs_iff (f := f).2 (hslots p.1 p.2 hslot.1 hslot.2)
      exact ⟨lists.flatten, lists, h, rfl⟩

theorem blockFault_of_error {e : ApiError} (h : blockLogs f b = .error e) : BlockFault b e := by
  cases hheader : b.header with
  | none =>
    rw [blockLogs, BlockSummary.ofBlock_of_header_eq_none hheader] at h
    cases h
    exact .header hheader
  | some header =>
    rw [blockLogs, BlockSummary.ofBlock_of_header hheader, ok_bind] at h
    rcases bind_eq_error.1 h with hlists | ⟨lists, -, h⟩
    · obtain ⟨before, ⟨i, raw⟩, behind, heq, hbefore, hfault⟩ := mapM_eq_error.1 hlists
      have hmem : (i, raw) ∈ b.transactions := by simp [heq]
      obtain ⟨hslot, hraw⟩ := Ledger.Block.mem_transactions.1 hmem
      refine .slot ⟨header, hheader⟩ hslot hraw (fun k hk other hother hne => ?_)
        (slotFault_of_error hfault)
      -- a listed slot with a smaller position stands in front of the one with the fault
      have hp := Ledger.Block.mem_transactions.2 ⟨hother, hne⟩
      rw [heq, List.mem_append, List.mem_cons] at hp
      rcases hp with hp | hp | hp
      · exact exists_slotLogs_iff.1 (hbefore _ hp)
      · cases hp
        exact absurd hk (lt_irrefl _)
      · exact absurd ((Ledger.Block.lt_of_transactions_eq heq).2 _ hp) (lt_asymm hk)
    · cases h

end Block

/-! ### Heights -/

section Height

variable {L : Answers} {f : LogFilter} {number : UInt64}

theorem exists_logsAt_iff : (∃ logs, logsAt L f number = .ok logs) ↔ HeightReadable L number := by
  unfold logsAt HeightReadable
  rw [outcome_blockAt]
  cases L (.block number) with
  | error e => simp [Except.mapError]
  | ok b => simp [Except.mapError, exists_blockLogs_iff]

theorem heightFault_of_error {e : ApiError} (h : logsAt L f number = .error e) :
    HeightFault L number e := by
  rw [logsAt, outcome_blockAt] at h
  cases hb : L (.block number) with
  | error e' =>
    rw [hb] at h
    cases h
    exact .lookup hb
  | ok b =>
    rw [hb] at h
    exact .contents hb (blockFault_of_error h)

end Height

end LedgerBridge.Eth
