import LedgerBridge.Proofs.Eth.BlockListing
import LedgerBridge.Proofs.Eth.BlockRef
import LedgerBridge.Proofs.Eth.LogOrder

/-!
# Block numbers given out

The number that a block is shown with is a text that names a block again, and so is the number of
the latest block. Where every block has the number that it is asked for by, these are the same
blocks.

* `getBlockNamed` is the block that a text names; `parse_text`: the text of a number names its
  block;
* `outcome_resolve_latest`: the latest block is the one below the height, if there is one;
* `number_of_showBlock`: a block is shown with the number in its header;
* `getBlockNamed_number`: what comes out when a number is fed back.
-/

namespace LedgerBridge.Eth

open Ledger (Answers)
open Service (check check_ok)

/-- The block that a text names, which is the reply of `Rpc.Method.getBlockByNumber`. -/
def getBlockNamed (name : String) (full : Bool) : Service Block := do
  getBlock (← check (BlockRef.parse name)) full

theorem getBlockNamed_of_parse {name : String} {ref : BlockRef} (h : BlockRef.parse name = .ok ref)
    (full : Bool) : getBlockNamed name full = getBlock ref full := by
  rw [getBlockNamed, h, check_ok, pure_bind]

/-- The text of a number names the block with that number. -/
theorem BlockRef.parse_text (n : UInt64) : parse (Quantity.text n) = .ok (.number n) :=
  parse_eq_ok_iff.2 (.number (Quantity.parse?_eq_some_iff.1 (Quantity.read?_text n)))

theorem getBlockNamed_text (n : UInt64) (full : Bool) :
    getBlockNamed (Quantity.text n) full = getBlock (.number n) full :=
  getBlockNamed_of_parse (BlockRef.parse_text n) full

theorem getBlockNamed_latest (full : Bool) :
    getBlockNamed "latest" full = getBlock .latest full :=
  getBlockNamed_of_parse (by decide) full

variable {L : Answers}

/-! ### The latest block -/

section Latest

variable {height : UInt64} (hheight : L .height = .ok height)
include hheight

theorem outcome_resolve_latest : (Service.resolve .latest).outcome L =
    if height = 0 then .error .noBlocks else .ok (height - 1) := by
  rw [Service.resolve, Service.outcome_bind, Service.height, Service.outcome_ask, hheight]
  simp only [Except.mapError, ok_bind]
  split <;> rfl

theorem outcome_blockNumber : blockNumber.outcome L =
    if height = 0 then .error .noBlocks else .ok (Quantity.text (height - 1)) := by
  rw [blockNumber, Service.outcome_bind, outcome_resolve_latest hheight]
  split <;> rfl

/-- Without blocks there is no latest one, and no block is asked for. -/
theorem run_getBlock_latest (hzero : height = 0) (full : Bool) :
    (getBlock .latest full).outcome L = .error .noBlocks ∧
      (getBlock .latest full).calls L = [.height] := by
  have hresolve := outcome_resolve_latest hheight
  rw [if_pos hzero] at hresolve
  rw [getBlock]
  constructor
  · rw [Service.outcome_bind, hresolve, error_bind]
  · rw [Service.calls_bind_of_error hresolve, calls_resolve, BlockRef.questions]

/-- With blocks, the latest one is the one below the height. -/
theorem outcome_getBlock_latest (hpos : height ≠ 0) (full : Bool) :
    (getBlock .latest full).outcome L = (getBlock (.number (height - 1)) full).outcome L := by
  have hresolve := outcome_resolve_latest hheight
  rw [if_neg hpos] at hresolve
  rw [getBlock, getBlock, Service.outcome_bind, Service.outcome_bind, hresolve]
  rfl

end Latest

/-! ### Numbers fed back -/

theorem number_of_showBlock {full : Bool} {b : Ledger.Block} {block : Block}
    (h : showBlock full b = .ok block) :
    ∃ header, b.header = some header ∧ block.number = Quantity.text header.number := by
  obtain ⟨summary, hsummary, h⟩ := bind_eq_ok.1 h
  obtain ⟨header, hheader, hnumber, -⟩ := BlockSummary.ofBlock_eq_ok hsummary
  refine ⟨header, hheader, ?_⟩
  cases full with
  | false =>
    obtain ⟨hashes, -, h⟩ := bind_eq_ok.1 h
    cases h
    exact hnumber
  | true =>
    obtain ⟨transactions, -, h⟩ := bind_eq_ok.1 h
    cases h
    exact hnumber

/-- **Numbers can be fed back.** Suppose that every block has the number that it is asked for by.
Then the number of a block that was given out names the same block again. If the height is positive,
the number of the latest block is the one below it, and names what the latest block does, be it a
block or an error; otherwise there is no latest block, and none is asked for. -/
theorem getBlockNamed_number
    (hnumber : ∀ number b, L (.block number) = .ok b → b.HasNumber number) :
    (∀ ref full block, (getBlock ref full).outcome L = .ok block →
      (getBlockNamed block.number full).outcome L = .ok block) ∧
    ∀ height, L .height = .ok height →
      (∀ q, blockNumber.outcome L = .ok q ↔ 0 < height ∧ q = Quantity.text (height - 1)) ∧
      (∀ q full, blockNumber.outcome L = .ok q →
        (getBlockNamed q full).outcome L = (getBlockNamed "latest" full).outcome L) ∧
      (height = 0 →
        blockNumber.outcome L = .error .noBlocks ∧ blockNumber.calls L = [.height] ∧
        ∀ full, (getBlockNamed "latest" full).outcome L = .error .noBlocks ∧
          (getBlockNamed "latest" full).calls L = [.height]) := by
  constructor
  · intro ref full block h
    obtain ⟨number, b, -, hb, hshow⟩ := outcome_getBlock_eq_ok.1 h
    obtain ⟨header, hheader, hblock⟩ := number_of_showBlock hshow
    rw [hblock, hnumber number b hb header hheader, getBlockNamed_text]
    exact outcome_getBlock_eq_ok.2 ⟨number, b, rfl, hb, hshow⟩
  · intro height hheight
    have hlatest := outcome_blockNumber hheight
    refine ⟨fun q => ?_, fun q full hq => ?_, fun hzero => ⟨?_, ?_, fun full => ?_⟩⟩
    · rw [hlatest, UInt64.pos_iff_ne_zero]
      by_cases hzero : height = 0
      · simp [hzero]
      · simp [hzero, eq_comm]
    · have hpos : height ≠ 0 := by
        rintro rfl
        rw [hlatest] at hq
        cases hq
      rw [hlatest, if_neg hpos] at hq
      cases hq
      rw [getBlockNamed_text, getBlockNamed_latest, outcome_getBlock_latest hheight hpos]
    · rw [hlatest, if_pos hzero]
    · rw [blockNumber, Service.calls_bind_of_error, calls_resolve, BlockRef.questions]
      rw [outcome_resolve_latest hheight, if_pos hzero]
    · rw [getBlockNamed_latest]
      exact run_getBlock_latest hheight hzero full

theorem getBlockNamed_number_sampleChain : ∃ block,
    (getBlockNamed "latest" true).outcome (Ledger.answersOf Ledger.sampleChain) = .ok block ∧
    block.number = "0x1" ∧
    (getBlockNamed block.number true).outcome (Ledger.answersOf Ledger.sampleChain) = .ok block ∧
    blockNumber.outcome (Ledger.answersOf Ledger.sampleChain) = .ok "0x1" ∧
    (getBlockNamed "latest" false).outcome (Ledger.answersOf []) = .error .noBlocks := by
  have hnumber : ∀ number b, Ledger.answersOf Ledger.sampleChain (.block number) = .ok b →
      b.HasNumber number := by
    intro number b hb header hheader
    by_cases hlt : number.toNat < Ledger.sampleChain.length
    · obtain rfl | rfl : number = 0 ∨ number = 1 := by
        rw [← UInt64.toNat_inj, ← UInt64.toNat_inj]
        have : number.toNat < 2 := hlt
        simp only [UInt64.toNat_zero, UInt64.toNat_one]
        omega
      all_goals
        rw [(Ledger.serves_answersOf _).block _ (by decide),
          Ledger.readBlock_blockBytes (by decide +kernel)] at hb
        cases hb
        cases hheader
        rfl
    · rw [Ledger.answersOf, dif_neg hlt] at hb
      cases hb
  obtain ⟨hback, hlatest⟩ := getBlockNamed_number hnumber
  obtain ⟨hanswer, hsame, -⟩ := hlatest 2 rfl
  obtain ⟨-, -, hempty⟩ := (getBlockNamed_number (L := Ledger.answersOf []) fun number b hb => by
    cases hb).2 0 rfl
  have hq := (hanswer "0x1").2 ⟨by decide, by decide⟩
  have hshown : Block.number <$> (getBlock .latest true).outcome
      (Ledger.answersOf Ledger.sampleChain) = .ok "0x1" := by
    decide +kernel
  obtain ⟨block, hblock, hone⟩ := map_eq_ok.1 hshown
  refine ⟨block, ?_, hone, hback _ true block hblock, hq, ((hempty rfl).2.2 false).1⟩
  rw [getBlockNamed_latest, hblock]

end LedgerBridge.Eth
