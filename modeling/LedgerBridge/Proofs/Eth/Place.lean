import LedgerBridge.Eth.Place
import LedgerBridge.Proofs.Except

/-!
# Summaries of blocks

A block is summed up exactly if it has a header.
-/

namespace LedgerBridge.Eth.BlockSummary

variable {b : Ledger.Block}

theorem ofBlock_of_header {header : Ledger.BlockHeader} (h : b.header = some header) :
    ofBlock b = .ok ⟨Quantity.text header.number, Hex.ofBytes header.dataHash,
      Hex.ofBytes header.previousHash⟩ := by
  rw [ofBlock, Ledger.Block.blockHeader, h]
  rfl

theorem ofBlock_of_header_eq_none (h : b.header = none) :
    ofBlock b = .error (.ofDecode .missingBlockHeader) := by
  rw [ofBlock, Ledger.Block.blockHeader, h]
  rfl

/-- The summary of a block shows its header. -/
theorem ofBlock_eq_ok {summary : BlockSummary} (h : ofBlock b = .ok summary) :
    ∃ header, b.header = some header ∧ summary.number = Quantity.text header.number ∧
      summary.hash = Hex.ofBytes header.dataHash := by
  cases hheader : b.header with
  | none =>
    rw [ofBlock_of_header_eq_none hheader] at h
    cases h
  | some header =>
    rw [ofBlock_of_header hheader] at h
    cases h
    exact ⟨header, rfl, rfl, rfl⟩

end LedgerBridge.Eth.BlockSummary
