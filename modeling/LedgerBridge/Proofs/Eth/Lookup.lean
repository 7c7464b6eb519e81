import LedgerBridge.Eth.Chain
import LedgerBridge.Proofs.Eth.LogScan

/-!
# Transactions looked up by their hash

The hash of a transaction is its id behind the mark, so the id comes off it again. The transaction
shown is the one found under the id in the block that the ledger gives for it
(`outcome_getTransaction`).
-/

namespace LedgerBridge.Eth

open Ledger (Answers)

variable {L : Answers} {txId : String} {b : Ledger.Block} {i : Nat} {t : Ledger.Decoded}

/-- A transaction is looked up in the block that the ledger gives for its id. -/
theorem outcome_findTransaction_eq_ok (hb : L (.blockOf txId) = .ok b)
    {found : Ledger.Block × Nat × Ledger.Decoded} :
    (Service.findTransaction txId).outcome L = .ok found ↔
      ∃ i t, b.findTransaction txId = .ok (some (i, t)) ∧ found = (b, i, t) := by
  rw [Service.findTransaction, Service.outcome_bind, Service.outcome_ask, hb]
  simp only [Except.mapError, ok_bind, Service.outcome_bind, Service.outcome_check, bind_eq_ok]
  constructor
  · rintro ⟨slot?, hslot, h⟩
    split at h
    · cases h
      exact ⟨_, _, mapError_eq_ok.1 hslot, rfl⟩
    · cases h
  · rintro ⟨i, t, hfound, rfl⟩
    exact ⟨some (i, t), mapError_eq_ok.2 hfound, rfl⟩

/-- A transaction that is found is in the block that the ledger gives for its id. -/
theorem exists_of_outcome_findTransaction {found : Ledger.Block × Nat × Ledger.Decoded}
    (h : (Service.findTransaction txId).outcome L = .ok found) :
    ∃ b i t, L (.blockOf txId) = .ok b ∧ b.findTransaction txId = .ok (some (i, t)) ∧
      found = (b, i, t) := by
  have hask := h
  rw [Service.findTransaction, Service.outcome_bind, Service.outcome_ask] at hask
  obtain ⟨b, hb, -⟩ := bind_eq_ok.1 hask
  have hb := mapError_eq_ok.1 hb
  obtain ⟨i, t, hfound, rfl⟩ := (outcome_findTransaction_eq_ok hb).1 h
  exact ⟨b, i, t, hb, hfound, rfl⟩

/-- A transaction is shown as it is found in the block that the ledger gives for its id. -/
theorem outcome_getTransaction {summary : BlockSummary} (hempty : txId ≠ "") (hmark : txId ≠ "0x")
    (hb : L (.blockOf txId) = .ok b) (hfound : b.findTransaction txId = .ok (some (i, t)))
    (hsummary : BlockSummary.ofBlock b = .ok summary) :
    (getTransaction (Hex.marked txId)).outcome L =
      .ok ((Place.ofSlot summary txId i).transaction t) := by
  rw [getTransaction, Hex.bare_marked hempty]
  simp only [hempty, hmark, or_self, if_false]
  rw [Service.outcome_bind, (outcome_findTransaction_eq_ok hb).2 ⟨i, t, hfound, rfl⟩, ok_bind,
    Service.outcome_bind, Service.outcome_check, hsummary, ok_bind, Service.outcome_pure]

end LedgerBridge.Eth
