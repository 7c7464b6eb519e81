import LedgerBridge.Proofs.Eth.LogFilter

/-!
# Ranges in parts

Nothing is carried from one block of a scan to the next, so a range may be scanned in parts, one
after the other.

* `scan_add`: the scan of a range is the scan of its first blocks, and then that of the others;
* `LogQuery.between` is a query between numbered blocks; only its bounds tell it from others with
  the same filter (`ofQuery_between`, `getLogs_between`);
* `getLogs_between_eq`: a query between numbered blocks is the query for a first part of them,
  followed by the query for the rest. `getLogs_split` says what that means on a ledger.
-/

namespace LedgerBridge.Eth

open Ledger (Answers)
open Service (check check_ok)

/-! ### Scans -/

/-- A scan looks at the bounds of its filter no more. -/
theorem scan_congr {f g : LogFilter} (h : blockLogs f = blockLogs g) (count : Nat)
    (number : UInt64) : scan f count number = scan g count number := by
  induction count generalizing number with
  | zero => rfl
  | succ count ih => rw [scan, scan, h, ih]

/-- By induction on the number of blocks in the first part. -/
theorem scan_add (f : LogFilter) (m n : Nat) (number : UInt64) :
    scan f (m + n) number = do
      let before ← scan f m number
      let behind ← scan f n (number + UInt64.ofNat m)
      return before ++ behind := by
  induction m generalizing number with
  | zero =>
    have hnumber : number + UInt64.ofNat 0 = number := UInt64.add_zero number
    simp only [scan, hnumber, Nat.zero_add, pure_bind, List.nil_append, bind_pure]
  | succ m ih =>
    have hnumber : number + 1 + UInt64.ofNat m = number + UInt64.ofNat (m + 1) := by
      rw [UInt64.ofNat_add, UInt64.add_assoc, UInt64.add_comm 1]
      rfl
    rw [Nat.add_right_comm, scan, scan]
    simp only [ih, hnumber, bind_assoc, pure_bind, List.append_assoc]

/-! ### Queries between numbered blocks -/

/-- The query with other bounds. -/
def LogQuery.between (q : LogQuery) (first last : String) : LogQuery :=
  { q with fromBlock := some first, toBlock := some last }

/-- What a query between blocks asks for beside them. -/
def LogQuery.contents (q : LogQuery) : Except ApiError (AddressFilter × TopicsFilter) :=
  if q.blockHash.isSome then
    .error (.invalidParams "blockHash cannot be set at the same time as fromBlock or toBlock")
  else do
    let addresses ← q.address.elim (pure {}) AddressFilter.ofChoice
    let topics ← q.topics.elim (pure {}) TopicsFilter.ofPositions
    return (addresses, topics)

section Between

variable {q : LogQuery} {s t : String} {first last : UInt64}

theorem ofQuery_between (hs : BlockRef.parse s = .ok (.number first))
    (ht : BlockRef.parse t = .ok (.number last)) :
    LogFilter.ofQuery (q.between s t) =
      (fun p => ⟨.number first, .number last, p.1, p.2⟩) <$> q.contents := by
  rw [LogFilter.ofQuery_eq_ofParts, LogFilter.ofParts, LogQuery.contents]
  simp only [LogQuery.between, BlockRef.parseOrLatest, hs, ht, Option.isSome_some, Bool.or_self,
    Bool.and_true, ok_bind, reduceCtorEq, or_self, if_false]
  by_cases hhash : q.blockHash.isSome
  · simp only [hhash, if_true, map_error]
  · simp only [hhash]
    cases q.address.elim (pure {}) AddressFilter.ofChoice with
    | error e => rfl
    | ok addresses =>
      simp only [ok_bind]
      cases q.topics.elim (pure {}) TopicsFilter.ofPositions <;> rfl

/-- A query between numbered blocks checks what it asks for and scans these blocks. -/
theorem getLogs_between (hs : BlockRef.parse s = .ok (.number first))
    (ht : BlockRef.parse t = .ok (.number last)) (hle : first ≤ last) :
    getLogs (q.between s t) = check q.contents >>= fun p =>
      scan { addresses := p.1, topics := p.2 } (last.toNat - first.toNat + 1) first := by
  rw [getLogs, ofQuery_between hs ht]
  cases q.contents with
  | error e => rfl
  | ok p =>
    -- the bounds of a filter are not looked at when it is matched
    have hblocks : blockLogs ⟨.number first, .number last, p.1, p.2⟩ =
        blockLogs { addresses := p.1, topics := p.2 } := rfl
    simp only [map_ok, check_ok, pure_bind, Service.resolve]
    rw [if_neg (UInt64.not_lt.2 hle), scan_congr hblocks]

end Between

section Split

variable {q : LogQuery} {s t t' u : String} {a b c : UInt64}
  (hs : BlockRef.parse s = .ok (.number a)) (ht : BlockRef.parse t = .ok (.number b))
  (ht' : BlockRef.parse t' = .ok (.number (b + 1))) (hu : BlockRef.parse u = .ok (.number c))
  (hab : a ≤ b) (hbc : b < c)
include hs ht ht' hu hab hbc

/-- **A range may be scanned in two parts.** -/
theorem getLogs_between_eq :
    getLogs (q.between s u) = do
      let before ← getLogs (q.between s t)
      let behind ← getLogs (q.between t' u)
      return before ++ behind := by
  have hlt := UInt64.lt_iff_toNat_lt.1 hbc
  have hle := UInt64.le_iff_toNat_le.1 hab
  have hnext : (b + 1).toNat = b.toNat + 1 := by
    have hc := c.toNat_lt
    rw [UInt64.toNat_add]
    exact Nat.mod_eq_of_lt (show b.toNat + 1 < 2 ^ 64 by omega)
  have hac : a ≤ c := UInt64.le_iff_toNat_le.2 (by omega)
  have hbc' : b + 1 ≤ c := UInt64.le_iff_toNat_le.2 (by omega)
  -- the first part ends where the second one starts
  have hstart : a + UInt64.ofNat (b.toNat - a.toNat + 1) = b + 1 := calc
    _ = UInt64.ofNat (a.toNat + (b.toNat - a.toNat + 1)) := by
      rw [UInt64.ofNat_add a.toNat, UInt64.ofNat_toNat]
    _ = UInt64.ofNat (b.toNat + 1) := by
      rw [show a.toNat + (b.toNat - a.toNat + 1) = b.toNat + 1 by omega]
    _ = b + 1 := by
      rw [UInt64.ofNat_add, UInt64.ofNat_toNat]
      rfl
  have hcount : c.toNat - a.toNat + 1 =
      (b.toNat - a.toNat + 1) + (c.toNat - (b + 1).toNat + 1) := by omega
  rw [getLogs_between hs hu hac, getLogs_between hs ht hab, getLogs_between ht' hu hbc']
  cases q.contents with
  | error e => rfl
  | ok p => rw [check_ok, pure_bind, pure_bind, pure_bind, hcount, scan_add, hstart]

/-- **What that means on a ledger.** The query for the whole range succeeds exactly if both parts
do, and then it gives the logs of the first part and those of the second. Otherwise it fails with
the error of the first part, or of the second if the first succeeds. It asks for the blocks that the
first part asks for, and then, if that succeeds, for those of the second. -/
theorem getLogs_split (L : Answers) :
    (((getLogs (q.between s u)).outcome L).isOk ↔
      ((getLogs (q.between s t)).outcome L).isOk ∧
        ((getLogs (q.between t' u)).outcome L).isOk) ∧
    (∀ before behind, (getLogs (q.between s t)).outcome L = .ok before →
      (getLogs (q.between t' u)).outcome L = .ok behind →
      (getLogs (q.between s u)).outcome L = .ok (before ++ behind)) ∧
    (∀ e, (getLogs (q.between s t)).outcome L = .error e →
      (getLogs (q.between s u)).outcome L = .error e ∧
        (getLogs (q.between s u)).calls L = (getLogs (q.between s t)).calls L) ∧
    (∀ before e, (getLogs (q.between s t)).outcome L = .ok before →
      (getLogs (q.between t' u)).outcome L = .error e →
      (getLogs (q.between s u)).outcome L = .error e) ∧
    ∀ before, (getLogs (q.between s t)).outcome L = .ok before →
      (getLogs (q.between s u)).calls L =
        (getLogs (q.between s t)).calls L ++ (getLogs (q.between t' u)).calls L := by
  rw [getLogs_between_eq hs ht ht' hu hab hbc]
  generalize getLogs (q.between s t) = part
  generalize getLogs (q.between t' u) = rest
  -- what is done with the logs of the parts asks nothing
  have hrest (before : List Log) : (rest >>= fun behind => return before ++ behind) =
      (before ++ ·) <$> rest := (map_eq_pure_bind _ _).symm
  simp only [hrest]
  cases hpart : part.outcome L with
  | error e =>
    rw [Service.outcome_bind, Service.calls_bind_of_error hpart, hpart, error_bind]
    simp [Except.isOk, Except.toBool]
  | ok before =>
    rw [Service.outcome_bind, Service.calls_bind_of_ok hpart, hpart, ok_bind, Service.outcome_map,
      Service.calls_map]
    cases rest.outcome L <;> simp [Except.isOk, Except.toBool]

end Split

theorem getLogs_split_sampleChain : ∃ before behind,
    (getLogs (LogQuery.between {} "0x0" "0")).outcome (Ledger.answersOf Ledger.sampleChain) =
      .ok before ∧
    (getLogs (LogQuery.between {} "1" "0x1")).outcome (Ledger.answersOf Ledger.sampleChain) =
      .ok behind ∧ behind.length = 2 ∧
    (getLogs (LogQuery.between {} "0x0" "0x1")).outcome (Ledger.answersOf Ledger.sampleChain) =
      .ok (before ++ behind) ∧
    (getLogs (LogQuery.between {} "0x0" "0x1")).calls (Ledger.answersOf Ledger.sampleChain) =
      [.block 0, .block 1] := by
  have hpart : ((getLogs (LogQuery.between {} "0x0" "0")).outcome
      (Ledger.answersOf Ledger.sampleChain)).isOk := by decide +kernel
  have hrest : List.length <$> (getLogs (LogQuery.between {} "1" "0x1")).outcome
      (Ledger.answersOf Ledger.sampleChain) = .ok 2 := by decide +kernel
  obtain ⟨before, hbefore⟩ := exists_of_isOk hpart
  obtain ⟨behind, hbehind, hlength⟩ := map_eq_ok.1 hrest
  have hs : BlockRef.parse "0x0" = .ok (.number 0) := by decide
  have ht : BlockRef.parse "0" = .ok (.number 0) := by decide
  have ht' : BlockRef.parse "1" = .ok (.number (0 + 1)) := by decide
  have hu : BlockRef.parse "0x1" = .ok (.number 1) := by decide
  obtain ⟨-, hlogs, -, -, hcalls⟩ := getLogs_split (q := {}) hs ht ht' hu (by decide) (by decide)
    (Ledger.answersOf Ledger.sampleChain)
  exact ⟨before, behind, hbefore, hbehind, hlength, hlogs before behind hbefore hbehind,
    (hcalls before hbefore).trans (by decide +kernel)⟩

end LedgerBridge.Eth
