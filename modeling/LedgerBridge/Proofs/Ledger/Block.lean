import LedgerBridge.Ledger.Block
import LedgerBridge.Proofs.Except

/-!
# Transactions of a block

* `mem_transactions`, `pairwise_transactions`: which slots are listed, and that their positions
  increase (`lt_of_transactions_eq`);
* `channelHeader_of_decodeTransaction`: the header of a decoded transaction is the one which is read
  when a transaction is looked for;
* `findAmong_eq_some_iff`, `findTransaction_first`: a transaction is found in the first slot with
  its id.
-/

namespace LedgerBridge.Ledger

theorem channelHeader_of_decodeEndorsed {header : ChannelHeader} {raw : Bytes} {t : Decoded}
    (h : decodeEndorsed header raw = .ok t) : t.channelHeader = header := by
  unfold decodeEndorsed at h
  obtain ⟨transaction, -, h⟩ := bind_eq_ok.1 h
  split at h
  · obtain ⟨payload, -, h⟩ := bind_eq_ok.1 h
    obtain ⟨outcome, -, h⟩ := bind_eq_ok.1 h
    obtain ⟨proposal, -, h⟩ := bind_eq_ok.1 h
    obtain ⟨response, -, h⟩ := bind_eq_ok.1 h
    split at h
    · cases h
    · obtain ⟨done, -, h⟩ := bind_eq_ok.1 h
      obtain ⟨invocation, -, h⟩ := bind_eq_ok.1 h
      cases h
      rfl
  · cases h

/-- A decoded transaction has the header of its envelope. -/
theorem channelHeader_of_decodeTransaction {raw : Bytes} {t : Decoded}
    (h : decodeTransaction raw = .ok t) : decodeChannelHeader raw = .ok t.channelHeader := by
  obtain ⟨payload, hpayload, h⟩ := bind_eq_ok.1 h
  obtain ⟨header, hheader, h⟩ := bind_eq_ok.1 h
  have ht : t.channelHeader = header := by
    split at h
    · exact channelHeader_of_decodeEndorsed h
    · cases h
      rfl
  rw [decodeChannelHeader, hpayload, ok_bind, hheader, ht]

namespace Block

variable {b : Block} {i : Nat} {raw : Bytes}

theorem mem_transactions : (i, raw) ∈ b.transactions ↔ b.slots[i]? = some raw ∧ raw ≠ [] := by
  simp [transactions, List.mem_filter, List.mem_zipIdx_iff_getElem?]

theorem lt_length_of_mem_transactions {p : Nat × Bytes} (h : p ∈ b.transactions) :
    p.1 < b.slots.length :=
  (List.getElem?_eq_some_iff.1 (mem_transactions.1 h).1).1

theorem pairwise_transactions (b : Block) : b.transactions.Pairwise fun p q => p.1 < q.1 := by
  refine List.Pairwise.filter _ ?_
  rw [List.pairwise_map]
  exact pairwise_zipIdx b.slots

/-- Slots in front of a listed one have smaller positions, those behind it have greater ones. -/
theorem lt_of_transactions_eq {before behind : List (Nat × Bytes)} {p : Nat × Bytes}
    (h : b.transactions = before ++ p :: behind) :
    (∀ q ∈ before, q.1 < p.1) ∧ ∀ q ∈ behind, p.1 < q.1 := by
  have hsorted := b.pairwise_transactions
  rw [h, List.pairwise_append, List.pairwise_cons] at hsorted
  obtain ⟨-, ⟨hbehind, -⟩, hbefore⟩ := hsorted
  exact ⟨fun q hq => hbefore q hq p List.mem_cons_self, hbehind⟩

/-- A transaction is found in the first slot whose header has its id. -/
theorem findAmong_eq_some_iff {id : String} {slots : List (Nat × Bytes)} {t : Decoded} :
    findAmong id slots = .ok (some (i, t)) ↔ ∃ before raw behind,
      slots = before ++ (i, raw) :: behind ∧
      (∀ p ∈ before, ∃ header, decodeChannelHeader p.2 = .ok header ∧ header.txId ≠ id) ∧
      t.txId = id ∧ decodeTransaction raw = .ok t := by
  induction slots with
  | nil => simp [findAmong]
  | cons p rest ih =>
    obtain ⟨slot, first⟩ := p
    rw [findAmong]
    constructor
    · intro h
      obtain ⟨header, hheader, h⟩ := bind_eq_ok.1 h
      split at h
      · next hid =>
        -- the whole transaction is read once more, from the start of the same bytes
        obtain ⟨found, hfound, h⟩ := bind_eq_ok.1 h
        cases h
        have hsame := channelHeader_of_decodeTransaction hfound
        rw [hheader] at hsame
        refine ⟨[], first, rest, rfl, by simp, ?_, hfound⟩
        rw [Decoded.txId, ← Except.ok.inj hsame, hid]
      · next hid =>
        obtain ⟨before, raw, behind, rfl, hbefore, hfound⟩ := ih.1 h
        exact ⟨(slot, first) :: before, raw, behind, rfl,
          List.forall_mem_cons.2 ⟨⟨header, hheader, hid⟩, hbefore⟩, hfound⟩
    · rintro ⟨before, raw, behind, heq, hbefore, hid, hfound⟩
      cases before with
      | nil =>
        obtain ⟨⟨rfl, rfl⟩, rfl⟩ := by simpa using heq
        rw [Decoded.txId] at hid
        rw [channelHeader_of_decodeTransaction hfound, ok_bind, if_pos hid, hfound]
        rfl
      | cons q before =>
        obtain ⟨rfl, rfl⟩ := List.cons.inj heq
        obtain ⟨⟨header, hheader, hne⟩, hbefore⟩ := List.forall_mem_cons.1 hbefore
        rw [hheader, ok_bind, if_neg hne]
        exact ih.2 ⟨before, raw, behind, rfl, hbefore, hid, hfound⟩

/-- What is found under an id is the first slot with that id. -/
theorem findTransaction_first {header : ChannelHeader} {j : Nat} {t : Decoded}
    (hslot : b.slots[i]? = some raw) (hraw : raw ≠ [])
    (hheader : decodeChannelHeader raw = .ok header)
    (hfirst : ∀ k < i, ∀ other, b.slots[k]? = some other → other ≠ [] →
      ∀ h, decodeChannelHeader other = .ok h → h.txId ≠ header.txId)
    (h : b.findTransaction header.txId = .ok (some (j, t))) :
    j = i ∧ decodeTransaction raw = .ok t := by
  obtain ⟨before, found, behind, heq, hbefore, hid, hfound⟩ := findAmong_eq_some_iff.1 h
  have hi : (i, raw) ∈ b.transactions := mem_transactions.2 ⟨hslot, hraw⟩
  have hj : (j, found) ∈ b.transactions := by simp [heq]
  rw [heq, List.mem_append, List.mem_cons] at hi
  rcases hi with hi | hi | hi
  · -- a slot in front of the one found has another id
    obtain ⟨other, hother, hne⟩ := hbefore _ hi
    rw [hheader] at hother
    cases hother
    exact absurd rfl hne
  · cases hi
    exact ⟨rfl, hfound⟩
  · -- the one found would be an earlier slot with the same id
    obtain ⟨hslot, hne⟩ := mem_transactions.1 hj
    exact absurd hid (hfirst j ((lt_of_transactions_eq heq).2 _ hi) found hslot hne _
      (channelHeader_of_decodeTransaction hfound))

end Block

end LedgerBridge.Ledger
