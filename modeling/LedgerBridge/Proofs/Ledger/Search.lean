import LedgerBridge.Proofs.Ledger.Block
import LedgerBridge.Proofs.Ledger.Chain

/-!
# Searching a block

A search for an id goes through the slots of a block in order. It passes by empty slots and by those
whose header gives another id, and it ends at the first slot that it cannot pass by, which it reads
whole: either the header there gives the id, or it cannot be read.

* `Block.PassedBy`, `Block.Ends`: the slots on the way, and the one where a search ends. A search
  ends somewhere or passes by all slots (`exists_ends_or`);
* `findTransaction_of_ends`, `findTransaction_of_passedBy`: what comes out of it;
* `findTransaction_outcome`: when a transaction is found, when there is none, and with which error a
  search fails; what stands behind the slot where it ends does not matter.
-/

namespace LedgerBridge.Ledger

/-- An envelope whose header cannot be read cannot be read whole, for the same reason. -/
theorem decodeTransaction_of_header_error {raw : Bytes} {e : DecodeError}
    (h : decodeChannelHeader raw = .error e) : decodeTransaction raw = .error e := by
  unfold decodeChannelHeader at h
  unfold decodeTransaction
  rcases bind_eq_error.1 h with hpayload | ⟨payload, hpayload, hheader⟩
  · rw [hpayload, error_bind]
  · rw [hpayload, ok_bind, hheader, error_bind]

/-- Nothing is the envelope of a payload without a header. -/
theorem decodeChannelHeader_nil : decodeChannelHeader [] = .error .missingHeader := rfl

namespace Block

/-- A search for an id goes on behind a slot that is empty or whose header gives another id. -/
def PassedBy (id : String) (raw : Bytes) : Prop :=
  raw ≠ [] → ∃ header, decodeChannelHeader raw = .ok header ∧ header.txId ≠ id

/-- A search for an id ends at a slot: it passes by all slots in front, but not by this one. -/
structure Ends (b : Block) (id : String) (i : Nat) (raw : Bytes) : Prop where
  slot : b.slots[i]? = some raw
  before : ∀ other ∈ b.slots.take i, PassedBy id other
  here : ¬ PassedBy id raw

variable {b : Block} {id : String} {i : Nat} {raw : Bytes} {header : ChannelHeader}

theorem passedBy_nil : PassedBy id [] := fun h => absurd rfl h

theorem passedBy_iff (h : decodeChannelHeader raw = .ok header) :
    PassedBy id raw ↔ header.txId ≠ id := by
  have hne : raw ≠ [] := by
    rintro rfl
    rw [decodeChannelHeader_nil] at h
    cases h
  constructor
  · intro hpassed
    obtain ⟨other, hother, hid⟩ := hpassed hne
    rw [h] at hother
    cases hother
    exact hid
  · intro hid _
    exact ⟨header, h, hid⟩

/-- A search cannot pass by a slot whose header cannot be read. -/
theorem not_passedBy_of_error {e : DecodeError} (hne : raw ≠ [])
    (h : decodeChannelHeader raw = .error e) : ¬ PassedBy id raw := by
  intro hpassed
  obtain ⟨header, hheader, -⟩ := hpassed hne
  rw [h] at hheader
  cases hheader

/-- A slot that a search cannot pass by: its header cannot be read, or gives the id. -/
theorem header_of_not_passedBy (h : ¬ PassedBy id raw) :
    (∃ e, decodeChannelHeader raw = .error e) ∨
      ∃ header, decodeChannelHeader raw = .ok header ∧ header.txId = id := by
  cases hheader : decodeChannelHeader raw with
  | error e => exact .inl ⟨e, rfl⟩
  | ok header =>
    rw [passedBy_iff hheader, not_not] at h
    exact .inr ⟨header, rfl, h⟩

theorem Ends.ne_nil (h : b.Ends id i raw) : raw ≠ [] := by
  rintro rfl
  exact h.here passedBy_nil

/-! ### The way of a search -/

/-- A search ends at some slot, or it passes by all of them. -/
theorem exists_ends_or (b : Block) (id : String) :
    (∃ i raw, b.Ends id i raw) ∨ ∀ raw ∈ b.slots, PassedBy id raw := by
  have hrun (l : List Bytes) : (∃ i raw, l[i]? = some raw ∧
      (∀ other ∈ l.take i, PassedBy id other) ∧ ¬ PassedBy id raw) ∨
      ∀ raw ∈ l, PassedBy id raw := by
    induction l with
    | nil => exact .inr (by simp)
    | cons raw l ih =>
      by_cases hraw : PassedBy id raw
      · rcases ih with ⟨i, other, hslot, hbefore, hhere⟩ | hall
        · exact .inl ⟨i + 1, other, hslot, List.forall_mem_cons.2 ⟨hraw, hbefore⟩, hhere⟩
        · exact .inr (List.forall_mem_cons.2 ⟨hraw, hall⟩)
      · exact .inl ⟨0, raw, rfl, by simp, hraw⟩
  rcases hrun b.slots with ⟨i, raw, hslot, hbefore, hhere⟩ | hall
  · exact .inl ⟨i, raw, hslot, hbefore, hhere⟩
  · exact .inr hall

/-- A search ends at one slot only. -/
theorem Ends.unique {j : Nat} {other : Bytes} (h : b.Ends id i raw) (h' : b.Ends id j other) :
    j = i ∧ other = raw := by
  have hnot {i j : Nat} {raw other : Bytes} (h : b.Ends id i raw) (h' : b.Ends id j other) :
      ¬ i < j := by
    intro hij
    refine h.here (h'.before raw (List.mem_of_getElem? (i := i) ?_))
    rw [List.getElem?_take_of_lt hij, h.slot]
  obtain rfl : j = i := Nat.le_antisymm (not_lt.1 (hnot h h')) (not_lt.1 (hnot h' h))
  exact ⟨rfl, Option.some.inj (h'.slot.symm.trans h.slot)⟩

/-- Where a search ends is decided by the slots up to there. -/
theorem Ends.of_take {b' : Block} (h : b.Ends id i raw)
    (hsame : b'.slots.take (i + 1) = b.slots.take (i + 1)) : b'.Ends id i raw := by
  constructor
  case slot =>
    rw [← List.getElem?_take_of_lt (Nat.lt_succ_self i), hsame,
      List.getElem?_take_of_lt (Nat.lt_succ_self i), h.slot]
  case before =>
    have htake : b'.slots.take i = b.slots.take i := by
      have := congrArg (List.take i) hsame
      simpa [List.take_take] using this
    rw [htake]
    exact h.before
  case here => exact h.here

/-! ### What comes out of it -/

/-- A step of a search: a slot that it passes by is of no account. -/
theorem findAmong_append_of_passedBy {slots : List (Nat × Bytes)}
    (h : ∀ p ∈ slots, p.2 ≠ [] ∧ PassedBy id p.2) (rest : List (Nat × Bytes)) :
    findAmong id (slots ++ rest) = findAmong id rest := by
  induction slots with
  | nil => rfl
  | cons p slots ih =>
    obtain ⟨⟨hne, hpassed⟩, h⟩ := List.forall_mem_cons.1 h
    obtain ⟨header, hheader, hid⟩ := hpassed hne
    rw [List.cons_append, findAmong, hheader, ok_bind, if_neg hid, ih h]

/-- At its end a search reads a slot whole. -/
theorem findAmong_cons_of_not_passedBy (h : ¬ PassedBy id raw) (rest : List (Nat × Bytes)) :
    findAmong id ((i, raw) :: rest) = (fun t => some (i, t)) <$> decodeTransaction raw := by
  rw [findAmong]
  rcases header_of_not_passedBy h with ⟨e, hheader⟩ | ⟨header, hheader, hid⟩
  · rw [hheader, decodeTransaction_of_header_error hheader]
    rfl
  · rw [hheader, ok_bind, if_pos hid]
    cases decodeTransaction raw <;> rfl

/-- The slots of a list that are not empty, with the positions they have when the list starts at
`k`. -/
theorem mem_filter_zipIdx {l : List Bytes} {k : Nat} {p : Nat × Bytes}
    (h : p ∈ ((l.zipIdx k).map Prod.swap).filter fun p => p.2 ≠ []) : p.2 ∈ l ∧ p.2 ≠ [] := by
  obtain ⟨hmem, hne⟩ := List.mem_filter.1 h
  obtain ⟨q, hq, rfl⟩ := List.mem_map.1 hmem
  exact ⟨List.fst_mem_of_mem_zipIdx hq, by simpa using hne⟩

theorem findTransaction_of_passedBy (h : ∀ raw ∈ b.slots, PassedBy id raw) :
    b.findTransaction id = .ok none := by
  have hall : ∀ p ∈ b.transactions, p.2 ≠ [] ∧ PassedBy id p.2 := by
    intro p hp
    obtain ⟨hmem, hne⟩ := mem_filter_zipIdx hp
    exact ⟨hne, h p.2 hmem⟩
  have hrun := findAmong_append_of_passedBy hall []
  rw [List.append_nil] at hrun
  exact hrun

theorem findTransaction_of_ends (h : b.Ends id i raw) :
    b.findTransaction id = (fun t => some (i, t)) <$> decodeTransaction raw := by
  obtain ⟨hi, hraw⟩ := List.getElem?_eq_some_iff.1 h.slot
  have hslots : b.slots = b.slots.take i ++ raw :: b.slots.drop (i + 1) := by
    rw [← hraw, ← List.drop_eq_getElem_cons, List.take_append_drop]
  have hlen : (b.slots.take i).length = i := List.length_take_of_le hi.le
  -- the listed slots in front are those of the slots in front, and the slot itself has its position
  have htransactions : b.transactions =
      (((b.slots.take i).zipIdx.map Prod.swap).filter fun p => p.2 ≠ []) ++ (i, raw) ::
        (((b.slots.drop (i + 1)).zipIdx (i + 1)).map Prod.swap).filter fun p => p.2 ≠ [] := by
    unfold transactions
    conv_lhs => rw [hslots]
    rw [List.zipIdx_append, List.map_append, List.filter_append, hlen, List.zipIdx_cons,
      List.map_cons, List.filter_cons_of_pos (by simpa using h.ne_nil), Nat.zero_add]
    rfl
  have hfront : ∀ p ∈ ((b.slots.take i).zipIdx.map Prod.swap).filter fun p => p.2 ≠ [],
      p.2 ≠ [] ∧ PassedBy id p.2 := by
    intro p hp
    obtain ⟨hmem, hne⟩ := mem_filter_zipIdx hp
    exact ⟨hne, h.before p.2 hmem⟩
  show findAmong id b.transactions = _
  rw [htransactions, findAmong_append_of_passedBy hfront, findAmong_cons_of_not_passedBy h.here]

theorem findTransaction_eq_some_iff {t : Decoded} :
    b.findTransaction id = .ok (some (i, t)) ↔ ∃ raw header, b.slots[i]? = some raw ∧ raw ≠ [] ∧
      decodeChannelHeader raw = .ok header ∧ header.txId = id ∧
      (∀ other ∈ b.slots.take i, PassedBy id other) ∧ decodeTransaction raw = .ok t := by
  constructor
  · intro h
    rcases exists_ends_or b id with ⟨j, raw, hends⟩ | hall
    · rw [findTransaction_of_ends hends] at h
      obtain ⟨t', ht, heq⟩ := map_eq_ok.1 h
      cases heq
      have hheader := channelHeader_of_decodeTransaction ht
      have hid := hends.here
      rw [passedBy_iff hheader, not_not] at hid
      exact ⟨raw, _, hends.slot, hends.ne_nil, hheader, hid, hends.before, ht⟩
    · rw [findTransaction_of_passedBy hall] at h
      cases h
  · rintro ⟨raw, header, hslot, -, hheader, hid, hbefore, ht⟩
    have hends : b.Ends id i raw := ⟨hslot, hbefore, by simp [passedBy_iff hheader, hid]⟩
    rw [findTransaction_of_ends hends, ht, map_ok]

theorem findTransaction_eq_none_iff :
    b.findTransaction id = .ok none ↔ ∀ raw ∈ b.slots, PassedBy id raw := by
  constructor
  · intro h
    rcases exists_ends_or b id with ⟨i, raw, hends⟩ | hall
    · rw [findTransaction_of_ends hends] at h
      obtain ⟨t, -, heq⟩ := map_eq_ok.1 h
      cases heq
    · exact hall
  · exact findTransaction_of_passedBy

theorem findTransaction_eq_error_iff {e : DecodeError} :
    b.findTransaction id = .error e ↔ ∃ i raw, b.slots[i]? = some raw ∧ raw ≠ [] ∧
      (∀ other ∈ b.slots.take i, PassedBy id other) ∧
      (decodeChannelHeader raw = .error e ∨ ∃ header, decodeChannelHeader raw = .ok header ∧
        header.txId = id ∧ decodeTransaction raw = .error e) := by
  constructor
  · intro h
    rcases exists_ends_or b id with ⟨i, raw, hends⟩ | hall
    · rw [findTransaction_of_ends hends, map_eq_error] at h
      refine ⟨i, raw, hends.slot, hends.ne_nil, hends.before, ?_⟩
      rcases header_of_not_passedBy hends.here with ⟨e', hheader⟩ | ⟨header, hheader, hid⟩
      · rw [decodeTransaction_of_header_error hheader] at h
        cases h
        exact .inl hheader
      · exact .inr ⟨header, hheader, hid, h⟩
    · rw [findTransaction_of_passedBy hall] at h
      cases h
  · rintro ⟨i, raw, hslot, hne, hbefore, hheader | ⟨header, hheader, hid, he⟩⟩
    · have hends : b.Ends id i raw := ⟨hslot, hbefore, not_passedBy_of_error hne hheader⟩
      rw [findTransaction_of_ends hends, decodeTransaction_of_header_error hheader, map_error]
    · have hends : b.Ends id i raw := ⟨hslot, hbefore, by simp [passedBy_iff hheader, hid]⟩
      rw [findTransaction_of_ends hends, he, map_error]

/-- What stands behind a slot with the id does not matter. -/
theorem findTransaction_congr {b' : Block} (hslot : b.slots[i]? = some raw)
    (hheader : decodeChannelHeader raw = .ok header) (hid : header.txId = id)
    (hsame : b'.slots.take (i + 1) = b.slots.take (i + 1)) :
    b'.findTransaction id = b.findTransaction id := by
  rcases exists_ends_or b id with ⟨j, other, hends⟩ | hall
  · -- the search ends there or in front of it
    have hle : j ≤ i := by
      by_contra hlt
      have hmem : raw ∈ b.slots.take j :=
        List.mem_of_getElem? (i := i) (by rw [List.getElem?_take_of_lt (by omega), hslot])
      exact (passedBy_iff hheader).1 (hends.before raw hmem) hid
    have hsame : b'.slots.take (j + 1) = b.slots.take (j + 1) := by
      have := congrArg (List.take (j + 1)) hsame
      simpa [List.take_take, Nat.min_eq_left (Nat.succ_le_succ hle)] using this
    rw [findTransaction_of_ends hends, findTransaction_of_ends (hends.of_take hsame)]
  · exact absurd hid ((passedBy_iff hheader).1 (hall raw (List.mem_of_getElem? hslot)))

/-- **Where a transaction is found.** It is found in a slot if the header there gives its id, all
slots in front are empty or have other ids in their headers, and the slot can be read whole. Nothing
is found if all slots are empty or have other ids. Otherwise the search fails with what is wrong in
the first slot whose header cannot be read or gives the id. What stands behind a slot with the id
does not matter, the position counts all slots, and what is found has the id. -/
theorem findTransaction_outcome (b : Block) (id : String) :
    (∀ i t, b.findTransaction id = .ok (some (i, t)) ↔
      ∃ raw header, b.slots[i]? = some raw ∧ raw ≠ [] ∧
        decodeChannelHeader raw = .ok header ∧ header.txId = id ∧
        (∀ other ∈ b.slots.take i, PassedBy id other) ∧ decodeTransaction raw = .ok t) ∧
    (b.findTransaction id = .ok none ↔ ∀ raw ∈ b.slots, PassedBy id raw) ∧
    (∀ e, b.findTransaction id = .error e ↔ ∃ i raw, b.slots[i]? = some raw ∧ raw ≠ [] ∧
      (∀ other ∈ b.slots.take i, PassedBy id other) ∧
      (decodeChannelHeader raw = .error e ∨ ∃ header, decodeChannelHeader raw = .ok header ∧
        header.txId = id ∧ decodeTransaction raw = .error e)) ∧
    (∀ (b' : Block) i raw header, b.slots[i]? = some raw → decodeChannelHeader raw = .ok header →
      header.txId = id → b'.slots.take (i + 1) = b.slots.take (i + 1) →
      b'.findTransaction id = b.findTransaction id) ∧
    ∀ i t, b.findTransaction id = .ok (some (i, t)) →
      (b.slots.take i).length = i ∧ t.channelHeader.txId = id := by
  refine ⟨fun _ _ => findTransaction_eq_some_iff, findTransaction_eq_none_iff,
    fun _ => findTransaction_eq_error_iff,
    fun _ _ _ _ hslot hheader hid => findTransaction_congr hslot hheader hid, ?_⟩
  intro i t h
  obtain ⟨raw, header, hslot, -, hheader, hid, -, ht⟩ := findTransaction_eq_some_iff.1 h
  obtain ⟨hi, -⟩ := List.getElem?_eq_some_iff.1 hslot
  have hsame := channelHeader_of_decodeTransaction ht
  rw [hheader] at hsame
  cases hsame
  exact ⟨List.length_take_of_le hi.le, hid⟩

/-- A transaction behind an empty slot and one of another kind, in a block that goes on with bytes
which cannot be read. -/
theorem findTransaction_outcome_broken :
    let front := [[], configEnvelope "genesis", (Content.endorsed "a1" [] [] []).raw]
    let b : Block := { data := some { data := front } }
    let broken : Block := { data := some { data := front ++ [[0xff]] } }
    (∃ t, b.findTransaction "a1" = .ok (some (2, t)) ∧ t.channelHeader.txId = "a1") ∧
    broken.findTransaction "a1" = b.findTransaction "a1" ∧
    b.findTransaction "a2" = .ok none ∧
    broken.findTransaction "a2" = .error (.protobuf .envelope { cause := .invalidVarint }) := by
  intro front b broken
  have hfound : b.findTransaction "a1" = .ok (some (2, {
      channelHeader := headerOf endorserTransactionType "a1"
      events := chaincodeEvent (payloadOfEvents []) })) := by
    decide +kernel
  obtain ⟨hsome, -, -, hbehind, hgiven⟩ := findTransaction_outcome b "a1"
  obtain ⟨raw, header, hslot, -, hheader, hid, -⟩ := (hsome 2 _).1 hfound
  exact ⟨⟨_, hfound, (hgiven 2 _ hfound).2⟩, hbehind broken 2 raw header hslot hheader hid rfl,
    by decide +kernel, by decide +kernel⟩

end Block

end LedgerBridge.Ledger
