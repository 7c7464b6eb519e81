import LedgerBridge.Eth.Place
import LedgerBridge.Proofs.Hex.Mark

/-!
# What a bloom holds

The bits of a bloom are those of the values added to it, no more and no less, and they are found
again in its text.

* `has_accrueAll`: the bits after some values;
* `ofBytes` is the bloom of 256 bytes; `ofBytes_bytes` and `parse_text` lead from the text back to
  the bloom;
* `has_logsBloom` and `contains_logsBloom`: what the bloom of some events holds.
-/

namespace LedgerBridge

namespace Eth

namespace Bloom

variable {b c : Bloom} {p : Nat} {value : Bytes} {values : List Bytes}

/-! ### Bits -/

theorem has_of_le (h : 2048 ≤ p) : b.has p = false := BitVec.getLsbD_of_ge b.bits p h

theorem ext_has (h : ∀ p, b.has p = c.has p) : b = c := by
  obtain ⟨bits⟩ := b
  obtain ⟨bits'⟩ := c
  exact congrArg mk (BitVec.eq_of_getLsbD_eq fun p _ => h p)

theorem has_foldl_set {ps : List Nat} (hps : ∀ q ∈ ps, q < 2048) :
    (ps.foldl set b).has p ↔ b.has p ∨ p ∈ ps := by
  induction ps generalizing b with
  | nil => simp
  | cons q ps ih =>
    obtain ⟨hq, hps⟩ := List.forall_mem_cons.1 hps
    rw [List.foldl_cons, ih hps, List.mem_cons, ← or_assoc]
    refine or_congr_left ?_
    by_cases hp : p < 2048
    · simp [hp]
    · rw [has_of_le (Nat.not_lt.1 hp), has_of_le (Nat.not_lt.1 hp)]
      simp only [Bool.false_eq_true, false_or, false_iff]
      omega

theorem has_accrueHash {hash : Bytes} : (b.accrueHash hash).has p ↔ b.has p ∨ p ∈ bitsOf hash :=
  has_foldl_set fun _ => lt_of_mem_bitsOf

theorem has_foldl_accrueHash {hashes : List Bytes} :
    (hashes.foldl accrueHash b).has p ↔ b.has p ∨ ∃ hash ∈ hashes, p ∈ bitsOf hash := by
  induction hashes generalizing b with
  | nil => simp
  | cons hash hashes ih =>
    rw [List.foldl_cons, ih, has_accrueHash]
    simp [or_assoc]

theorem accrueAll_eq (b : Bloom) (values : List Bytes) :
    b.accrueAll values = (values.map Keccak.hash256).foldl accrueHash b := by
  rw [List.foldl_map]
  rfl

/-- **The bits of a bloom are those of its values.** -/
theorem has_accrueAll :
    (b.accrueAll values).has p ↔ b.has p ∨ ∃ value ∈ values, p ∈ positions value := by
  rw [accrueAll_eq, has_foldl_accrueHash]
  simp [positions]

theorem contains_accrueAll (h : value ∈ values) : (b.accrueAll values).contains value := by
  rw [contains, containsHash, List.all_eq_true]
  exact fun p hp => has_accrueAll.2 (.inr ⟨value, h, hp⟩)

/-! ### Bytes -/

/-- The bloom whose bits are those of 256 bytes, bit 0 in the last one. -/
def ofBytes (bytes : Bytes) : Bloom :=
  ⟨BitVec.ofNat 2048 (bytes.foldl (fun n byte => n * 256 + byte.toNat) 0)⟩

@[simp] theorem length_bytes (b : Bloom) : b.bytes.length = 256 := by simp [bytes]

theorem bytes_empty : empty.bytes = List.replicate 256 0 := by
  refine List.eq_replicate_iff.2 ⟨length_bytes _, fun byte hbyte => ?_⟩
  obtain ⟨i, -, rfl⟩ := List.mem_map.1 hbyte
  have hbits : empty.bits.toNat = 0 := BitVec.toNat_zero
  rw [hbits, Nat.zero_shiftRight]
  rfl

/-- The first `k` of the `m` bytes of some bits are the number they spell without the others. -/
theorem foldl_bytes {width m : Nat} (bits : BitVec width) (hwidth : width = 8 * m) {k : Nat}
    (hk : k ≤ m) :
    ((List.range k).map fun i => UInt8.ofNat (bits.toNat >>> (8 * (m - 1 - i)))).foldl
      (fun n byte => n * 256 + byte.toNat) 0 = bits.toNat >>> (8 * (m - k)) := by
  induction k with
  | zero => simp [Nat.shiftRight_eq_div_pow, ← hwidth, Nat.div_eq_of_lt bits.isLt]
  | succ k ih =>
    obtain ⟨j, rfl⟩ : ∃ j, m = j + k + 1 := ⟨m - k - 1, by omega⟩
    have hbyte : j + k + 1 - 1 - k = j := by omega
    have hfront : 8 * (j + k + 1 - k) = 8 * j + 8 := by omega
    have hbehind : j + k + 1 - (k + 1) = j := by omega
    rw [List.range_succ, List.map_append, List.foldl_append, ih (by omega), hfront, hbehind]
    simp only [List.map_cons, List.map_nil, List.foldl_cons, List.foldl_nil, hbyte,
      UInt8.toNat_ofNat', Nat.shiftRight_add]
    omega

/-- A bloom is found again in its bytes. -/
theorem ofBytes_bytes (b : Bloom) : ofBytes b.bytes = b := by
  have h := foldl_bytes (m := 256) b.bits rfl le_rfl
  rw [ofBytes, bytes, h, Nat.sub_self, Nat.mul_zero, Nat.shiftRight_zero, BitVec.ofNat_toNat,
    BitVec.setWidth_eq]

theorem parse_text (b : Bloom) : FixedHex.parse 256 b.text = .ok ⟨b.bytes, b.length_bytes⟩ :=
  FixedHex.parse_text (by decide) ⟨b.bytes, b.length_bytes⟩

end Bloom

/-! ### Events -/

/-- An event adds its address and its topics, as far as they are well formed. -/
theorem mem_bloomValues {event : Ledger.EventRecord} {value : Bytes} :
    value ∈ bloomValues event ↔
      (∃ v, FixedHex.parse 20 event.address = .ok v ∧ v.bytes = value) ∨
        ∃ topic ∈ event.topics, ∃ v, FixedHex.parse 32 topic = .ok v ∧ v.bytes = value := by
  simp only [bloomValues, List.mem_append, Option.mem_toList, List.mem_filterMap,
    Option.map_eq_some_iff, toOption_eq_some]

/-- A bloom has a value exactly of the events it was made of. -/
theorem has_logsBloom {events : List Ledger.EventRecord} {p : Nat} :
    (logsBloom events).has p ↔
      ∃ event ∈ events, ∃ value ∈ bloomValues event, p ∈ Bloom.positions value := by
  simp only [logsBloom, Bloom.has_accrueAll, Bloom.has_empty, Bool.false_eq_true, false_or,
    List.mem_flatMap]
  constructor
  · rintro ⟨value, ⟨event, hevent, hvalue⟩, hp⟩
    exact ⟨event, hevent, value, hvalue, hp⟩
  · rintro ⟨event, hevent, value, hvalue, hp⟩
    exact ⟨value, ⟨event, hevent, hvalue⟩, hp⟩

theorem contains_logsBloom {events : List Ledger.EventRecord} {event : Ledger.EventRecord}
    {value : Bytes} (hevent : event ∈ events) (hvalue : value ∈ bloomValues event) :
    (logsBloom events).contains value :=
  Bloom.contains_accrueAll (List.mem_flatMap.2 ⟨event, hevent, hvalue⟩)

end Eth

end LedgerBridge
