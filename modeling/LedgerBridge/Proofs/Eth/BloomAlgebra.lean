import LedgerBridge.Proofs.Eth.Bloom

/-!
# The algebra of blooms

A bloom is the union of the bits that its values choose, whatever function hashes them.

* `Bloom.IsPosition hash p`: the position `p` is one of the three that a hash chooses.
  `Bloom.mem_bitsOf_iff`: these are the bits that are set for it;
* `Bloom.bytes_accrueHash`: among the 256 bytes, with bit 0 in the last one, a hash sets each of its
  bits by a mask in one byte. `Bloom.testBit_bytes`: a bit of the bloom is one of these bits;
* `Bloom.Holds bytes value`: the three bits of a value are set in the bytes of a bloom.
  `Bloom.holds_bytes_iff`: this is what a bloom answers when it is asked for the value;
* `Bloom.of hash values`: the bloom of some values. `Bloom.has_of`: its bits;
* `Bloom.Laws` and `Bloom.laws`: what follows for every hash function.
-/

namespace LedgerBridge.Eth.Bloom

variable {b : Bloom} {p : Nat}

/-! ### Positions -/

/-- One of the three positions that a hash chooses, each by the low eleven bits of two of its
bytes. -/
def IsPosition (hash : Bytes) (p : Nat) : Prop :=
  ∃ i ∈ [0, 2, 4], ∃ high low : UInt8, hash[i]? = some high ∧ hash[i + 1]? = some low ∧
    p = (high.toNat * 2 ^ 8 + low.toNat) % 2 ^ 11

theorem mem_bitsOf_iff {hash : Bytes} (h : hash.length = 32) :
    p ∈ bitsOf hash ↔ IsPosition hash p := by
  have hget {i : Nat} (hi : i < 32) : hash[i]? = some (hash.getD i 0) := by
    rw [List.getD_eq_getElem?_getD, List.getElem?_eq_getElem (h ▸ hi), Option.getD_some]
  have hindex : ∀ i ∈ [0, 2, 4], i + 1 < 32 := by decide
  simp only [bitsOf, IsPosition, List.mem_map]
  refine exists_congr fun i => and_congr_right fun hi => ?_
  rw [hget (hindex i hi), hget ((Nat.lt_succ_self i).trans (hindex i hi))]
  constructor
  · intro hp
    exact ⟨_, _, rfl, rfl, hp.symm⟩
  · rintro ⟨high, low, hhigh, hlow, hp⟩
    rw [Option.some.inj hhigh, Option.some.inj hlow]
    exact hp.symm

theorem length_bitsOf (hash : Bytes) : (bitsOf hash).length = 3 := rfl

theorem IsPosition.lt {hash : Bytes} (h : IsPosition hash p) : p < 2048 := by
  obtain ⟨i, -, high, low, -, -, rfl⟩ := h
  exact Nat.mod_lt _ (by decide)

/-! ### Bytes -/

/-- The byte with the bit of a position, among those of a bloom. -/
def byteIndex (p : Nat) : Nat := 255 - p / 8

/-- The bit of a position in its byte. -/
def mask (p : Nat) : UInt8 := 1 <<< UInt8.ofNat (p % 8)

/-- The bytes of a bloom with one more bit. -/
def setByte (bytes : Bytes) (p : Nat) : Bytes := bytes.modify (byteIndex p) (· ||| mask p)

theorem eq_of_testBit {x y : UInt8} (h : ∀ j < 8, x.toNat.testBit j = y.toNat.testBit j) :
    x = y := by
  apply UInt8.toNat_inj.1
  apply Nat.eq_of_testBit_eq
  intro j
  by_cases hj : j < 8
  · exact h j hj
  · have hpow : 2 ^ 8 ≤ 2 ^ j := Nat.pow_le_pow_right (by decide) (Nat.not_lt.1 hj)
    rw [Nat.testBit_lt_two_pow (x.toNat_lt.trans_le hpow),
      Nat.testBit_lt_two_pow (y.toNat_lt.trans_le hpow)]

theorem testBit_mask {j : Nat} (hj : j < 8) : (mask p).toNat.testBit j = decide (j = p % 8) := by
  have hbits : ∀ k < 8, ∀ j < 8,
      ((1 : UInt8) <<< UInt8.ofNat k).toNat.testBit j = decide (j = k) := by decide
  exact hbits _ (Nat.mod_lt p (by decide)) j hj

/-- The bytes of a bloom hold its bits, eight in each, the last byte the first ones. -/
theorem testBit_byte (bits : BitVec 2048) (i : Nat) {j : Nat} (hj : j < 8) :
    (UInt8.ofNat (bits.toNat >>> (8 * i))).toNat.testBit j = bits.getLsbD (8 * i + j) := by
  rw [UInt8.toNat_ofNat', Nat.testBit_mod_two_pow, Nat.testBit_shiftRight, BitVec.testBit_toNat]
  simp [hj]

theorem getElem?_bytes (b : Bloom) {i : Nat} (hi : i < 256) :
    b.bytes[i]? = some (UInt8.ofNat (b.bits.toNat >>> (8 * (255 - i)))) := by
  simp [bytes, hi]

/-- **A bit of the bloom is the bit of its position in the byte of its position.** -/
theorem testBit_bytes (b : Bloom) (hp : p < 2048) :
    ∃ byte, b.bytes[byteIndex p]? = some byte ∧ byte.toNat.testBit (p % 8) = b.has p := by
  refine ⟨_, getElem?_bytes b (by unfold byteIndex; omega), ?_⟩
  rw [testBit_byte _ _ (Nat.mod_lt p (by decide)), has]
  congr 1
  unfold byteIndex
  omega

theorem bytes_set (b : Bloom) (hp : p < 2048) : (b.set p).bytes = setByte b.bytes p := by
  apply List.ext_getElem?
  intro i
  rw [setByte, List.getElem?_modify]
  by_cases hi : i < 256
  · rw [getElem?_bytes _ hi, getElem?_bytes _ hi, Option.map_eq_map, Option.map_some]
    apply congrArg some
    apply eq_of_testBit
    intro j hj
    have hset : (b.set p).bits.getLsbD (8 * (255 - i) + j) =
        (b.bits.getLsbD (8 * (255 - i) + j) || decide (8 * (255 - i) + j = p)) :=
      has_set b p _ (by omega)
    rw [testBit_byte _ _ hj, hset]
    by_cases hindex : byteIndex p = i
    · have hbit : 8 * (255 - i) + j = p ↔ j = p % 8 := by
        unfold byteIndex at hindex
        omega
      rw [if_pos hindex, UInt8.toNat_or, Nat.testBit_or, testBit_byte _ _ hj, testBit_mask hj,
        decide_eq_decide.2 hbit]
    · have hother : 8 * (255 - i) + j ≠ p := by
        unfold byteIndex at hindex
        omega
      rw [if_neg hindex, testBit_byte _ _ hj, decide_eq_false hother, Bool.or_false]
  · have hlen (c : Bloom) : c.bytes.length ≤ i := by
      rw [length_bytes]
      omega
    rw [List.getElem?_eq_none (hlen _), List.getElem?_eq_none (hlen _)]
    rfl

/-- **A hash sets each of its bits in one byte.** By induction on its positions. -/
theorem bytes_accrueHash (b : Bloom) (hash : Bytes) :
    (b.accrueHash hash).bytes = (bitsOf hash).foldl setByte b.bytes := by
  have hbits : ∀ p ∈ bitsOf hash, p < 2048 := fun p hp => lt_of_mem_bitsOf hp
  unfold accrueHash
  generalize bitsOf hash = ps at hbits
  induction ps generalizing b with
  | nil => rfl
  | cons p ps ih =>
    obtain ⟨hp, hps⟩ := List.forall_mem_cons.1 hbits
    rw [List.foldl_cons, List.foldl_cons, ih _ hps, bytes_set b hp]

/-! ### Bits -/

theorem isEmpty_iff : b.isEmpty = true ↔ b = empty := by
  obtain ⟨bits⟩ := b
  simp [isEmpty, empty]

theorem bytes_injective {c : Bloom} (h : b.bytes = c.bytes) : b = c := by
  rw [← ofBytes_bytes b, h, ofBytes_bytes]

theorem isEmpty_iff_bytes : b.isEmpty = true ↔ ∀ byte ∈ b.bytes, byte = 0 := by
  rw [isEmpty_iff]
  constructor
  · rintro rfl byte hbyte
    rw [bytes_empty] at hbyte
    exact List.eq_of_mem_replicate hbyte
  · intro h
    apply bytes_injective
    rw [bytes_empty]
    exact List.eq_replicate_iff.2 ⟨length_bytes b, h⟩

theorem containsHash_iff {hash : Bytes} :
    b.containsHash hash = true ↔ ∀ p ∈ bitsOf hash, b.has p = true :=
  List.all_eq_true

/-- The bit of a position is set in bytes, of which the last one has the first bits. -/
def IsSet (bytes : Bytes) (p : Nat) : Prop :=
  ∃ byte, bytes[byteIndex p]? = some byte ∧ byte.toNat.testBit (p % 8) = true

theorem isSet_bytes_iff (hp : p < 2048) : IsSet b.bytes p ↔ b.has p = true := by
  obtain ⟨byte, hbyte, hbit⟩ := testBit_bytes b hp
  simp only [IsSet, hbyte, Option.some.injEq, exists_eq_left', hbit]

/-- The bits of the three positions of a value are set in bytes. -/
def Holds (bytes value : Bytes) : Prop :=
  ∀ p, IsPosition (Keccak.hash256 value) p → IsSet bytes p

theorem mem_positions_iff {value : Bytes} :
    p ∈ positions value ↔ IsPosition (Keccak.hash256 value) p :=
  mem_bitsOf_iff (Keccak.length_hash256 value)

theorem holds_bytes_iff {value : Bytes} : Holds b.bytes value ↔ b.contains value = true := by
  rw [contains, containsHash_iff]
  refine forall_congr' fun p => ?_
  rw [mem_bitsOf_iff (Keccak.length_hash256 value)]
  exact forall_congr' fun h => isSet_bytes_iff h.lt

theorem count_eq_length (b : Bloom) : b.count = ((List.range 2048).filter b.has).length :=
  List.countP_eq_length_filter

theorem mem_filter_has : p ∈ (List.range 2048).filter b.has ↔ b.has p = true := by
  rw [List.mem_filter, List.mem_range]
  refine ⟨fun h => h.2, fun h => ⟨?_, h⟩⟩
  by_contra hp
  rw [has_of_le (Nat.not_lt.1 hp)] at h
  cases h

theorem count_pos (h : b.has p = true) : 1 ≤ b.count := by
  rw [count_eq_length]
  exact List.length_pos_of_mem (mem_filter_has.2 h)

/-- No more bits are set than there are positions to choose from. -/
theorem count_le_length {ps : List Nat} (h : ∀ p, b.has p = true → p ∈ ps) :
    b.count ≤ ps.length := by
  have hnodup : ((List.range 2048).filter b.has).Nodup := List.nodup_range.filter _
  rw [count_eq_length]
  exact (hnodup.subperm fun p hp => h p (mem_filter_has.1 hp)).length_le

/-! ### The bloom of some values -/

/-- The bloom of some values, of which each is hashed. -/
def of (hash : Bytes → Bytes) (values : List Bytes) : Bloom :=
  (values.map hash).foldl accrueHash empty

variable {hash : Bytes → Bytes} {values : List Bytes}

/-- The program hashes with Keccak. -/
theorem of_hash256 (values : List Bytes) : of Keccak.hash256 values = empty.accrueAll values :=
  (accrueAll_eq empty values).symm

theorem has_of : (of hash values).has p = true ↔ ∃ value ∈ values, p ∈ bitsOf (hash value) := by
  rw [of, has_foldl_accrueHash]
  simp

/-- A bit that is set stays set. -/
theorem has_foldl_of_has {hashes : List Bytes} (h : b.has p = true) :
    (hashes.foldl accrueHash b).has p = true :=
  has_foldl_accrueHash.2 (.inl h)

theorem exists_mem_bitsOf (hash : Bytes) : ∃ p, p ∈ bitsOf hash :=
  List.exists_mem_of_length_pos (by rw [length_bitsOf]; decide)

theorem exists_has_of (h : values ≠ []) : ∃ p, (of hash values).has p = true := by
  obtain ⟨value, hvalue⟩ := List.exists_mem_of_ne_nil values h
  obtain ⟨p, hp⟩ := exists_mem_bitsOf (hash value)
  exact ⟨p, has_of.2 ⟨value, hvalue, hp⟩⟩

theorem isEmpty_of_iff : (of hash values).isEmpty = true ↔ values = [] := by
  rw [isEmpty_iff]
  constructor
  · intro h
    by_contra hne
    obtain ⟨p, hp⟩ := @exists_has_of hash values hne
    rw [h, has_empty] at hp
    cases hp
  · rintro rfl
    rfl

/-- Each of the different values sets at most three bits. -/
theorem count_of_le : (of hash values).count ≤ 3 * values.dedup.length := by
  have hlen : (values.dedup.flatMap fun value => bitsOf (hash value)).length =
      3 * values.dedup.length := by
    simp [List.length_flatMap, length_bitsOf, mul_comm]
  rw [← hlen]
  apply count_le_length
  intro p hp
  obtain ⟨value, hvalue, hp⟩ := has_of.1 hp
  exact List.mem_flatMap.2 ⟨value, List.mem_dedup.2 hvalue, hp⟩

/-- What holds of the blooms of a hash function. -/
structure Laws (hash : Bytes → Bytes) : Prop where
  /-- A value is found from the moment it is added. -/
  found (before behind : List Bytes) (value : Bytes) :
    (of hash (before ++ value :: behind)).containsHash (hash value) = true
  /-- Neither the order of the values nor how often each is added matters. -/
  order (values values' : List Bytes) (h : ∀ value, value ∈ values ↔ value ∈ values') :
    of hash values = of hash values'
  /-- The bits are the positions of the values. -/
  bits (values : List Bytes) (p : Nat) :
    (of hash values).has p = true ↔ ∃ value ∈ values, IsPosition (hash value) p
  /-- Each position is inside of the bytes, whose bits are those of the bloom. -/
  inside (value : Bytes) (p : Nat) (h : IsPosition (hash value) p) (b : Bloom) :
    ∃ byte, b.bytes[byteIndex p]? = some byte ∧ byte.toNat.testBit (p % 8) = b.has p
  /-- To add a value is to set the bits of its positions in the bytes. -/
  bytes (b : Bloom) (value : Bytes) :
    (b.accrueHash (hash value)).bytes = (bitsOf (hash value)).foldl setByte b.bytes
  count (values : List Bytes) (h : values ≠ []) : 1 ≤ (of hash values).count ∧
    (of hash values).count ≤ 3 * values.dedup.length
  isEmpty (values : List Bytes) : (of hash values).isEmpty = true ↔ values = []
  zero (b : Bloom) : b.isEmpty = true ↔ ∀ byte ∈ b.bytes, byte = 0
  contains (b : Bloom) (value : Bytes) : b.containsHash (hash value) = true ↔
    ∀ p, IsPosition (hash value) p → b.has p = true
  /-- What is contained stays contained. -/
  monotone (b : Bloom) (value : Bytes) (more : List Bytes)
    (h : b.containsHash (hash value) = true) :
    ((more.map hash).foldl accrueHash b).containsHash (hash value) = true

/-- **The laws of blooms hold for every function to 32 bytes.** -/
theorem laws (hash : Bytes → Bytes) (hhash : ∀ value, (hash value).length = 32) : Laws hash where
  found before behind value := by
    rw [containsHash_iff]
    intro p hp
    exact has_of.2 ⟨value, by simp, hp⟩
  order values values' h := by
    apply ext_has
    intro p
    rw [Bool.eq_iff_iff, has_of, has_of]
    simp only [h]
  bits values p := by
    rw [has_of]
    simp only [mem_bitsOf_iff (hhash _)]
  inside value p h b := testBit_bytes b h.lt
  bytes b value := bytes_accrueHash b (hash value)
  count values h := by
    obtain ⟨p, hp⟩ := @exists_has_of hash values h
    exact ⟨count_pos hp, count_of_le⟩
  isEmpty values := isEmpty_of_iff
  zero b := isEmpty_iff_bytes
  contains b value := by
    rw [containsHash_iff]
    simp only [mem_bitsOf_iff (hhash _)]
  monotone b value more h := by
    rw [containsHash_iff] at h ⊢
    exact fun p hp => has_foldl_of_has (h p hp)

theorem laws_hash256 :
    (∀ value, (Keccak.hash256 value).length = 32) ∧
    (empty.accrueAll [[0x11], [], [0x11], [0x22]]).contains [] = true ∧
    empty.accrueAll [[0x11], [], [0x11], [0x22]] = empty.accrueAll [[0x22], [0x11], []] ∧
    (empty.accrueAll [[0x11], [], [0x11], [0x22]]).count ≤ 9 := by
  have h := laws Keccak.hash256 Keccak.length_hash256
  simp only [← of_hash256]
  refine ⟨Keccak.length_hash256, h.found [[0x11]] [[0x11], [0x22]] [], h.order _ _ fun value => ?_,
    (h.count _ (List.cons_ne_nil _ _)).2⟩
  simp only [List.mem_cons, List.not_mem_nil, or_false]
  tauto

end LedgerBridge.Eth.Bloom
