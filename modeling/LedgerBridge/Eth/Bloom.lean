import LedgerBridge.Hex
import LedgerBridge.Keccak

/-!
# Log blooms

A set of 2048 bits over addresses and topics. Each value sets three bits, taken from the first six
bytes of its hash.

* `Bloom.accrue` adds a value, `Bloom.contains` asks for it: there may be false positives, but
  never false negatives;
* `Bloom.text` writes the bits as 256 bytes, bit 0 last.
-/

namespace LedgerBridge.Eth

/-- A bloom filter. -/
structure Bloom where
  bits : BitVec 2048
  deriving DecidableEq

namespace Bloom

/-- The filter without a value. -/
def empty : Bloom := ⟨0⟩

/-- The bit that two bytes of a hash choose. -/
def bitOf (high low : UInt8) : Nat := (high.toNat * 256 + low.toNat) % 2048

/-- The bits that a hash chooses. -/
def bitsOf (hash : Bytes) : List Nat :=
  [0, 2, 4].map fun i => bitOf (hash.getD i 0) (hash.getD (i + 1) 0)

/-- The bits of a value. -/
def positions (value : Bytes) : List Nat := bitsOf (Keccak.hash256 value)

theorem bitOf_lt (high low : UInt8) : bitOf high low < 2048 := Nat.mod_lt _ (by decide)

theorem lt_of_mem_bitsOf {hash : Bytes} {p : Nat} (h : p ∈ bitsOf hash) : p < 2048 := by
  obtain ⟨i, -, rfl⟩ := List.mem_map.1 h
  exact bitOf_lt _ _

/-- The filter with one more bit. -/
def set (b : Bloom) (p : Nat) : Bloom := ⟨b.bits ||| BitVec.twoPow 2048 p⟩

/-- Whether a bit is set. -/
def has (b : Bloom) (p : Nat) : Bool := b.bits.getLsbD p

/-- The filter with the bits of one more hash. -/
def accrueHash (b : Bloom) (hash : Bytes) : Bloom := (bitsOf hash).foldl set b

/-- The filter with one more value. -/
def accrue (b : Bloom) (value : Bytes) : Bloom := b.accrueHash (Keccak.hash256 value)

/-- Whether all bits of a hash are set. -/
def containsHash (b : Bloom) (hash : Bytes) : Bool := (bitsOf hash).all b.has

/-- Whether a value may have been added. -/
def contains (b : Bloom) (value : Bytes) : Bool := b.containsHash (Keccak.hash256 value)

/-- Whether no bit is set. -/
def isEmpty (b : Bloom) : Bool := b.bits == 0

/-- The filter with all values of a list. -/
def accrueAll (b : Bloom) (values : List Bytes) : Bloom := values.foldl accrue b

/-- The number of bits that are set. -/
def count (b : Bloom) : Nat := (List.range 2048).countP b.has

/-- The bytes of the filter, bit 0 in the last one. -/
def bytes (b : Bloom) : Bytes :=
  (List.range 256).map fun i => UInt8.ofNat (b.bits.toNat >>> (8 * (255 - i)))

/-- The filter as it is shown. -/
def text (b : Bloom) : String := Hex.ofBytes b.bytes

@[simp] theorem has_empty (p : Nat) : empty.has p = false := by simp [has, empty]

@[simp] theorem has_set (b : Bloom) (p q : Nat) (hq : q < 2048) :
    (b.set p).has q = (b.has q || decide (q = p)) := by
  simp [has, set, hq]

end Bloom

end LedgerBridge.Eth
