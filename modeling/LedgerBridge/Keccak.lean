import LedgerBridge.Text.Utf8

/-!
# Keccak-256

The sponge function behind addresses, topics and blooms, with 24 rounds on 25 lanes of 64 bits, a
rate of 136 bytes, and a padding that opens with the byte 1 and closes with the top bit.

* `Keccak.hash256 message` has 32 bytes (`length_hash256`).
-/

namespace LedgerBridge.Keccak

/-- The state: lane `x + 5 y` stands in column `x` and row `y`. -/
abbrev Lanes := Array UInt64

/-- A lane of the state. -/
def lane (s : Lanes) (x y : Nat) : UInt64 := s.getD (x % 5 + 5 * (y % 5)) 0

/-- A state by its lanes. -/
def ofLanes (f : Nat → Nat → UInt64) : Lanes := Array.ofFn fun i : Fin 25 => f (i % 5) (i / 5)

/-- Rotation to the left. -/
def rotate (w : UInt64) (n : Nat) : UInt64 :=
  (w <<< UInt64.ofNat n) ||| (w >>> UInt64.ofNat (64 - n))

/-- How far each lane is rotated. -/
def offsets : List Nat :=
  [0, 1, 62, 28, 27, 36, 44, 6, 55, 20, 3, 10, 43, 25, 39, 41, 45, 15, 21, 8, 18, 2, 61, 56, 14]

/-- What is added to the first lane in each round. -/
def roundConstants : List UInt64 :=
  [0x0000000000000001, 0x0000000000008082, 0x800000000000808a, 0x8000000080008000,
   0x000000000000808b, 0x0000000080000001, 0x8000000080008081, 0x8000000000008009,
   0x000000000000008a, 0x0000000000000088, 0x0000000080008009, 0x000000008000000a,
   0x000000008000808b, 0x800000000000008b, 0x8000000000008089, 0x8000000000008003,
   0x8000000000008002, 0x8000000000000080, 0x000000000000800a, 0x800000008000000a,
   0x8000000080008081, 0x8000000000008080, 0x0000000080000001, 0x8000000080008008]

/-- Adds to each lane the parities of two columns. -/
def theta (s : Lanes) : Lanes :=
  let parity := Array.ofFn fun x : Fin 5 =>
    lane s x 0 ^^^ lane s x 1 ^^^ lane s x 2 ^^^ lane s x 3 ^^^ lane s x 4
  ofLanes fun x y =>
    lane s x y ^^^ parity.getD ((x + 4) % 5) 0 ^^^ rotate (parity.getD ((x + 1) % 5) 0) 1

/-- Rotates the lanes and moves them to their new places. -/
def rhoPi (s : Lanes) : Lanes :=
  ofLanes fun x y => rotate (lane s (x + 3 * y) x) (offsets.getD ((x + 3 * y) % 5 + 5 * x) 0)

/-- Combines the lanes of each row. -/
def chi (s : Lanes) : Lanes :=
  ofLanes fun x y => lane s x y ^^^ (~~~ lane s (x + 1) y &&& lane s (x + 2) y)

/-- One round. -/
def round (s : Lanes) (constant : UInt64) : Lanes :=
  let t := chi (rhoPi (theta s))
  ofLanes fun x y => if x = 0 ∧ y = 0 then lane t 0 0 ^^^ constant else lane t x y

/-- The permutation of the state. -/
def permute (s : Lanes) : Lanes := roundConstants.foldl round s

/-- The bytes of one block. -/
def rate : Nat := 136

/-- A message filled up to whole blocks. -/
def pad (message : Bytes) : Bytes :=
  let missing := rate - message.length % rate
  message ++ if missing = 1 then [0x81] else 0x01 :: List.replicate (missing - 2) 0 ++ [0x80]

/-- The number whose bytes are given, the least significant one first. -/
def littleEndian (b : Bytes) : UInt64 := b.foldr (fun byte n => n * 256 + byte.toUInt64) 0

/-- The state after one more block. -/
def absorb (s : Lanes) (block : Bytes) : Lanes :=
  permute (ofLanes fun x y =>
    let i := x + 5 * y
    lane s x y ^^^ (if 8 * i < rate then littleEndian ((block.drop (8 * i)).take 8) else 0))

/-- The state after the blocks of a padded message. -/
def absorbAll : (blocks : Nat) → Lanes → Bytes → Lanes
  | 0, s, _ => s
  | blocks + 1, s, message =>
    absorbAll blocks (absorb s (message.take rate)) (message.drop rate)

/-- The bytes of a lane. -/
def laneBytes (w : UInt64) : Bytes :=
  (List.range 8).map fun i => (w >>> UInt64.ofNat (8 * i)).toUInt8

/-- The hash of a message. -/
def hash256 (message : Bytes) : Bytes :=
  let padded := pad message
  let s := absorbAll (padded.length / rate) (ofLanes fun _ _ => 0) padded
  (List.range 4).flatMap fun x => laneBytes (lane s x 0)

@[simp] theorem length_laneBytes (w : UInt64) : (laneBytes w).length = 8 := by simp [laneBytes]

@[simp] theorem length_hash256 (message : Bytes) : (hash256 message).length = 32 := by
  simp [hash256, List.range_succ]

end LedgerBridge.Keccak
