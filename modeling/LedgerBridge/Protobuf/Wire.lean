import LedgerBridge.Text.Utf8

/-!
# The protobuf wire

Varints, keys and the fields a reader does not know.

* `readVarint` and `writeVarint`: base 128, least significant digits first, at most ten bytes and
  64 bits (`readVarint_writeVarint`);
* `readKey`: the number of a field and the shape of what follows;
* `skipField`: passes over a field of any shape. Groups may nest, but not beyond the depth left.

A reader takes the whole rest of the input and returns what it left; an error says what is wrong
and in which fields, the innermost first.
-/

namespace LedgerBridge.Protobuf

/-- The shape of a field's value on the wire. -/
inductive WireType where
  | varint
  | sixtyFourBit
  | lengthDelimited
  | startGroup
  | endGroup
  | thirtyTwoBit
  deriving DecidableEq, Repr

/-- The code of a shape. -/
def WireType.code : WireType → Nat
  | .varint => 0
  | .sixtyFourBit => 1
  | .lengthDelimited => 2
  | .startGroup => 3
  | .endGroup => 4
  | .thirtyTwoBit => 5

/-- The shape that a code stands for. -/
def WireType.ofCode? : Nat → Option WireType
  | 0 => some .varint
  | 1 => some .sixtyFourBit
  | 2 => some .lengthDelimited
  | 3 => some .startGroup
  | 4 => some .endGroup
  | 5 => some .thirtyTwoBit
  | _ => none

@[simp] theorem WireType.ofCode?_code (w : WireType) : WireType.ofCode? w.code = some w := by
  cases w <;> rfl

theorem WireType.code_lt (w : WireType) : w.code < 8 := by cases w <;> decide

/-- The name of a shape in messages. -/
def WireType.name : WireType → String
  | .varint => "Varint"
  | .sixtyFourBit => "SixtyFourBit"
  | .lengthDelimited => "LengthDelimited"
  | .startGroup => "StartGroup"
  | .endGroup => "EndGroup"
  | .thirtyTwoBit => "ThirtyTwoBit"

/-- What is wrong with some bytes. -/
inductive Cause where
  | invalidVarint
  | invalidKey (key : Nat)
  | invalidWireType (code : Nat)
  | zeroNumber
  | unexpectedWireType (actual expected : WireType)
  | bufferUnderflow
  | lengthExceeded
  | notUtf8
  | unexpectedEndGroup
  | tooDeep
  deriving DecidableEq, Repr

/-- The wording of a cause. -/
def Cause.description : Cause → String
  | .invalidVarint => "invalid varint"
  | .invalidKey key => s!"invalid key value: {key}"
  | .invalidWireType code => s!"invalid wire type value: {code}"
  | .zeroNumber => "invalid tag value: 0"
  | .unexpectedWireType actual expected =>
    s!"invalid wire type: {actual.name} (expected {expected.name})"
  | .bufferUnderflow => "buffer underflow"
  | .lengthExceeded => "delimited length exceeded"
  | .notUtf8 => "invalid string value: data is not UTF-8 encoded"
  | .unexpectedEndGroup => "unexpected end group tag"
  | .tooDeep => "recursion limit reached"

/-- A cause, and the fields it lies in, the innermost first: each by the name of its message and
its own. -/
structure DecodeError where
  cause : Cause
  path : List (String × String) := []
  deriving DecidableEq, Repr

/-- An error one field further out. -/
def DecodeError.within (message field : String) (e : DecodeError) : DecodeError :=
  { e with path := e.path ++ [(message, field)] }

/-- The wording of an error. -/
def DecodeError.message (e : DecodeError) : String :=
  "failed to decode Protobuf message: "
    ++ String.join (e.path.map fun p => s!"{p.1}.{p.2}: ") ++ e.cause.description

/-- Reading fails for a cause of its own. -/
def refuse {α : Type} (cause : Cause) : Except DecodeError α := .error ⟨cause, []⟩

/-! ### Varints -/

/-- A varint of at most `left` bytes, the last of which has one bit. -/
def readVarintWithin : (left : Nat) → Bytes → Except DecodeError (Nat × Bytes)
  | left + 1, b :: r =>
    if b < 0x80 then
      if left = 0 ∧ 1 < b then refuse .invalidVarint else .ok (b.toNat, r)
    else do
      let (n, r) ← readVarintWithin left r
      return (b.toNat % 128 + 128 * n, r)
  | _, _ => refuse .invalidVarint

/-- A number of 64 bits. -/
def readVarint (s : Bytes) : Except DecodeError (Nat × Bytes) := readVarintWithin 10 s

/-- The digits of a number in base 128, at most `left` of them. -/
def writeVarintWithin : (left : Nat) → Nat → Bytes
  | 0, _ => []
  | left + 1, n =>
    if n < 128 then [UInt8.ofNat n]
    else UInt8.ofNat (n % 128 + 128) :: writeVarintWithin left (n / 128)

/-- The shortest varint of a number of 64 bits. -/
def writeVarint (n : Nat) : Bytes := writeVarintWithin 10 n

/-- The bound of the numbers that fit `left` digits and one bit. -/
def varintBound : (left : Nat) → Nat
  | 0 => 2
  | left + 1 => varintBound left * 128

theorem readVarintWithin_writeVarintWithin {left n : Nat} (hn : n < varintBound left)
    (rest : Bytes) :
    readVarintWithin (left + 1) (writeVarintWithin (left + 1) n ++ rest) = .ok (n, rest) := by
  induction left generalizing n with
  | zero =>
    have h : n = 0 ∨ n = 1 := by
      rw [varintBound] at hn
      omega
    rcases h with rfl | rfl <;> rfl
  | succ left ih =>
    rw [writeVarintWithin]
    split
    · next h =>
      have h1 : UInt8.ofNat n < 0x80 := by
        rw [UInt8.lt_iff_toNat_lt, UInt8.toNat_ofNat']; simp only [UInt8.reduceToNat]; omega
      have h2 : (UInt8.ofNat n).toNat = n := by rw [UInt8.toNat_ofNat']; omega
      simp [readVarintWithin, h1, h2]
    · next h =>
      have h1 : ¬ UInt8.ofNat (n % 128 + 128) < 0x80 := by
        rw [UInt8.lt_iff_toNat_lt, UInt8.toNat_ofNat']; simp only [UInt8.reduceToNat]; omega
      have h2 : (UInt8.ofNat (n % 128 + 128)).toNat % 128 = n % 128 := by
        rw [UInt8.toNat_ofNat']; omega
      have hd : n / 128 < varintBound left := by
        rw [varintBound] at hn
        omega
      rw [List.cons_append, readVarintWithin]
      rw [if_neg h1, ih hd]
      simp only [bind, Except.bind, pure, Except.pure, h2]
      congr 2
      omega

/-- Every number of 64 bits reads back, whatever follows it. -/
theorem readVarint_writeVarint {n : Nat} (hn : n < UInt64.size) (rest : Bytes) :
    readVarint (writeVarint n ++ rest) = .ok (n, rest) :=
  @readVarintWithin_writeVarintWithin 9 n hn rest

/-! ### Keys -/

/-- The number of a field and the shape of its value. -/
structure Key where
  number : Nat
  wire : WireType
  deriving DecidableEq, Repr

/-- The key that stands before a field. -/
def readKey (s : Bytes) : Except DecodeError (Key × Bytes) := do
  let (key, r) ← readVarint s
  if UInt32.size ≤ key then refuse (.invalidKey key)
  else match WireType.ofCode? (key % 8) with
    | none => refuse (.invalidWireType (key % 8))
    | some wire => if key / 8 = 0 then refuse .zeroNumber else return (⟨key / 8, wire⟩, r)

/-- The bytes of a key. -/
def writeKey (k : Key) : Bytes := writeVarint (k.number * 8 + k.wire.code)

/-- A key reads back, whatever follows it. -/
theorem readKey_writeKey {k : Key} (h0 : 0 < k.number) (h : k.number < 536870912) (rest : Bytes) :
    readKey (writeKey k ++ rest) = .ok (k, rest) := by
  have hw := k.wire.code_lt
  have hm : (k.number * 8 + k.wire.code) % 8 = k.wire.code := by omega
  have hd : (k.number * 8 + k.wire.code) / 8 = k.number := by omega
  have hk : k.number * 8 + k.wire.code < UInt32.size := by
    simp only [UInt32.size]
    omega
  rw [readKey, writeKey, readVarint_writeVarint (Nat.lt_trans hk (by decide))]
  simp only [bind, Except.bind]
  rw [if_neg (Nat.not_le.2 hk), hm, WireType.ofCode?_code, hd]
  simp only []
  rw [if_neg (by omega)]
  rfl

/-! ### Passing over fields -/

/-- Passes over `n` bytes. -/
def skipBytes (n : Nat) (s : Bytes) : Except DecodeError Bytes :=
  if n ≤ s.length then .ok (s.drop n) else refuse .bufferUnderflow

/-- Passes over the fields of a group up to its end, with `skip` for one field. -/
def skipGroup (skip : Key → Bytes → Except DecodeError Bytes) (number : Nat) :
    (fuel : Nat) → Bytes → Except DecodeError Bytes
  | 0, _ => refuse .invalidVarint
  | fuel + 1, s => do
    let (key, r) ← readKey s
    if key.wire = .endGroup then
      if key.number = number then return r else refuse .unexpectedEndGroup
    else
      skipGroup skip number fuel (← skip key r)

/-- Passes over the value of a field, in which groups may nest below `depth`. -/
def skipField : (depth : Nat) → Key → Bytes → Except DecodeError Bytes
  | 0, _, _ => refuse .tooDeep
  | depth + 1, key, s =>
    match key.wire with
    | .varint => do return (← readVarint s).2
    | .sixtyFourBit => skipBytes 8 s
    | .thirtyTwoBit => skipBytes 4 s
    | .lengthDelimited => do
      let (n, r) ← readVarint s
      skipBytes n r
    | .startGroup => skipGroup (skipField depth) key.number s.length s
    | .endGroup => refuse .unexpectedEndGroup

end LedgerBridge.Protobuf
