import LedgerBridge.Text.Utf8

/-!
# Hexadecimal

Bytes as pairs of digits, and the mark `0x` in front of them. Texts on the ledger's side carry no
mark, texts on the clients' side do.

* `Hex.encode` writes lower case digits, `Hex.decode` reads both cases, byte by byte of the UTF-8
  form, and says what is wrong: an odd number of digits first, then the first byte that is none;
* `Hex.bare` drops the mark unless nothing follows it, `Hex.marked` puts it in front.
-/

namespace LedgerBridge.Hex

/-- The digit of a number below sixteen. -/
def digit (n : Nat) : Char := Nat.digitChar n

/-- The value of a digit byte of either case. -/
def value? (b : UInt8) : Option Nat :=
  if 0x30 ≤ b ∧ b ≤ 0x39 then some (b.toNat - 0x30)
  else if 0x61 ≤ b ∧ b ≤ 0x66 then some (b.toNat - 0x57)
  else if 0x41 ≤ b ∧ b ≤ 0x46 then some (b.toNat - 0x37)
  else none

theorem lt_of_value? {b : UInt8} {n : Nat} (h : value? b = some n) : n < 16 := by
  simp only [value?, UInt8.le_iff_toNat_le, UInt8.reduceToNat] at h
  split at h
  · obtain rfl := Option.some.inj h
    omega
  · split at h
    · obtain rfl := Option.some.inj h
      omega
    · split at h
      · obtain rfl := Option.some.inj h
        omega
      · cases h

/-- The two digits of a byte. -/
def encodeByte (b : UInt8) : List Char := [digit (b.toNat / 16), digit (b.toNat % 16)]

/-- The digits of a byte string. -/
def encodeChars (bytes : Bytes) : List Char := bytes.flatMap encodeByte

/-- The digits of a byte string, as a text. -/
def encode (bytes : Bytes) : String := String.ofList (encodeChars bytes)

/-- What keeps a text from being the digits of a byte string. -/
inductive Flaw where
  /-- The number of bytes is odd. -/
  | oddLength
  /-- The byte at a position is no digit. -/
  | notDigit (byte : UInt8) (position : Nat)
  deriving DecidableEq, Repr

/-- Pairs of digits, the first of which stands at `position`. -/
def decodeFrom (position : Nat) : Bytes → Except Flaw Bytes
  | high :: low :: rest =>
    match value? high, value? low with
    | some h, some l => (UInt8.ofNat (h * 16 + l) :: ·) <$> decodeFrom (position + 2) rest
    | none, _ => .error (.notDigit high position)
    | some _, none => .error (.notDigit low (position + 1))
  | [byte] => .error (.notDigit byte position)
  | [] => .ok []

/-- The byte string whose digits are given in either case. -/
def decode (digits : Bytes) : Except Flaw Bytes :=
  if digits.length % 2 = 1 then .error .oddLength else decodeFrom 0 digits

@[simp] theorem length_encodeChars (bytes : Bytes) :
    (encodeChars bytes).length = 2 * bytes.length := by
  induction bytes with
  | nil => rfl
  | cons b r ih => simp_all [encodeChars, encodeByte]; omega

/-! ### The mark -/

/-- A text without the mark `0x` in front; the mark alone stays. -/
def bare (s : String) : String :=
  match s.toList with
  | '0' :: 'x' :: c :: r => String.ofList (c :: r)
  | _ => s

/-- A text with the mark `0x` in front. -/
def marked (s : String) : String := "0x" ++ s

/-- The digits of a byte string behind the mark. -/
def ofBytes (bytes : Bytes) : String := marked (encode bytes)

theorem toList_marked (s : String) : (marked s).toList = '0' :: 'x' :: s.toList := by
  simp [marked]

/-- The mark comes off again unless it stands alone. -/
theorem bare_marked {s : String} (h : s ≠ "") : bare (marked s) = s := by
  unfold bare
  rw [toList_marked]
  cases hs : s.toList with
  | nil => exact absurd (by simpa using hs) h
  | cons c r =>
    rw [← String.ofList_toList (s := s), hs]
    rfl

end LedgerBridge.Hex
