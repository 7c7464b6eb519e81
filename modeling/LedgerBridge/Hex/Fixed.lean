import LedgerBridge.Hex
import LedgerBridge.Json
import LedgerBridge.Text.Quoted

/-!
# Hexadecimal values of fixed width

Addresses of 20 bytes and topics of 32 bytes. They are read with or without the mark, in either
case, but always checked for their width; they are written with the mark and in lower case.

* `FixedHex.parse` reads one, `FixedHex.text` writes it; in JSON it is a text (`FixedHex.ofJson?`,
  `FixedHex.toJson`);
* `FixedHex.denotedBy v s` says that a text of the ledger is a spelling of the value.
-/

namespace LedgerBridge

/-- Why a text is not the hexadecimal value that was asked for. -/
inductive HexError where
  /-- The digits, counted in bytes, are too many or too few. -/
  | invalidLength (expected got : Nat) (value : String)
  /-- Something in the right number of bytes is no digit. -/
  | invalidDigits (value : String)
  /-- The text is no quantity. -/
  | invalidQuantity (value : String)
  deriving DecidableEq, Repr

/-- The wording of a hexadecimal error. -/
def HexError.message : HexError → String
  | .invalidLength expected got value =>
    s!"expected {expected} hex characters, got {got} in {Quoted.text value}"
  | .invalidDigits value => s!"{Quoted.text value} is not valid hex"
  | .invalidQuantity value => s!"{Quoted.text value} is not a valid hex quantity"

/-- A value of `n` bytes. -/
structure FixedHex (n : Nat) where
  bytes : Bytes
  length_bytes : bytes.length = n
  deriving DecidableEq

/-- The address of an account or a contract. -/
abbrev Address := FixedHex 20

/-- A topic of a log. -/
abbrev Topic := FixedHex 32

namespace FixedHex

variable {n : Nat}

/-- The value that a text denotes. -/
def parse (n : Nat) (s : String) : Except HexError (FixedHex n) :=
  let digits := Utf8.encode (Hex.bare s)
  if digits.length ≠ 2 * n then .error (.invalidLength (2 * n) digits.length s)
  else match Hex.decode digits with
    | .ok bytes => if h : bytes.length = n then .ok ⟨bytes, h⟩ else .error (.invalidDigits s)
    | .error _ => .error (.invalidDigits s)

/-- The value of zero bytes, which as an address asks for a new contract. -/
def zero (n : Nat) : FixedHex n := ⟨List.replicate n 0, List.length_replicate⟩

/-- Whether every byte is zero. -/
def isZero (v : FixedHex n) : Bool := v.bytes.all (· == 0)

/-- The digits without the mark, as the ledger stores them. -/
def digits (v : FixedHex n) : String := Hex.encode v.bytes

/-- The value as it is shown. -/
def text (v : FixedHex n) : String := Hex.ofBytes v.bytes

/-- The value that a JSON value holds. -/
def ofJson? (n : Nat) (j : Json) : Option (FixedHex n) :=
  j.asText?.bind fun s => (parse n s).toOption

/-- The JSON form of a value. -/
def toJson (v : FixedHex n) : Json := .str v.text

/-- Whether a text is a spelling of the value; a text that denotes none never is. -/
def denotedBy (v : FixedHex n) (s : String) : Bool :=
  match parse n s with
  | .ok other => other == v
  | .error _ => false

@[simp] theorem ext_iff' {v w : FixedHex n} : v = w ↔ v.bytes = w.bytes := by
  cases v; cases w; simp

theorem isZero_iff (v : FixedHex n) : v.isZero ↔ v = zero n := by
  have hv := v.length_bytes
  rw [ext_iff', isZero, List.all_eq_true, zero, List.eq_replicate_iff]
  simp [hv]

end FixedHex

end LedgerBridge
