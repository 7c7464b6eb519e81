import LedgerBridge.Hex.Fixed

/-!
# Quantities

Numbers of 64 bits in hexadecimal, without leading zeros when written.

* `Quantity.text n` writes the number behind the mark, `Quantity.digits n` without it;
* `Quantity.parse s` reads digits of either case without the mark, with one plus sign in front if
  there is one, and with any number of leading zeros.
-/

namespace LedgerBridge.Quantity

/-- The shortest digits of a number. -/
def digits (n : UInt64) : String := String.ofList (Nat.toDigits 16 n.toNat)

/-- A number as it is shown. -/
def text (n : UInt64) : String := Hex.marked (digits n)

/-- The value of a digit of either case. -/
def digitValue? (c : Char) : Option Nat :=
  if '0' ≤ c ∧ c ≤ '9' then some (c.toNat - '0'.toNat)
  else if 'a' ≤ c ∧ c ≤ 'f' then some (c.toNat - 'a'.toNat + 10)
  else if 'A' ≤ c ∧ c ≤ 'F' then some (c.toNat - 'A'.toNat + 10)
  else none

/-- The number that digits spell after `value`. -/
def numberFrom (value : Nat) : List Char → Option Nat
  | [] => some value
  | c :: r => (digitValue? c).bind fun d => numberFrom (value * 16 + d) r

/-- Digits without the sign in front of them. -/
def unsigned : List Char → List Char
  | '+' :: r => r
  | cs => cs

/-- The number of 64 bits that a text without the mark denotes. -/
def parse? (s : String) : Option UInt64 :=
  match unsigned s.toList with
  | [] => none
  | cs => (numberFrom 0 cs).bind fun n => if n < UInt64.size then some (UInt64.ofNat n) else none

@[inherit_doc parse?]
def parse (s : String) : Except HexError UInt64 :=
  match parse? s with
  | some n => .ok n
  | none => .error (.invalidQuantity s)

end LedgerBridge.Quantity
