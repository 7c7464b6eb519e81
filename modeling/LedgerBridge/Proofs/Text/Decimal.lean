import Mathlib.Tactic

/-!
# Decimal digits

* `foldl_eq_ofDigitChars`: what readers count from digits is what the library says they spell;
* `foldl_toDigits`: the digits of a number are read back.
-/

namespace LedgerBridge.Decimal

theorem foldl_eq_ofDigitChars (cs : List Char) (value : Nat) :
    cs.foldl (fun n c => n * 10 + (c.toNat - '0'.toNat)) value = Nat.ofDigitChars 10 cs value := by
  induction cs generalizing value with
  | nil => rw [List.foldl_nil, Nat.ofDigitChars_nil]
  | cons c cs ih => rw [List.foldl_cons, ih, Nat.ofDigitChars_cons, Nat.mul_comm]

theorem foldl_toDigits (n : Nat) :
    (Nat.toDigits 10 n).foldl (fun n c => n * 10 + (c.toNat - '0'.toNat)) 0 = n := by
  rw [foldl_eq_ofDigitChars, Nat.ofDigitChars_toDigits (by decide) le_rfl]

theorem isDigit_of_mem_toDigits {n : Nat} : ∀ c ∈ Nat.toDigits 10 n, c.isDigit = true :=
  fun _ hc => Nat.isDigit_of_mem_toDigits (by decide) le_rfl hc

theorem toList_toString (n : Nat) : (toString n).toList = Nat.toDigits 10 n := String.toList_ofList

end LedgerBridge.Decimal
