import LedgerBridge.Proofs.Except
import LedgerBridge.Quantity

/-!
# Quantities read back

The digits of a number denote it (`parse?_digits`), so no two numbers are shown alike
(`text_injective`).
-/

namespace LedgerBridge.Quantity

theorem digitValue?_digitChar {d : Nat} (h : d < 16) : digitValue? (Nat.digitChar d) = some d := by
  interval_cases d <;> rfl

theorem numberFrom_append (value : Nat) (cs ds : List Char) :
    numberFrom value (cs ++ ds) = (numberFrom value cs).bind fun n => numberFrom n ds := by
  induction cs generalizing value with
  | nil => rfl
  | cons c cs ih =>
    rw [List.cons_append, numberFrom, numberFrom]
    cases digitValue? c with
    | none => rfl
    | some d => exact ih (value * 16 + d)

theorem numberFrom_toDigits (n : Nat) : numberFrom 0 (Nat.toDigits 16 n) = some n := by
  induction n using Nat.strong_induction_on with
  | _ n ih =>
    rw [Nat.toDigits_eq_if (by decide)]
    by_cases h : n < 16
    · simp [h, numberFrom, digitValue?_digitChar h]
    · have hd : digitValue? (Nat.digitChar (n % 16)) = some (n % 16) :=
        digitValue?_digitChar (by omega)
      rw [if_neg h, numberFrom_append, ih (n / 16) (by omega)]
      simp only [Option.bind_some, numberFrom, hd]
      congr 1
      omega

/-- Digits have no sign in front. -/
theorem unsigned_of_numberFrom {cs : List Char} {n : Nat} (h : numberFrom 0 cs = some n) :
    unsigned cs = cs := by
  unfold unsigned
  split
  · next r =>
    rw [numberFrom, show digitValue? '+' = none by decide] at h
    cases h
  · rfl

/-- **The digits of a number denote it.** -/
theorem parse?_digits (n : UInt64) : parse? (digits n) = some n := by
  have hn := numberFrom_toDigits n.toNat
  have hs : unsigned (digits n).toList = Nat.toDigits 16 n.toNat := by
    rw [digits, String.toList_ofList, unsigned_of_numberFrom hn]
  unfold parse?
  rw [hs]
  split
  · next h => exact absurd h Nat.toDigits_ne_nil
  · rw [hn, Option.bind_some, if_pos n.toNat_lt, UInt64.ofNat_toNat]

theorem digits_injective {m n : UInt64} (h : digits m = digits n) : m = n :=
  Option.some.inj (by rw [← parse?_digits, h, parse?_digits])

theorem digits_ne_empty (n : UInt64) : digits n ≠ "" := by
  intro h
  have := congrArg String.toList h
  simp [digits] at this

/-- Different numbers are shown differently. -/
theorem text_injective {m n : UInt64} (h : text m = text n) : m = n := by
  refine digits_injective ?_
  rw [← Hex.bare_marked (digits_ne_empty m), ← Hex.bare_marked (digits_ne_empty n)]
  exact congrArg Hex.bare h

theorem text_ofNat_injective {m n : Nat} (hm : m < UInt64.size) (hn : n < UInt64.size)
    (h : text (UInt64.ofNat m) = text (UInt64.ofNat n)) : m = n := by
  have := congrArg UInt64.toNat (text_injective h)
  rwa [UInt64.toNat_ofNat_of_lt' hm, UInt64.toNat_ofNat_of_lt' hn] at this

end LedgerBridge.Quantity
