import LedgerBridge.Proofs.Eth.BlockRef
import LedgerBridge.Proofs.Hex.Normal

/-!
# Numbers given out and taken back

Heights and positions are shown in the shortest digits, and taken back from digits in any number and
of either case, as long as what they spell fits into 64 bits.

* `Quantity.Spells s ds`: the text `s` is digits with the values `ds`, with a plus sign in front or
  without one; `Quantity.valueOf ds` is their number;
* `Quantity.Shortest n t`: the text `t` is the shortest one of digits in lower case that spells `n`.
  `Quantity.shortest_digits`: these are the digits which are written;
* `Quantity.checkedFrom` reads digits in 64 bits and stops at the first product or sum that does not
  fit. `Quantity.checkedFrom_eq`: it stops exactly if the whole number does not fit;
* `Quantity.Verdict`, `BlockRef.Verdict`: what a text is read as;
* `quantities_exact`: how numbers are written and read, as quantities and as names of blocks.
-/

namespace LedgerBridge

namespace Quantity

variable {s : String} {n : UInt64} {cs : List Char} {ds : List Nat}

/-! ### Digits and their number -/

/-- The text is digits with these values, of either case and at least one, with a plus sign in front
or without one. -/
def Spells (s : String) (ds : List Nat) : Prop :=
  ∃ cs, (s.toList = cs ∨ s.toList = '+' :: cs) ∧ cs ≠ [] ∧ List.Forall₂ Hex.IsDigit cs ds

/-- The number whose digits have these values, the most significant one first. -/
def valueOf (ds : List Nat) : Nat := Nat.ofDigits 16 ds.reverse

theorem denotes_iff : Denotes s n ↔ ∃ ds, Spells s ds ∧ valueOf ds = n.toNat := by
  simp only [Denotes, Hex.digitValue?_eq_some_iff]
  constructor
  · rintro ⟨cs, ds, hs, hne, hds, hn⟩
    exact ⟨ds, ⟨cs, hs, hne, hds⟩, hn.symm⟩
  · rintro ⟨ds, ⟨cs, hs, hne, hds⟩, hn⟩
    exact ⟨cs, ds, hs, hne, hds, hn.symm⟩

theorem lt_of_mem_digits (h : List.Forall₂ Hex.IsDigit cs ds) : ∀ d ∈ ds, d < 16 := by
  induction h with
  | nil => simp
  | cons hd _ ih =>
    have hvalue := Hex.digitValue?_eq_some_iff.2 hd
    exact List.forall_mem_cons.2 ⟨(Hex.sameDigit_of_digitValue? hvalue).1, ih⟩

theorem valueOf_lt (h : List.Forall₂ Hex.IsDigit cs ds) : valueOf ds < 16 ^ cs.length := by
  have hlt : ∀ d ∈ ds.reverse, d < 16 := fun d hd => lt_of_mem_digits h d (List.mem_reverse.1 hd)
  have hvalue := Nat.ofDigits_lt_base_pow_length (by decide) hlt
  rwa [List.length_reverse, ← h.length_eq] at hvalue

/-! ### The shortest digits -/

theorem mem_lowercase_of_mem_toDigits {m : Nat} : ∀ c ∈ Nat.toDigits 16 m, c ∈ Hex.lowercase := by
  have hdigit : ∀ k < 16, Nat.digitChar k ∈ Hex.lowercase := by decide
  induction m using Nat.strong_induction_on with
  | _ m ih =>
    rw [Nat.toDigits_eq_if (by decide)]
    split
    · next hm => simpa using hdigit m hm
    · intro c hc
      rcases List.mem_append.1 hc with hc | hc
      · exact ih (m / 16) (by omega) c hc
      · obtain rfl := List.mem_singleton.1 hc
        exact hdigit (m % 16) (Nat.mod_lt _ (by decide))

/-- A zero in front is written for zero only. -/
theorem head_toDigits_ne_zero {m : Nat} (hm : m ≠ 0) : (Nat.toDigits 16 m).head? ≠ some '0' := by
  induction m using Nat.strong_induction_on with
  | _ m ih =>
    rw [Nat.toDigits_eq_if (by decide)]
    split
    · next hlt =>
      have hdigit : ∀ k < 16, k ≠ 0 → Nat.digitChar k ≠ '0' := by decide
      simpa using hdigit m hlt hm
    · rw [List.head?_append_of_ne_nil _ Nat.toDigits_ne_nil]
      exact ih (m / 16) (by omega) (by omega)

/-- The shortest text of digits in lower case that spells a number. -/
structure Shortest (n : UInt64) (t : String) : Prop where
  lower : ∀ c ∈ t.toList, c ∈ Hex.lowercase
  spells : ∃ ds, List.Forall₂ Hex.IsDigit t.toList ds ∧ valueOf ds = n.toNat
  /-- No zero stands in front, except for zero itself. -/
  head : if n = 0 then t = "0" else t.toList.head? ≠ some '0'
  /-- All other texts that spell the number are as long or longer. -/
  least (s : String) (ds : List Nat) (hs : Spells s ds) (hds : valueOf ds = n.toNat) :
    t.length ≤ s.length

theorem length_digits_le (hs : Spells s ds) (hds : valueOf ds = n.toNat) :
    (digits n).length ≤ s.length := by
  obtain ⟨cs, hs, hne, hcs⟩ := hs
  have hlen : cs.length ≤ s.length := by
    rw [← String.length_toList]
    rcases hs with hs | hs
    · rw [hs]
    · rw [hs, List.length_cons]
      omega
  have hdigits : (Nat.toDigits 16 n.toNat).length ≤ cs.length := by
    rw [Nat.length_toDigits_le_iff (by decide) (List.length_pos_of_ne_nil hne), ← hds]
    exact valueOf_lt hcs
  rw [← String.length_toList, digits, String.toList_ofList]
  exact hdigits.trans hlen

/-- **The digits that are written for a number are its shortest ones.** -/
theorem shortest_digits (n : UInt64) : Shortest n (digits n) where
  lower := by
    rw [digits, String.toList_ofList]
    exact mem_lowercase_of_mem_toDigits
  spells := by
    obtain ⟨ds, hds, hn⟩ := numberFrom_eq_some.1 (numberFrom_toDigits n.toNat)
    simp only [Hex.digitValue?_eq_some_iff] at hds
    rw [digits, String.toList_ofList]
    exact ⟨ds, hds, (foldl_eq_ofDigits ds).symm.trans hn⟩
  head := by
    split
    · next hn =>
      subst hn
      rfl
    · next hn =>
      rw [digits, String.toList_ofList]
      exact head_toDigits_ne_zero fun h => hn (UInt64.toNat_inj.1 h)
  least s ds := length_digits_le

/-! ### Reading in 64 bits -/

/-- A number, if it fits into 64 bits. -/
def checked (m : Nat) : Option UInt64 := if m < UInt64.size then some (UInt64.ofNat m) else none

/-- The number that digits spell after `value`, in 64 bits: each digit takes a product and a sum,
and either of them may not fit. -/
def checkedFrom (value : UInt64) : List Char → Option UInt64
  | [] => some value
  | c :: r => do
    let d ← digitValue? c
    let shifted ← checked (value.toNat * 16)
    let next ← checked (shifted.toNat + d)
    checkedFrom next r

/-- The number of a text, read in 64 bits. -/
def checked? (s : String) : Option UInt64 :=
  match unsigned s.toList with
  | [] => none
  | cs => checkedFrom 0 cs

theorem checked_toNat (n : UInt64) : checked n.toNat = some n := by
  rw [checked, if_pos n.toNat_lt, UInt64.ofNat_toNat]

theorem checked_eq_some {m : Nat} : checked m = some n ↔ m = n.toNat := by
  constructor
  · intro h
    unfold checked at h
    split at h
    · next hm =>
      obtain rfl := Option.some.inj h
      exact (UInt64.toNat_ofNat_of_lt' hm).symm
    · cases h
  · rintro rfl
    exact checked_toNat n

theorem checked_eq_none {m : Nat} : checked m = none ↔ UInt64.size ≤ m := by
  unfold checked
  split <;> simp <;> omega

/-- More digits make a number no smaller. -/
theorem le_of_numberFrom {value m : Nat} (h : numberFrom value cs = some m) : value ≤ m := by
  induction cs generalizing value with
  | nil => exact (Option.some.inj h).le
  | cons c cs ih =>
    obtain ⟨d, -, h⟩ := Option.bind_eq_some_iff.1 h
    have := ih h
    omega

theorem bind_checked_eq_none {value : Nat} (h : UInt64.size ≤ value) :
    (numberFrom value cs).bind checked = none := by
  cases hm : numberFrom value cs with
  | none => rfl
  | some m => exact checked_eq_none.2 (h.trans (le_of_numberFrom hm))

/-- **A product or a sum does not fit exactly if the whole number does not.** By induction on the
digits: once a number is too large, no digit makes it smaller. -/
theorem checkedFrom_eq (value : UInt64) (cs : List Char) :
    checkedFrom value cs = (numberFrom value.toNat cs).bind checked := by
  induction cs generalizing value with
  | nil => exact (checked_toNat value).symm
  | cons c cs ih =>
    rw [checkedFrom, numberFrom]
    cases digitValue? c with
    | none => rfl
    | some d =>
      simp only [Option.bind_eq_bind, Option.bind_some]
      cases hshifted : checked (value.toNat * 16) with
      | none =>
        have hlarge := checked_eq_none.1 hshifted
        exact (bind_checked_eq_none (by omega)).symm
      | some shifted =>
        rw [Option.bind_some, ← checked_eq_some.1 hshifted]
        cases hnext : checked (value.toNat * 16 + d) with
        | none => exact (bind_checked_eq_none (checked_eq_none.1 hnext)).symm
        | some next => rw [Option.bind_some, ih, checked_eq_some.1 hnext]

theorem parse?_eq_checked? (s : String) : parse? s = checked? s := by
  unfold parse? checked?
  cases unsigned s.toList with
  | nil => rfl
  | cons c cs => exact (checkedFrom_eq 0 (c :: cs)).symm

/-! ### What is read -/

theorem parse_eq_ok_iff : parse s = .ok n ↔ parse? s = some n := by
  unfold parse
  cases parse? s <;> simp

theorem parse_eq_error_iff {e : HexError} :
    parse s = .error e ↔ parse? s = none ∧ e = .invalidQuantity s := by
  unfold parse
  cases parse? s <;> simp [eq_comm]

/-- What is read from a text. -/
structure Verdict (s : String) : Prop where
  /-- Digits are read if their number fits, however many there are. -/
  accepted (n : UInt64) : parse s = .ok n ↔ ∃ ds, Spells s ds ∧ valueOf ds = n.toNat
  refused (e : HexError) : parse s = .error e ↔
    (∀ ds, Spells s ds → 2 ^ 64 ≤ valueOf ds) ∧ e = .invalidQuantity s
  /-- Each digit of a number that is read takes a number that has been read from those in front of
  it to one that still fits. -/
  fits (n : UInt64) (h : parse s = .ok n) (front : List Char) (c : Char) (behind : List Char)
    (hs : unsigned s.toList = front ++ c :: behind) : ∃ m d, numberFrom 0 front = some m ∧
      digitValue? c = some d ∧ m * 16 + d < 2 ^ 64
  /-- To read in 64 bits and to stop at the first number that does not fit, is the same. -/
  checked : parse? s = checked? s

theorem numberFrom_of_parse? (h : parse? s = some n) :
    numberFrom 0 (unsigned s.toList) = some n.toNat := by
  unfold parse? at h
  split at h
  · cases h
  · obtain ⟨m, hm, h⟩ := Option.bind_eq_some_iff.1 h
    rw [hm, checked_eq_some.1 h]

theorem verdict (s : String) : Verdict s where
  accepted n := by rw [parse_eq_ok_iff, parse?_eq_some_iff, denotes_iff]
  refused e := by
    rw [parse_eq_error_iff, Option.eq_none_iff_forall_ne_some]
    simp only [ne_eq, parse?_eq_some_iff, denotes_iff, not_exists, not_and]
    refine and_congr_left fun _ => ⟨fun h ds hds => ?_, fun h n ds hds hn => ?_⟩
    · by_contra hlt
      exact h (UInt64.ofNat (valueOf ds)) ds hds (UInt64.toNat_ofNat_of_lt' (Nat.not_le.1 hlt)).symm
    · exact absurd n.toNat_lt (Nat.not_lt.2 (hn ▸ h ds hds))
  fits n h front c behind hs := by
    have hn := numberFrom_of_parse? (parse_eq_ok_iff.1 h)
    rw [hs, numberFrom_append] at hn
    obtain ⟨m, hm, hn⟩ := Option.bind_eq_some_iff.1 hn
    obtain ⟨d, hd, hn⟩ := Option.bind_eq_some_iff.1 hn
    exact ⟨m, d, hm, hd, (le_of_numberFrom hn).trans_lt n.toNat_lt⟩
  checked := parse?_eq_checked? s

theorem parse_bare_text (n : UInt64) : parse (Hex.bare (text n)) = .ok n := by
  rw [text, Hex.bare_marked (digits_ne_empty n), parse_eq_ok_iff, parse?_digits]

end Quantity

namespace Eth

namespace BlockRef

/-- What a text names. -/
structure Verdict (s : String) : Prop where
  latest : parse s = .ok .latest ↔ Hex.bare s = "latest"
  earliest : parse s = .ok .earliest ↔ Hex.bare s = "earliest"
  pending : parse s = .ok .pending ↔ Hex.bare s = "pending"
  number (n : UInt64) : parse s = .ok (.number n) ↔ Quantity.parse (Hex.bare s) = .ok n
  /-- All other texts are refused. -/
  refused : (∃ ref, parse s = .ok ref) ∨ ∃ reason, parse s = .error (.invalidParams reason)

theorem names_number_iff {s : String} {n : UInt64} :
    Names s (.number n) ↔ Quantity.parse (Hex.bare s) = .ok n := by
  rw [Quantity.parse_eq_ok_iff, Quantity.parse?_eq_some_iff]
  exact ⟨fun | .number h => h, .number⟩

theorem verdict (s : String) : Verdict s where
  latest := parse_eq_ok_iff.trans ⟨fun | .latest h => h, .latest⟩
  earliest := parse_eq_ok_iff.trans ⟨fun | .earliest h => h, .earliest⟩
  pending := parse_eq_ok_iff.trans ⟨fun | .pending h => h, .pending⟩
  number n := parse_eq_ok_iff.trans names_number_iff
  refused := by
    cases h : parse s with
    | ok ref => exact .inl ⟨ref, rfl⟩
    | error e => exact .inr ⟨_, congrArg Except.error (eq_refusal_of_parse h)⟩

end BlockRef

/-- **Numbers are written in the shortest digits, and read from all their digits.** The text of a
number is read as that number and names its block. A text is read as a quantity exactly if its
digits spell a number of 64 bits, and none overflows on the way. It names a block exactly if it is a
tag or is read as a quantity. -/
theorem quantities_exact :
    (∀ n, Quantity.text n = "0x" ++ Quantity.digits n ∧ Quantity.Shortest n (Quantity.digits n) ∧
      Quantity.parse (Hex.bare (Quantity.text n)) = .ok n ∧
      BlockRef.parse (Quantity.text n) = .ok (.number n)) ∧
    (∀ s, Quantity.Verdict s) ∧ ∀ s, BlockRef.Verdict s := by
  refine ⟨fun n => ⟨rfl, Quantity.shortest_digits n, Quantity.parse_bare_text n, ?_⟩,
    Quantity.verdict, BlockRef.verdict⟩
  exact ((BlockRef.verdict _).number n).2 (Quantity.parse_bare_text n)

end Eth

end LedgerBridge
