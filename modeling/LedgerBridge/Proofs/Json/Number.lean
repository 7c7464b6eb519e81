import LedgerBridge.Json.Reader
import LedgerBridge.Json.Writer
import LedgerBridge.Proofs.Except

/-!
# Numbers in JSON read back

A number has many spellings: an integer without zeros in front, maybe a fraction, maybe an exponent
(`Number.Spelled`). It ends where no digit, point or exponent follows (`Ends`), and in front of such
a rest every spelling is read as its number (`readNumber_spelled`). What is written for a number is
one of them (`spelled_writeNumber`, `readNumber_writeNumber`).
-/

namespace LedgerBridge.Json

/-- What stands behind a number does not go on with it. -/
def Ends (s : Bytes) : Prop :=
  ∀ b ∈ s.head?, isDigit b = false ∧ b ≠ 0x2e ∧ b ≠ 0x65 ∧ b ≠ 0x45

theorem ends_nil : Ends [] := by simp [Ends]

theorem ends_cons {b : UInt8} {r : Bytes}
    (h : isDigit b = false ∧ b ≠ 0x2e ∧ b ≠ 0x65 ∧ b ≠ 0x45) : Ends (b :: r) := by
  simpa [Ends] using h

/-- The bytes of the decimal digits of a number. -/
def decimal (n : Nat) : Bytes := (Nat.toDigits 10 n).flatMap String.utf8EncodeChar

theorem utf8EncodeChar_digitChar {d : Nat} (h : d < 10) :
    String.utf8EncodeChar (Nat.digitChar d) = [UInt8.ofNat (0x30 + d)] := by
  interval_cases d <;> rfl

theorem decimal_of_lt {n : Nat} (h : n < 10) : decimal n = [UInt8.ofNat (0x30 + n)] := by
  rw [decimal, Nat.toDigits_of_lt_base h, List.flatMap_singleton, utf8EncodeChar_digitChar h]

theorem decimal_of_le {n : Nat} (h : 10 ≤ n) :
    decimal n = decimal (n / 10) ++ [UInt8.ofNat (0x30 + n % 10)] := by
  rw [decimal, Nat.toDigits_eq_if (by decide), if_neg (by omega), List.flatMap_append, decimal,
    List.flatMap_singleton, utf8EncodeChar_digitChar (by omega)]

theorem toNat_digit {d : Nat} (h : d < 10) : (UInt8.ofNat (0x30 + d)).toNat = 0x30 + d :=
  UInt8.toNat_ofNat_of_lt' (by simp only [UInt8.size]; omega)

theorem isDigit_digit {d : Nat} (h : d < 10) : isDigit (UInt8.ofNat (0x30 + d)) = true := by
  interval_cases d <;> rfl

theorem isDigit_of_mem_decimal {n : Nat} : ∀ b ∈ decimal n, isDigit b = true := by
  induction n using Nat.strong_induction_on with
  | _ n ih =>
    by_cases h : n < 10
    · rw [decimal_of_lt h]
      intro b hb
      rw [List.mem_singleton.1 hb]
      exact isDigit_digit h
    · rw [decimal_of_le (by omega)]
      intro b hb
      rcases List.mem_append.1 hb with hb | hb
      · exact ih (n / 10) (by omega) b hb
      · rw [List.mem_singleton.1 hb]
        exact isDigit_digit (by omega)

theorem digitsValue_decimal (n : Nat) : digitsValue 0 (decimal n) = n := by
  induction n using Nat.strong_induction_on with
  | _ n ih =>
    by_cases h : n < 10
    · rw [decimal_of_lt h]
      simp only [digitsValue, List.foldl_cons, List.foldl_nil, toNat_digit h]
      omega
    · rw [decimal_of_le (by omega)]
      have hrest := ih (n / 10) (by omega)
      simp only [digitsValue, List.foldl_append, List.foldl_cons, List.foldl_nil] at hrest ⊢
      rw [hrest, toNat_digit (by omega)]
      omega

/-- The digits of a number are a single one, or the first of them is no zero. -/
theorem decimal_eq_cons (n : Nat) : ∃ d ds, decimal n = d :: ds ∧ (d = 0x30 → ds = [] ∧ n = 0) := by
  induction n using Nat.strong_induction_on with
  | _ n ih =>
    by_cases h : n < 10
    · refine ⟨_, [], decimal_of_lt h, fun hd => ⟨rfl, ?_⟩⟩
      have := congrArg UInt8.toNat hd
      rw [toNat_digit h] at this
      exact Nat.add_left_cancel (m := n) (k := 0) this
    · obtain ⟨d, ds, hd, hzero⟩ := ih (n / 10) (by omega)
      refine ⟨d, ds ++ [UInt8.ofNat (0x30 + n % 10)], ?_, fun h0 => ?_⟩
      · rw [decimal_of_le (by omega), hd, List.cons_append]
      · have := (hzero h0).2
        omega

/-! ### The grammar -/

/-- Decimal digits, at least one of them. -/
def AreDigits (ds : Bytes) : Prop := ds ≠ [] ∧ ∀ b ∈ ds, isDigit b = true

/-- The digits of an integer: none stand behind a zero in front. -/
def IsInteger (ds : Bytes) : Prop := AreDigits ds ∧ (ds.head? = some 0x30 → ds = [0x30])

/-- The bytes of a fraction with some digits: none, or the digits behind a point. -/
inductive FractionSpelled : (digits : Bytes) → Bytes → Prop
  | absent : FractionSpelled [] []
  | digits {ds : Bytes} (h : AreDigits ds) : FractionSpelled ds (0x2e :: ds)

/-- The bytes of an exponent: none, or its digits behind a letter, with or without a sign. -/
inductive ExponentSpelled : Option Int → Bytes → Prop
  | absent : ExponentSpelled none []
  | unsigned {e : UInt8} {ds : Bytes} (he : e = 0x65 ∨ e = 0x45) (h : AreDigits ds) :
      ExponentSpelled (some (digitsValue 0 ds)) (e :: ds)
  | plus {e : UInt8} {ds : Bytes} (he : e = 0x65 ∨ e = 0x45) (h : AreDigits ds) :
      ExponentSpelled (some (digitsValue 0 ds)) (e :: 0x2b :: ds)
  | minus {e : UInt8} {ds : Bytes} (he : e = 0x65 ∨ e = 0x45) (h : AreDigits ds) :
      ExponentSpelled (some (-(digitsValue 0 ds : Int))) (e :: 0x2d :: ds)

/-- The number with some digits in front of the point, some behind it, and an exponent. -/
def Number.ofParts (negative : Bool) (whole fraction : Bytes) (exponent : Option Int) : Number :=
  if fraction = [] ∧ exponent = none then .whole negative (digitsValue 0 whole)
  else .scaled negative (digitsValue (digitsValue 0 whole) fraction)
    (exponent.getD 0 - fraction.length)

/-- The bytes that spell a number. -/
inductive Number.Spelled : Number → Bytes → Prop
  | mk (negative : Bool) {ds fs w v : Bytes} {e : Option Int} (hds : IsInteger ds)
      (hfs : FractionSpelled fs w) (he : ExponentSpelled e v) :
      Spelled (ofParts negative ds fs e) ((if negative then [0x2d] else []) ++ (ds ++ (w ++ v)))

/-! ### Reading -/

theorem takeWhile_digits {ds rest : Bytes} (hds : ∀ b ∈ ds, isDigit b = true)
    (hrest : ∀ b ∈ rest.head?, isDigit b = false) : (ds ++ rest).takeWhile isDigit = ds := by
  have hnone : rest.takeWhile isDigit = [] := by
    cases rest with
    | nil => rfl
    | cons b r => simp [hrest b rfl]
  rw [List.takeWhile_append_of_pos hds, hnone, List.append_nil]

theorem readInteger_digits {ds rest : Bytes} (hds : IsInteger ds)
    (hrest : ∀ b ∈ rest.head?, isDigit b = false) :
    readInteger (ds ++ rest) = some (ds, rest) := by
  obtain ⟨⟨hne, hdigits⟩, hzero⟩ := hds
  unfold readInteger
  rw [takeWhile_digits hdigits hrest]
  cases ds with
  | nil => exact absurd rfl hne
  | cons d ds =>
    cases ds with
    | nil => rfl
    | cons d' ds =>
      have hd : d ≠ 0x30 := by
        rintro rfl
        cases hzero rfl
      simp [hd]

theorem readFraction_of_head {s : Bytes} (h : ∀ b ∈ s.head?, b ≠ 0x2e) :
    readFraction s = some ([], s) := by
  unfold readFraction
  split
  · next r => exact absurd rfl (h 0x2e rfl)
  · rfl

theorem readFraction_spelled {fs w rest : Bytes} (h : FractionSpelled fs w)
    (hrest : ∀ b ∈ rest.head?, isDigit b = false ∧ b ≠ 0x2e) :
    readFraction (w ++ rest) = some (fs, rest) := by
  cases h with
  | absent => exact readFraction_of_head fun b hb => (hrest b hb).2
  | digits hds =>
    rw [List.cons_append]
    unfold readFraction
    simp only [takeWhile_digits hds.2 fun b hb => (hrest b hb).1]
    split
    · exact absurd rfl hds.1
    · rw [List.drop_left]

theorem readExponent_of_ends {s : Bytes} (h : Ends s) : readExponent s = some (none, s) := by
  cases s with
  | nil => rfl
  | cons b r =>
    obtain ⟨-, -, he, hE⟩ := h b rfl
    rw [readExponent.eq_def]
    exact if_neg (not_or.2 ⟨he, hE⟩)

theorem readExponent_spelled {e : Option Int} {v rest : Bytes} (h : ExponentSpelled e v)
    (hrest : Ends rest) : readExponent (v ++ rest) = some (e, rest) := by
  have htake {ds : Bytes} (hds : AreDigits ds) : (ds ++ rest).takeWhile isDigit = ds :=
    takeWhile_digits hds.2 fun b hb => (hrest b hb).1
  cases h with
  | absent => exact readExponent_of_ends hrest
  | @unsigned e ds he hds =>
    obtain ⟨d, r, rfl⟩ := List.exists_cons_of_ne_nil hds.1
    have hd : isDigit d = true := hds.2 d List.mem_cons_self
    have hminus : d ≠ 0x2d := by rintro rfl; cases hd
    have hplus : d ≠ 0x2b := by rintro rfl; cases hd
    have htake := htake hds
    simp only [List.cons_append] at htake ⊢
    simp [readExponent, he, htake, hminus, hplus]
  | @plus e ds he hds =>
    obtain ⟨d, r, rfl⟩ := List.exists_cons_of_ne_nil hds.1
    have htake := htake hds
    simp only [List.cons_append] at htake ⊢
    simp [readExponent, he, htake]
  | @minus e ds he hds =>
    obtain ⟨d, r, rfl⟩ := List.exists_cons_of_ne_nil hds.1
    have htake := htake hds
    simp only [List.cons_append] at htake ⊢
    simp [readExponent, he, htake]

/-- An exponent, or what stands behind a number, does not go on with the digits in front. -/
theorem head_of_exponent {e : Option Int} {v rest : Bytes} (h : ExponentSpelled e v)
    (hrest : Ends rest) : ∀ b ∈ (v ++ rest).head?, isDigit b = false ∧ b ≠ 0x2e := by
  have hletter {e : UInt8} (he : e = 0x65 ∨ e = 0x45) : isDigit e = false ∧ e ≠ 0x2e := by
    rcases he with rfl | rfl <;> decide
  cases h with
  | absent => exact fun b hb => ⟨(hrest b hb).1, (hrest b hb).2.1⟩
  | unsigned he | plus he | minus he =>
    intro b hb
    cases hb
    exact hletter he

theorem readUnsigned_spelled (negative : Bool) {ds fs w v rest : Bytes} {e : Option Int}
    (hds : IsInteger ds) (hfs : FractionSpelled fs w) (he : ExponentSpelled e v)
    (hrest : Ends rest) : readUnsigned negative (ds ++ (w ++ (v ++ rest))) =
      some (.ofParts negative ds fs e, rest) := by
  have hbehind := head_of_exponent he hrest
  have hhead : ∀ b ∈ (w ++ (v ++ rest)).head?, isDigit b = false := by
    cases hfs with
    | absent => exact fun b hb => (hbehind b hb).1
    | digits =>
      intro b hb
      cases hb
      decide
  unfold readUnsigned
  simp only [readInteger_digits hds hhead, readFraction_spelled hfs hbehind,
    readExponent_spelled he hrest, Option.bind_eq_bind, Option.bind_some]
  unfold Number.ofParts
  split <;> rfl

/-- A number is spelled with a digit or a minus sign in front. -/
theorem Number.Spelled.exists_cons {x : Number} {w : Bytes} (h : x.Spelled w) :
    ∃ b r, w = b :: r ∧ (isDigit b = true ∨ b = 0x2d) := by
  obtain ⟨negative, hds, hfs, he⟩ := h
  cases negative with
  | true => exact ⟨0x2d, _, rfl, .inr rfl⟩
  | false =>
    obtain ⟨d, r, rfl⟩ := List.exists_cons_of_ne_nil hds.1.1
    exact ⟨d, _, rfl, .inl (hds.1.2 d List.mem_cons_self)⟩

/-- **Every spelling of a number is read as that number.** -/
theorem readNumber_spelled {x : Number} {w rest : Bytes} (h : x.Spelled w) (hrest : Ends rest) :
    readNumber (w ++ rest) = some (x, rest) := by
  obtain ⟨negative, hds, hfs, he⟩ := h
  have hread := readUnsigned_spelled negative hds hfs he hrest
  cases negative with
  | true =>
    simp only [if_true, List.cons_append, List.append_assoc]
    exact hread
  | false =>
    obtain ⟨d, r, rfl⟩ := List.exists_cons_of_ne_nil hds.1.1
    have hd : isDigit d = true := hds.1.2 d List.mem_cons_self
    simp only [Bool.false_eq_true, if_false, List.nil_append, List.append_assoc, List.cons_append]
      at hread ⊢
    unfold readNumber
    split
    · next heq =>
      cases heq
      cases hd
    · exact hread

/-! ### Writing -/

theorem isInteger_decimal (n : Nat) : IsInteger (decimal n) := by
  obtain ⟨d, ds, hd, hzero⟩ := decimal_eq_cons n
  refine ⟨⟨by simp [hd], isDigit_of_mem_decimal⟩, fun hhead => ?_⟩
  rw [hd, List.head?_cons, Option.some.injEq] at hhead
  rw [hd, hhead, (hzero hhead).1]

theorem exponentSpelled_decimal (e : Int) : ExponentSpelled (some e)
    (0x65 :: ((if e < 0 then [0x2d] else []) ++ decimal e.natAbs)) := by
  have hdigits := (isInteger_decimal e.natAbs).1
  by_cases hneg : e < 0
  · have h := ExponentSpelled.minus (.inl rfl) hdigits
    rw [digitsValue_decimal, show -(e.natAbs : Int) = e by omega] at h
    simpa [hneg] using h
  · have h := ExponentSpelled.unsigned (.inl rfl) hdigits
    rw [digitsValue_decimal, show (e.natAbs : Int) = e by omega] at h
    simpa [hneg] using h

theorem flatMap_minus (b : Bool) : (if b then ['-'] else []).flatMap String.utf8EncodeChar =
    if b then [0x2d] else [] := by
  cases b <;> rfl

/-- What is written for a number spells it. -/
theorem spelled_writeNumber (x : Number) :
    x.Spelled ((writeNumber x).flatMap String.utf8EncodeChar) := by
  cases x with
  | whole negative n =>
    have h := Number.Spelled.mk negative (isInteger_decimal n) .absent .absent
    rw [Number.ofParts, if_pos ⟨rfl, rfl⟩, digitsValue_decimal] at h
    rw [writeNumber, List.flatMap_append, flatMap_minus]
    simpa [decimal] using h
  | scaled negative n e =>
    have h := Number.Spelled.mk negative (isInteger_decimal n) .absent (exponentSpelled_decimal e)
    rw [Number.ofParts, if_neg (by simp), digitsValue_decimal] at h
    have hminus := flatMap_minus (decide (e < 0))
    simp only [decide_eq_true_eq] at hminus
    have hbytes : (writeNumber (.scaled negative n e)).flatMap String.utf8EncodeChar =
        (if negative then [0x2d] else []) ++ (decimal n ++
          ([] ++ 0x65 :: ((if e < 0 then [0x2d] else []) ++ decimal e.natAbs))) := by
      simp [writeNumber, List.flatMap_append, flatMap_minus, hminus, decimal]
      rfl
    rw [hbytes]
    simpa [digitsValue] using h

/-- **A number is read back from what is written for it.** -/
theorem readNumber_writeNumber (x : Number) {rest : Bytes} (h : Ends rest) :
    readNumber ((writeNumber x).flatMap String.utf8EncodeChar ++ rest) = some (x, rest) :=
  readNumber_spelled (spelled_writeNumber x) h

end LedgerBridge.Json
