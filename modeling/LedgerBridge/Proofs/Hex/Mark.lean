import LedgerBridge.Proofs.Hex.Fixed
import LedgerBridge.Proofs.Quantity

/-!
# Texts with and without the mark

Digits have no mark in front, so taking the mark off changes nothing about them, and putting it in
front gives a text which has the mark only once.

* `bare_of_not_isMarked`: without the mark a text is bare already;
* `IsDigits`: the texts of digits, among them those of byte strings (`isDigits_encode`) and of
  quantities (`isDigits_digits`). None of them has the mark (`not_isMarked_of_isDigits`);
* `decode_encode`, `parse_digits`, `parse_text`: reading digits gives back what was written;
* `not_isMarked_bare_of_parse`: what denotes a value of fixed width has the mark at most once.
-/

namespace LedgerBridge

namespace Hex

/-- The mark stands in front of the text. -/
def IsMarked (s : String) : Prop := ∃ t, s = marked t

theorem marked_injective {s t : String} (h : marked s = marked t) : s = t := by
  have := congrArg String.toList h
  rw [toList_marked, toList_marked] at this
  exact String.toList_inj.1 (List.cons.inj (List.cons.inj this).2).2

/-- The mark stands once in front of a text that did not have it. -/
theorem marked_ne_marked_marked {s : String} (h : ¬ IsMarked s) (t : String) :
    marked s ≠ marked (marked t) :=
  fun he => h ⟨t, marked_injective he⟩

theorem bare_of_not_isMarked {s : String} (h : ¬ IsMarked s) : bare s = s := by
  unfold bare
  split
  · next c r hs =>
    refine absurd ⟨String.ofList (c :: r), ?_⟩ h
    rw [← String.toList_inj, toList_marked, hs, String.toList_ofList]
  · rfl

/-- Every character of the text is a digit, of either case. -/
def IsDigits (s : String) : Prop := ∀ c ∈ s.toList, (Quantity.digitValue? c).isSome

instance (s : String) : Decidable (IsDigits s) :=
  List.decidableBAll (fun c => (Quantity.digitValue? c).isSome) s.toList

theorem not_isMarked_of_isDigits {s : String} (h : IsDigits s) : ¬ IsMarked s := by
  rintro ⟨t, rfl⟩
  have hx : 'x' ∈ (marked t).toList := by simp [toList_marked]
  exact absurd (h _ hx) (by decide)

theorem isDigits_encode (bytes : Bytes) : IsDigits (encode bytes) := by
  intro c hc
  rw [encode, String.toList_ofList] at hc
  obtain ⟨b, -, hc⟩ := List.mem_flatMap.1 hc
  have hb := b.toNat_lt
  simp only [encodeByte, digit, List.mem_cons, List.not_mem_nil, or_false] at hc
  rcases hc with rfl | rfl <;> rw [Quantity.digitValue?_digitChar (by omega)] <;> rfl

theorem isDigits_of_numberFrom {cs : List Char} {value n : Nat}
    (h : Quantity.numberFrom value cs = some n) : ∀ c ∈ cs, (Quantity.digitValue? c).isSome := by
  induction cs generalizing value with
  | nil => simp
  | cons c cs ih =>
    obtain ⟨d, hd, h⟩ := Option.bind_eq_some_iff.1 h
    exact List.forall_mem_cons.2 ⟨by rw [hd]; rfl, ih h⟩

theorem isDigits_digits (n : UInt64) : IsDigits (Quantity.digits n) := by
  intro c hc
  rw [Quantity.digits, String.toList_ofList] at hc
  exact isDigits_of_numberFrom (Quantity.numberFrom_toDigits n.toNat) c hc

/-! ### Digits read as bytes -/

theorem value?_digit {n : Nat} (h : n < 16) :
    ∃ byte, String.utf8EncodeChar (digit n) = [byte] ∧ value? byte = some n := by
  interval_cases n <;> exact ⟨_, rfl, rfl⟩

/-- The digits of the first byte are the first two bytes of the text. -/
theorem encode_cons (b : UInt8) (bytes : Bytes) : ∃ high low,
    Utf8.encode (encode (b :: bytes)) = high :: low :: Utf8.encode (encode bytes) ∧
    value? high = some (b.toNat / 16) ∧ value? low = some (b.toNat % 16) := by
  have hb := b.toNat_lt
  obtain ⟨high, hhigh, hvalue⟩ := value?_digit (n := b.toNat / 16) (by omega)
  obtain ⟨low, hlow, hvalue'⟩ := value?_digit (n := b.toNat % 16) (by omega)
  refine ⟨high, low, ?_, hvalue, hvalue'⟩
  rw [encode, encode, Utf8.encode_ofList, Utf8.encode_ofList, encodeChars, List.flatMap_cons,
    encodeByte, List.flatMap_append, List.flatMap_cons, List.flatMap_singleton, hhigh, hlow]
  rfl

theorem length_encode (bytes : Bytes) : (Utf8.encode (encode bytes)).length = 2 * bytes.length := by
  induction bytes with
  | nil => rfl
  | cons b bytes ih =>
    obtain ⟨high, low, hcons, -, -⟩ := encode_cons b bytes
    rw [hcons, List.length_cons, List.length_cons, List.length_cons, ih]
    rfl

theorem decodeFrom_encode (position : Nat) (bytes : Bytes) :
    decodeFrom position (Utf8.encode (encode bytes)) = .ok bytes := by
  induction bytes generalizing position with
  | nil => rfl
  | cons b bytes ih =>
    obtain ⟨high, low, hcons, hhigh, hlow⟩ := encode_cons b bytes
    rw [hcons, decodeFrom, hhigh, hlow]
    simp only [ih, map_ok, Nat.div_add_mod', UInt8.ofNat_toNat]

/-- **Digits are read back.** -/
theorem decode_encode (bytes : Bytes) : decode (Utf8.encode (encode bytes)) = .ok bytes := by
  rw [decode, length_encode, if_neg (by omega), decodeFrom_encode]

/-- The byte `x` is no digit, so marked texts are not the digits of a byte string. -/
theorem decode_marked (s : String) : ∃ flaw, decode (Utf8.encode (marked s)) = .error flaw := by
  have h : Utf8.encode (marked s) = 0x30 :: 0x78 :: Utf8.encode s := by
    rw [marked, Utf8.encode_append]
    rfl
  rw [h, decode]
  split
  · exact ⟨_, rfl⟩
  · exact ⟨_, rfl⟩

end Hex

namespace FixedHex

variable {n : Nat} {s : String} {v : FixedHex n}

theorem not_isMarked_bare_of_parse (h : parse n s = .ok v) : ¬ Hex.IsMarked (Hex.bare s) := by
  rintro ⟨t, ht⟩
  obtain ⟨flaw, hflaw⟩ := Hex.decode_marked t
  rw [parse, ht, hflaw] at h
  simp only at h
  split at h <;> cases h

/-- The digits of a value denote it. -/
theorem parse_digits (v : FixedHex n) : parse n v.digits = .ok v := by
  have hbare : Hex.bare v.digits = v.digits :=
    Hex.bare_of_not_isMarked (Hex.not_isMarked_of_isDigits (Hex.isDigits_encode _))
  have hlength : (Utf8.encode v.digits).length = 2 * n := by
    rw [digits, Hex.length_encode, v.length_bytes]
  have hdecode : Hex.decode (Utf8.encode v.digits) = .ok v.bytes := Hex.decode_encode _
  simp only [parse, hbare, hlength, hdecode, v.length_bytes]
  simp

/-- **A value of fixed width is read as it is shown.** -/
theorem parse_text (hn : 0 < n) (v : FixedHex n) : parse n v.text = .ok v := by
  have hdigits : v.digits ≠ "" := by
    intro h
    have hlength := Hex.length_encode v.bytes
    rw [← digits, h, v.length_bytes] at hlength
    exact absurd hlength (by simpa [Utf8.encode] using hn.ne')
  have hbare : Hex.bare v.text = Hex.bare v.digits := by
    rw [text, Hex.ofBytes, ← digits, Hex.bare_marked hdigits]
    exact (Hex.bare_of_not_isMarked (Hex.not_isMarked_of_isDigits (Hex.isDigits_encode _))).symm
  have hsame := toOption_parse_congr (n := n) hbare
  rw [parse_digits] at hsame
  exact toOption_eq_some.1 hsame

/-- Without the mark a text denotes what it denotes with the mark. -/
theorem parse_bare (h : parse n s = .ok v) : parse n (Hex.bare s) = .ok v := by
  have hbare : Hex.bare (Hex.bare s) = Hex.bare s :=
    Hex.bare_of_not_isMarked (not_isMarked_bare_of_parse h)
  have hsame := toOption_parse_congr (n := n) hbare
  rw [h] at hsame
  exact toOption_eq_some.1 hsame

end FixedHex

end LedgerBridge
