import LedgerBridge.Proofs.Hex.Denotes
import LedgerBridge.Proofs.Json.RoundTrip
import LedgerBridge.Proofs.Text.Case

/-!
# Values of fixed width in their normal form

However a value of fixed width was spelled, it is written with the mark and in lower case.

* `Hex.Strips s t`: the text `t` is left of `s` when the mark in front is taken off, which is done
  only if something follows it. `Hex.strips_bare` and `Hex.Strips.eq_bare`: this is what `Hex.bare`
  leaves;
* `Hex.alphabet` are the digits of either case and `Hex.IsDigit` says which value each has;
* `Hex.toLower_of_recases`: in lower case, the digits of some bytes are those that are written for
  them;
* `FixedHex.Normal`: how a value is written that was read from some digits;
* `FixedHex.Verdict`: what is read from a text, or what is wrong with it. `FixedHex.parse_exact`: so
  it is for every text.
-/

namespace LedgerBridge

namespace Hex

variable {s t : String}

/-! ### The mark -/

/-- What is left of a text: the mark in front is taken off if something follows it. -/
inductive Strips (s : String) : String → Prop
  | mark {t : String} (hs : s = marked t) (ht : t ≠ "") : Strips s t
  | plain (h : ∀ t, s = marked t → t = "") : Strips s s

theorem bare_of_forall_eq_empty (h : ∀ t, s = marked t → t = "") : bare s = s := by
  by_cases hs : IsMarked s
  · obtain ⟨t, rfl⟩ := hs
    obtain rfl := h t rfl
    rfl
  · exact bare_of_not_isMarked hs

theorem strips_bare (s : String) : Strips s (bare s) := by
  by_cases h : ∀ t, s = marked t → t = ""
  · rw [bare_of_forall_eq_empty h]
    exact .plain h
  · push Not at h
    obtain ⟨t, rfl, ht⟩ := h
    rw [bare_marked ht]
    exact .mark rfl ht

theorem Strips.eq_bare (h : Strips s t) : t = bare s := by
  cases h with
  | mark hs ht => rw [hs, bare_marked ht]
  | plain h => exact (bare_of_forall_eq_empty h).symm

/-! ### Digits -/

/-- The digits that are written. -/
def lowercase : List Char :=
  ['0', '1', '2', '3', '4', '5', '6', '7', '8', '9', 'a', 'b', 'c', 'd', 'e', 'f']

/-- The digits of the other case. -/
def uppercase : List Char :=
  ['0', '1', '2', '3', '4', '5', '6', '7', '8', '9', 'A', 'B', 'C', 'D', 'E', 'F']

/-- The characters that are digits. -/
def alphabet : List Char := lowercase ++ uppercase

/-- The character is a digit, of either case, and has this value. -/
def IsDigit (c : Char) (k : Nat) : Prop := lowercase[k]? = some c ∨ uppercase[k]? = some c

instance : DecidableRel IsDigit := fun c k =>
  inferInstanceAs (Decidable (lowercase[k]? = some c ∨ uppercase[k]? = some c))

theorem digitValue?_eq_some_iff {c : Char} {k : Nat} :
    Quantity.digitValue? c = some k ↔ IsDigit c k := by
  have hascii : ∀ m < 0x80, ∀ k ∈ Quantity.digitValue? (Char.ofNat m),
      IsDigit (Char.ofNat m) k := by
    decide +kernel
  have hlower : ∀ p ∈ lowercase.zipIdx, Quantity.digitValue? p.1 = some p.2 := by decide
  have hupper : ∀ p ∈ uppercase.zipIdx, Quantity.digitValue? p.1 = some p.2 := by decide
  constructor
  · intro h
    have hc := hascii c.toNat (toNat_lt_of_digitValue? h) k
    rw [Char.ofNat_toNat] at hc
    exact hc h
  · rintro (h | h)
    · exact hlower (c, k) (List.mk_mem_zipIdx_iff_getElem?.2 h)
    · exact hupper (c, k) (List.mk_mem_zipIdx_iff_getElem?.2 h)

theorem isSome_digitValue?_iff {c : Char} : (Quantity.digitValue? c).isSome ↔ c ∈ alphabet := by
  rw [alphabet, List.mem_append, List.mem_iff_getElem?, List.mem_iff_getElem?, ← exists_or,
    Option.isSome_iff_exists]
  simp only [digitValue?_eq_some_iff, IsDigit]

theorem isDigits_iff : IsDigits s ↔ ∀ c ∈ s.toList, c ∈ alphabet := by
  simp only [IsDigits, isSome_digitValue?_iff]

/-- The letters among the digits that are written are in lower case. -/
theorem SameDigit.toLower_eq {k : Nat} {c : Char} (hk : k < 16) (h : SameDigit (digit k) c) :
    c.toLower = digit k := by
  have hlower : ∀ k < 16, (digit k).toLower = digit k := by decide
  have hletters : ∀ p ∈ letters, p.2.toLower = p.1 := by decide
  have hupper : ∀ p ∈ letters, ∀ k < 16, digit k ≠ p.2 := by decide
  rcases h with rfl | h | h
  · exact hlower k hk
  · exact hletters _ h
  · exact absurd rfl (hupper _ h k hk)

theorem encodeChars_cons (b : UInt8) (bytes : Bytes) :
    encodeChars (b :: bytes) = digit (b.toNat / 16) :: digit (b.toNat % 16) :: encodeChars bytes :=
  rfl

/-- By induction on the bytes, of which each takes two digits. -/
theorem map_toLower_of_forall₂ {bytes : Bytes} {cs : List Char}
    (h : List.Forall₂ SameDigit (encodeChars bytes) cs) :
    cs.map Char.toLower = encodeChars bytes := by
  induction bytes generalizing cs with
  | nil =>
    cases h
    rfl
  | cons b bytes ih =>
    have hb := b.toNat_lt
    rw [encodeChars_cons] at h ⊢
    obtain _ | ⟨hhigh, _ | ⟨hlow, hrest⟩⟩ := h
    rw [List.map_cons, List.map_cons, hhigh.toLower_eq (by omega), hlow.toLower_eq (by omega),
      ih hrest]

theorem toList_toLower (s : String) : s.toLower.toList = s.toList.map Char.toLower :=
  String.toList_map

/-- **In lower case, the digits of some bytes are those which are written for them.** -/
theorem toLower_of_recases {bytes : Bytes} (h : Recases (encode bytes) t) :
    t.toLower = encode bytes := by
  rw [Recases, encode, String.toList_ofList] at h
  apply String.toList_inj.1
  rw [toList_toLower, map_toLower_of_forall₂ h, encode, String.toList_ofList]

theorem encode_injective {bytes bytes' : Bytes} (h : encode bytes = encode bytes') :
    bytes = bytes' := by
  have hdecode := decode_encode bytes
  rw [h, decode_encode] at hdecode
  exact (Except.ok.inj hdecode).symm

/-! ### Zero -/

theorem digit_eq_zero_iff {k : Nat} (hk : k < 16) : digit k = '0' ↔ k = 0 := by
  interval_cases k <;> decide

theorem toLower_eq_zero_iff {c : Char} : c.toLower = '0' ↔ c = '0' := by
  constructor
  · intro h
    by_cases hc : 'A'.val ≤ c.val ∧ c.val ≤ 'Z'.val
    · have hsmall : c.toLower.isLower = true := Case.isLower_toLower (decide_eq_true hc)
      rw [h] at hsmall
      exact absurd hsmall (by decide)
    · have hsame : c.toLower = c := dif_neg hc
      rwa [hsame] at h
  · rintro rfl
    rfl

theorem forall_encodeChars_eq_zero_iff {bytes : Bytes} :
    (∀ c ∈ encodeChars bytes, c = '0') ↔ ∀ b ∈ bytes, b = 0 := by
  induction bytes with
  | nil => simp [encodeChars]
  | cons b bytes ih =>
    have hb := b.toNat_lt
    rw [encodeChars_cons, List.forall_mem_cons, List.forall_mem_cons, List.forall_mem_cons, ih,
      digit_eq_zero_iff (by omega), digit_eq_zero_iff (by omega), ← UInt8.toNat_inj,
      UInt8.toNat_zero]
    constructor
    · rintro ⟨hhigh, hlow, hrest⟩
      exact ⟨by omega, hrest⟩
    · rintro ⟨hzero, hrest⟩
      exact ⟨by omega, by omega, hrest⟩

end Hex

namespace FixedHex

open Hex (Recases Strips alphabet)

variable {n : Nat} {s t : String} {v : FixedHex n}

/-! ### What is read -/

theorem digits_injective {v w : FixedHex n} (h : v.digits = w.digits) : v = w :=
  ext_iff'.2 (Hex.encode_injective h)

/-- A text is read as a value exactly if its digits are those of the value, each in either case. -/
theorem parse_eq_ok_iff_recases : parse n s = .ok v ↔ Recases v.digits (Hex.bare s) := by
  rw [parse_eq_ok, Hex.decode_eq_ok_iff]
  refine ⟨fun h => h.2, fun h => ⟨?_, h⟩⟩
  rw [← h.forall₂_bytes.length_eq, digits, Hex.length_encode, v.length_bytes]

/-- The texts that are read are those of `2 * n` digits, the mark in front left aside. -/
theorem exists_parse_iff_isDigits :
    (∃ v, parse n s = .ok v) ↔ Hex.IsDigits (Hex.bare s) ∧ (Hex.bare s).toList.length = 2 * n := by
  simp only [parse_eq_ok_iff_recases, ← Hex.exists_recases_encode_iff]
  constructor
  · rintro ⟨v, h⟩
    exact ⟨v.bytes, v.length_bytes, h⟩
  · rintro ⟨bytes, hlen, h⟩
    exact ⟨⟨bytes, hlen⟩, h⟩

theorem parse_eq_error_flaw (h : ¬ ∃ v, parse n s = .ok v) : parse n s = .error (flaw n s) := by
  cases hs : parse n s with
  | ok v => exact absurd ⟨v, hs⟩ h
  | error e => rw [eq_flaw_of_parse hs]

theorem ofJson?_render (hn : 0 < n) (v : FixedHex n) :
    (Json.parse? (Utf8.encode v.toJson.render)).bind (ofJson? n) = some v := by
  rw [toJson, Json.parse?_render (.text v.text), Option.bind_some, ofJson?, Json.asText?,
    Option.bind_some, parse_text hn]
  rfl

/-- A value that was read from digits, in the forms in which it is written. -/
structure Normal (v : FixedHex n) (t : String) : Prop where
  /-- It is shown with the mark and in lower case, and stored without the mark. -/
  text : v.text = "0x" ++ t.toLower
  digits : v.digits = t.toLower
  /-- Each of its forms is read as the same value. -/
  ofText : parse n v.text = .ok v
  ofDigits : parse n v.digits = .ok v
  ofJson : (Json.parse? (Utf8.encode v.toJson.render)).bind (ofJson? n) = some v
  /-- It is zero if all of its digits are. -/
  zero : v.isZero = true ↔ ∀ c ∈ t.toList, c = '0'

theorem isZero_iff_of_recases (h : Recases v.digits t) :
    v.isZero = true ↔ ∀ c ∈ t.toList, c = '0' := by
  have hlower := congrArg String.toList (Hex.toLower_of_recases h)
  rw [Hex.encode, String.toList_ofList, Hex.toList_toLower] at hlower
  calc v.isZero = true ↔ ∀ b ∈ v.bytes, b = 0 := by simp [isZero]
    _ ↔ ∀ c ∈ Hex.encodeChars v.bytes, c = '0' := Hex.forall_encodeChars_eq_zero_iff.symm
    _ ↔ ∀ c ∈ t.toList, c.toLower = '0' := by rw [← hlower, List.forall_mem_map]
    _ ↔ ∀ c ∈ t.toList, c = '0' := by simp only [Hex.toLower_eq_zero_iff]

theorem normal_of_recases (hn : 0 < n) (h : Recases v.digits t) : Normal v t where
  text := by rw [Hex.toLower_of_recases h]; rfl
  digits := (Hex.toLower_of_recases h).symm
  ofText := parse_text hn v
  ofDigits := parse_digits v
  ofJson := ofJson?_render hn v
  zero := isZero_iff_of_recases h

/-- What is read from a text of which `t` is left without the mark. -/
structure Verdict (n : Nat) (s t : String) : Prop where
  /-- The texts of `2 * n` digits are read. -/
  accepted : (∃ v, parse n s = .ok v) ↔ (∀ c ∈ t.toList, c ∈ alphabet) ∧ t.length = 2 * n
  /-- A text with another number of bytes is refused for it. -/
  invalidLength (h : (Utf8.encode t).length ≠ 2 * n) :
    parse n s = .error (.invalidLength (2 * n) (Utf8.encode t).length s)
  /-- A text with the right number of bytes may still have something else than digits in it. -/
  invalidDigits (h : (Utf8.encode t).length = 2 * n)
    (hdigits : ¬ ((∀ c ∈ t.toList, c ∈ alphabet) ∧ t.length = 2 * n)) :
    parse n s = .error (.invalidDigits s)
  normal {v : FixedHex n} (h : parse n s = .ok v) : Normal v t
  /-- The text is a spelling of a value exactly if it is read and has the digits of the value. -/
  denoted (v : FixedHex n) :
    v.denotedBy s = true ↔ (∃ w, parse n s = .ok w) ∧ t.toLower = v.digits
  /-- With the mark in front, the same is read. -/
  marked (v : FixedHex n) : parse n (Hex.marked t) = .ok v ↔ parse n s = .ok v

theorem denotedBy_iff_toLower :
    v.denotedBy s = true ↔ (∃ w, parse n s = .ok w) ∧ (Hex.bare s).toLower = v.digits := by
  have hlower {w : FixedHex n} (hw : parse n s = .ok w) : (Hex.bare s).toLower = w.digits :=
    Hex.toLower_of_recases (parse_eq_ok_iff_recases.1 hw)
  constructor
  · intro h
    have hv := parse_of_denotedBy h
    exact ⟨⟨v, hv⟩, hlower hv⟩
  · rintro ⟨⟨w, hw⟩, hv⟩
    obtain rfl : w = v := digits_injective ((hlower hw).symm.trans hv)
    rw [denotedBy_eq, hw]
    simp [Except.toOption]

theorem verdict_bare (hn : 0 < n) (s : String) : Verdict n s (Hex.bare s) where
  accepted := by
    rw [exists_parse_iff_isDigits, Hex.isDigits_iff, String.length_toList]
  invalidLength h := by
    have hnone : ¬ ∃ v, parse n s = .ok v := fun ⟨v, hv⟩ => h (parse_eq_ok.1 hv).1
    rw [parse_eq_error_flaw hnone, flaw, if_neg h]
  invalidDigits h hdigits := by
    have hnone : ¬ ∃ v, parse n s = .ok v := by
      rwa [exists_parse_iff_isDigits, Hex.isDigits_iff, String.length_toList]
    rw [parse_eq_error_flaw hnone, flaw, if_pos h]
  normal h := normal_of_recases hn (parse_eq_ok_iff_recases.1 h)
  denoted v := denotedBy_iff_toLower
  marked v := by
    rw [← toOption_eq_some, ← toOption_eq_some, toOption_parse_marked_bare hn]

/-- **Exactly the texts of `2 * n` digits are read, and what was read is written in one form
only.** -/
theorem parse_exact (hn : 0 < n) (s : String) : ∃ t, Strips s t ∧ Verdict n s t :=
  ⟨Hex.bare s, Hex.strips_bare s, verdict_bare hn s⟩

theorem parse_exact_samples :
    (0 < 20 ∧ ∃ v, parse 20 "0xABCDEFabcdef0123456789ABCDEFabcdef012345" = .ok v ∧
      v.text = "0xabcdefabcdef0123456789abcdefabcdef012345" ∧ v.isZero = false) ∧
    (0 < 32 ∧ parse 32 "0x00000000000000000000000000000000000000000000000000000000000000é" =
      .error (.invalidDigits
        "0x00000000000000000000000000000000000000000000000000000000000000é")) := by
  obtain ⟨t, ht, haddress⟩ :=
    @parse_exact 20 (by decide) "0xABCDEFabcdef0123456789ABCDEFabcdef012345"
  obtain rfl := ht.eq_bare
  obtain ⟨u, hu, htopic⟩ := @parse_exact 32 (by decide)
    "0x00000000000000000000000000000000000000000000000000000000000000é"
  obtain rfl := hu.eq_bare
  obtain ⟨v, hv⟩ := haddress.accepted.2 ⟨Hex.isDigits_iff.1 (by decide +kernel), by decide +kernel⟩
  have hzero : ¬ v.isZero = true := fun h =>
    absurd ((haddress.normal hv).zero.1 h 'A' (by decide +kernel)) (by decide)
  refine ⟨⟨by decide, v, hv, (haddress.normal hv).text.trans (by decide +kernel),
      by simpa using hzero⟩,
    by decide, htopic.invalidDigits (by decide +kernel) fun h => ?_⟩
  exact absurd (Hex.isDigits_iff.2 h.1) (by decide +kernel)

end FixedHex

end LedgerBridge
