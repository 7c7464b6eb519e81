import LedgerBridge.Proofs.Hex.Digits

/-!
# What the texts of values of fixed width denote

* `Hex.exists_recases_encode_iff`: the texts that are the digits of `n` bytes are those of `2 * n`
  digits, in any case;
* `FixedHex.Denotes`: a text denotes bytes if it is their digits, with or without the mark;
* `FixedHex.parse_eq_ok_iff` and `FixedHex.parse_eq_error_iff`: these are the texts that are read as
  a value of fixed width, and the others are rejected for their length or else for a digit.
-/

namespace LedgerBridge

namespace Hex

/-- Only characters of ASCII have a value as digits. -/
theorem toNat_lt_of_digitValue? {c : Char} {k : Nat} (h : Quantity.digitValue? c = some k) :
    c.toNat < 0x80 := by
  unfold Quantity.digitValue? at h
  split_ifs at h with hdigit hlower hupper
  · exact lt_of_le_of_lt hdigit.2 (by decide)
  · exact lt_of_le_of_lt hlower.2 (by decide)
  · exact lt_of_le_of_lt hupper.2 (by decide)

theorem digitValue?_spec : ∀ m < 0x80, ∀ k ∈ Quantity.digitValue? (Char.ofNat m),
    k < 16 ∧ SameDigit (digit k) (Char.ofNat m) := by
  decide +kernel

/-- A digit of either case is the digit of its value. -/
theorem sameDigit_of_digitValue? {c : Char} {k : Nat} (h : Quantity.digitValue? c = some k) :
    k < 16 ∧ SameDigit (digit k) c := by
  have hspec := digitValue?_spec c.toNat (toNat_lt_of_digitValue? h) k
  rw [Char.ofNat_toNat] at hspec
  exact hspec h

/-- Digits stay digits in the other case. -/
theorem Recases.isDigits {s t : String} (h : Recases s t) (hs : IsDigits s) : IsDigits t := by
  have hvalues : s.toList.map Quantity.digitValue? = t.toList.map Quantity.digitValue? := by
    rw [← List.forall₂_eq_eq_eq, List.forall₂_map_left_iff, List.forall₂_map_right_iff]
    exact h.imp fun _ _ => SameDigit.digitValue?_eq
  intro d hd
  have hmem : Quantity.digitValue? d ∈ s.toList.map Quantity.digitValue? :=
    hvalues ▸ List.mem_map_of_mem hd
  obtain ⟨c, hc, hcd⟩ := List.mem_map.1 hmem
  exact hcd ▸ hs c hc

/-- Two digits are the digits of one byte. -/
theorem exists_encodeByte {c d : Char} (hc : (Quantity.digitValue? c).isSome)
    (hd : (Quantity.digitValue? d).isSome) :
    ∃ b, List.Forall₂ SameDigit (encodeByte b) [c, d] := by
  obtain ⟨m, hm⟩ := Option.isSome_iff_exists.1 hc
  obtain ⟨n, hn⟩ := Option.isSome_iff_exists.1 hd
  obtain ⟨hm, hsame⟩ := sameDigit_of_digitValue? hm
  obtain ⟨hn, hsame'⟩ := sameDigit_of_digitValue? hn
  have hbyte : (UInt8.ofNat (m * 16 + n)).toNat = m * 16 + n := Utf8.toNat_ofNat (by omega)
  refine ⟨UInt8.ofNat (m * 16 + n), ?_⟩
  rw [encodeByte, hbyte, show (m * 16 + n) / 16 = m by omega, show (m * 16 + n) % 16 = n by omega]
  exact .cons hsame (.cons hsame' .nil)

/-- By induction on the bytes, of which each takes two digits. -/
theorem exists_forall₂_encodeChars {n : Nat} {cs : List Char} (hlen : cs.length = 2 * n)
    (hcs : ∀ c ∈ cs, (Quantity.digitValue? c).isSome) :
    ∃ bytes, bytes.length = n ∧ List.Forall₂ SameDigit (encodeChars bytes) cs := by
  induction n generalizing cs with
  | zero =>
    obtain rfl := List.eq_nil_of_length_eq_zero hlen
    exact ⟨[], rfl, .nil⟩
  | succ n ih =>
    match cs, hlen, hcs with
    | c :: d :: cs, hlen, hcs =>
      obtain ⟨hc, hd, hcs⟩ := by simpa only [List.forall_mem_cons] using hcs
      obtain ⟨b, hb⟩ := exists_encodeByte hc hd
      obtain ⟨bytes, hbytes, hrest⟩ := ih (by simp only [List.length_cons] at hlen; omega) hcs
      exact ⟨b :: bytes, by rw [List.length_cons, hbytes], List.rel_append hb hrest⟩

/-- **The texts that are the digits of `n` bytes are those of `2 * n` digits.** -/
theorem exists_recases_encode_iff {n : Nat} {t : String} :
    (∃ bytes, bytes.length = n ∧ Recases (encode bytes) t) ↔
      IsDigits t ∧ t.toList.length = 2 * n := by
  constructor
  · rintro ⟨bytes, rfl, h⟩
    refine ⟨h.isDigits (isDigits_encode bytes), ?_⟩
    rw [← h.length_eq, encode, String.toList_ofList, length_encodeChars]
  · rintro ⟨hdigits, hlen⟩
    obtain ⟨bytes, hbytes, h⟩ := exists_forall₂_encodeChars hlen hdigits
    exact ⟨bytes, hbytes, by rwa [Recases, encode, String.toList_ofList]⟩

end Hex

namespace FixedHex

variable {n : Nat} {s : String} {v : FixedHex n}

/-- The text, without the mark if it has one, is the digits of `n` bytes, each in either case. -/
def Denotes (n : Nat) (s : String) (bytes : Bytes) : Prop :=
  bytes.length = n ∧ ∃ t, (s = t ∨ s = Hex.marked t) ∧ Hex.Recases (Hex.encode bytes) t

/-- **The texts that denote `n` bytes are those of `2 * n` digits, with or without the mark.** -/
theorem exists_denotes_iff : (∃ bytes, Denotes n s bytes) ↔
    ∃ t, (s = t ∨ s = Hex.marked t) ∧ Hex.IsDigits t ∧ t.toList.length = 2 * n := by
  simp only [← Hex.exists_recases_encode_iff, Denotes]
  constructor
  · rintro ⟨bytes, hlen, t, hs, h⟩
    exact ⟨t, hs, bytes, hlen, h⟩
  · rintro ⟨t, hs, bytes, hlen, h⟩
    exact ⟨bytes, hlen, t, hs, h⟩

/-- **These are the texts that are read as a value.** The mark alone would denote no bytes, but it
is not taken off. -/
theorem parse_eq_ok_iff (hn : 0 < n) : parse n s = .ok v ↔ Denotes n s v.bytes := by
  rw [parse_eq_ok, Hex.decode_eq_ok_iff]
  constructor
  · rintro ⟨-, h⟩
    refine ⟨v.length_bytes, ?_⟩
    by_cases hs : Hex.IsMarked s
    · obtain ⟨t, rfl⟩ := hs
      have ht : t ≠ "" := by
        rintro rfl
        exact absurd (h.isDigits (Hex.isDigits_encode _)) (by decide)
      rw [Hex.bare_marked ht] at h
      exact ⟨t, .inr rfl, h⟩
    · rw [Hex.bare_of_not_isMarked hs] at h
      exact ⟨s, .inl rfl, h⟩
  · rintro ⟨-, t, hs, h⟩
    have hlen : (Utf8.encode t).length = 2 * n := by
      rw [← h.forall₂_bytes.length_eq, Hex.length_encode, v.length_bytes]
    have hbare : Hex.bare s = t := by
      rcases hs with rfl | rfl
      · exact Hex.bare_of_not_isMarked
          (Hex.not_isMarked_of_isDigits (h.isDigits (Hex.isDigits_encode _)))
      · refine Hex.bare_marked ?_
        rintro rfl
        exact absurd hlen (by rw [show Utf8.encode "" = [] from rfl, List.length_nil]; omega)
    rw [hbare]
    exact ⟨hlen, h⟩

theorem exists_parse_iff (hn : 0 < n) :
    (∃ v, parse n s = .ok v) ↔ ∃ bytes, Denotes n s bytes := by
  simp only [parse_eq_ok_iff hn]
  exact ⟨fun ⟨v, h⟩ => ⟨v.bytes, h⟩, fun ⟨bytes, h⟩ => ⟨⟨bytes, h.1⟩, h⟩⟩

theorem denotedBy_iff (hn : 0 < n) : v.denotedBy s = true ↔ Denotes n s v.bytes := by
  rw [← parse_eq_ok_iff hn, denotedBy_eq, beq_iff_eq, toOption_eq_some]

/-- What is wrong with a text that denotes nothing: its length in bytes, and otherwise some
digit. -/
def flaw (n : Nat) (s : String) : HexError :=
  let got := (Utf8.encode (Hex.bare s)).length
  if got = 2 * n then .invalidDigits s else .invalidLength (2 * n) got s

theorem eq_flaw_of_parse {e : HexError} (h : parse n s = .error e) : e = flaw n s := by
  unfold parse at h
  unfold flaw
  by_cases hlen : (Utf8.encode (Hex.bare s)).length = 2 * n
  · simp only [hlen, ne_eq, not_true_eq_false, if_false, if_true] at h ⊢
    split at h
    · split at h
      · cases h
      · exact (Except.error.inj h).symm
    · exact (Except.error.inj h).symm
  · simp only [hlen, ne_eq, not_false_eq_true, if_true, if_false] at h ⊢
    exact (Except.error.inj h).symm

/-- **The other texts are rejected for their flaw.** -/
theorem parse_eq_error_iff (hn : 0 < n) {e : HexError} :
    parse n s = .error e ↔ (¬ ∃ bytes, Denotes n s bytes) ∧ e = flaw n s := by
  rw [← exists_parse_iff hn]
  constructor
  · intro h
    exact ⟨by simp [h], eq_flaw_of_parse h⟩
  · rintro ⟨hnone, rfl⟩
    cases h : parse n s with
    | ok v => exact absurd ⟨v, h⟩ hnone
    | error e => rw [eq_flaw_of_parse h]

end FixedHex

end LedgerBridge
