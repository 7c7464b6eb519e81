import LedgerBridge.Proofs.Text.Utf8
import LedgerBridge.Url.Percent

/-!
# Percent-encoding read back

* `decode_encodeChars`: where the percent sign is reserved, decoding gives back the text;
* `mem_encodeChars`: what is written holds no reserved character but the percent sign and digits;
* `isPlain_encodeChars`: where those are not reserved, what is written stands for itself.
-/

namespace LedgerBridge.Url

namespace Percent

theorem value?_digit {n : Nat} (h : n < 16) :
    ∃ b, String.utf8EncodeChar (digit n) = [b] ∧ Hex.value? b = some n := by
  interval_cases n <;> exact ⟨_, rfl, rfl⟩

theorem decode_cons_of_ne {b : UInt8} (h : b ≠ 0x25) (r : Bytes) :
    decode (b :: r) = b :: decode r := by
  rw [decode.eq_2 b r fun _ _ _ hb => absurd hb h]

/-! ### Reading -/

/-- What a part of a URL stands for is not longer. -/
theorem length_decode_le (b : Bytes) : (decode b).length ≤ b.length := by
  induction b using decode.induct with
  | case1 high low r h l hl hh ih =>
    rw [decode, hh, hl]
    simp only [List.length_cons]
    omega
  | case2 high low r hvalue ih =>
    rw [decode]
    split
    · next h l hh hl => exact absurd hl (hvalue h l hh)
    · exact Nat.succ_le_succ ih
  | case3 b r hne ih =>
    rw [decode.eq_2 b r hne]
    exact Nat.succ_le_succ ih
  | case4 => exact le_rfl

theorem decode_encodeByte (b : UInt8) (rest : Bytes) :
    decode ((encodeByte b).flatMap String.utf8EncodeChar ++ rest) = b :: decode rest := by
  have hb := b.toNat_lt
  obtain ⟨high, hhigh, hvalue⟩ := value?_digit (n := b.toNat / 16) (by omega)
  obtain ⟨low, hlow, hvalue'⟩ := value?_digit (n := b.toNat % 16) (by omega)
  have hwritten : (encodeByte b).flatMap String.utf8EncodeChar = [0x25, high, low] := by
    rw [encodeByte, List.flatMap_cons, List.flatMap_cons, List.flatMap_singleton, hhigh, hlow]
    rfl
  rw [hwritten]
  simp only [List.cons_append, List.nil_append, decode, hvalue, hvalue', Nat.div_add_mod',
    UInt8.ofNat_toNat]

theorem decode_encodeBytes (bytes rest : Bytes) :
    decode ((bytes.flatMap encodeByte).flatMap String.utf8EncodeChar ++ rest) =
      bytes ++ decode rest := by
  induction bytes with
  | nil => rfl
  | cons b bytes ih =>
    rw [List.flatMap_cons, List.flatMap_append, List.append_assoc, decode_encodeByte, ih,
      List.cons_append]

section Encoded

variable {reserved : Char → Bool}

theorem decode_encodeChar (hreserved : reserved '%' = true) (c : Char) (rest : Bytes) :
    decode ((encodeChar reserved c).flatMap String.utf8EncodeChar ++ rest) =
      String.utf8EncodeChar c ++ decode rest := by
  unfold encodeChar
  split_ifs with h
  · -- a character that stands for itself is one byte, and not the percent sign
    simp only [Bool.and_eq_true, decide_eq_true_eq, Bool.not_eq_true'] at h
    rw [List.flatMap_singleton, Utf8.utf8EncodeChar_of_lt h.1, List.singleton_append,
      decode_cons_of_ne]
    · rfl
    · intro hb
      have hc : c.toNat = 0x25 := by
        rw [← UInt8.toNat_inj, Utf8.toNat_ofNat (by omega)] at hb
        exact hb
      obtain rfl : c = '%' := Char.toNat_inj.1 hc
      rw [hreserved] at h
      exact absurd h.2 (by decide)
  · exact decode_encodeBytes _ rest

/-- **What is written is read back.** -/
theorem decode_encodeChars (hreserved : reserved '%' = true) (cs : List Char) :
    decode ((encodeChars reserved cs).flatMap String.utf8EncodeChar) =
      cs.flatMap String.utf8EncodeChar := by
  induction cs with
  | nil => rfl
  | cons c cs ih =>
    rw [encodeChars, List.flatMap_cons, List.flatMap_append, decode_encodeChar hreserved]
    exact congrArg _ ih

/-! ### What is written -/

theorem mem_encodeByte {b : UInt8} {d : Char} (h : d ∈ encodeByte b) :
    d = '%' ∨ ∃ n < 16, d = digit n := by
  have hb := b.toNat_lt
  simp only [encodeByte, List.mem_cons, List.not_mem_nil, or_false] at h
  rcases h with rfl | rfl | rfl
  · exact .inl rfl
  · exact .inr ⟨b.toNat / 16, by omega, rfl⟩
  · exact .inr ⟨b.toNat % 16, by omega, rfl⟩

theorem mem_encodeChars {cs : List Char} {d : Char} (h : d ∈ encodeChars reserved cs) :
    reserved d = false ∧ d ∈ cs ∨ d = '%' ∨ ∃ n < 16, d = digit n := by
  obtain ⟨c, hc, hd⟩ := List.mem_flatMap.1 h
  unfold encodeChar at hd
  split_ifs at hd with hplain
  · obtain rfl := List.mem_singleton.1 hd
    simp only [Bool.and_eq_true, Bool.not_eq_true'] at hplain
    exact .inl ⟨hplain.2, hc⟩
  · obtain ⟨b, -, hb⟩ := List.mem_flatMap.1 hd
    exact .inr (mem_encodeByte hb)

/-- A reserved character that is neither the percent sign nor a digit is never written. -/
theorem not_mem_encodeChars {cs : List Char} {d : Char} (hd : reserved d = true)
    (hsign : d ≠ '%') (hdigit : ∀ n < 16, d ≠ digit n) : d ∉ encodeChars reserved cs := by
  intro h
  rcases mem_encodeChars h with ⟨hplain, -⟩ | rfl | ⟨n, hn, rfl⟩
  · rw [hd] at hplain
    cases hplain
  · exact hsign rfl
  · exact hdigit n hn rfl

/-! ### The ends of what is written -/

theorem encodeChar_ne_nil (reserved : Char → Bool) (c : Char) : encodeChar reserved c ≠ [] := by
  obtain ⟨b, hb⟩ := List.exists_mem_of_ne_nil _ (String.utf8EncodeChar_ne_nil (c := c))
  unfold encodeChar
  split_ifs
  · simp
  · intro hnil
    cases List.flatMap_eq_nil_iff.1 hnil b hb

theorem encodeChars_eq_nil {cs : List Char} : encodeChars reserved cs = [] ↔ cs = [] := by
  rw [encodeChars, List.flatMap_eq_nil_iff, List.eq_nil_iff_forall_not_mem]
  exact forall₂_congr fun c hc => iff_false_intro (encodeChar_ne_nil reserved c)

section Ends

variable {cs : List Char} {d : Char}

theorem eq_of_mem_encodeChar {c : Char} (hsign : d ≠ '%') (hdigit : ∀ n < 16, d ≠ digit n)
    (h : d ∈ encodeChar reserved c) : d = c := by
  have hmem : d ∈ encodeChars reserved [c] := by simpa [encodeChars] using h
  rcases mem_encodeChars hmem with ⟨-, hc⟩ | hd | ⟨n, hn, hd⟩
  · exact List.mem_singleton.1 hc
  · exact absurd hd hsign
  · exact absurd hd (hdigit n hn)

/-- A character that encodes no other stands in front only if it stood there. -/
theorem head?_encodeChars (hsign : d ≠ '%') (hdigit : ∀ n < 16, d ≠ digit n)
    (h : (encodeChars reserved cs).head? = some d) : cs.head? = some d := by
  cases cs with
  | nil => cases h
  | cons c cs =>
    rw [encodeChars, List.flatMap_cons, List.head?_append_of_ne_nil _ (encodeChar_ne_nil _ _)] at h
    rw [eq_of_mem_encodeChar hsign hdigit (List.mem_of_mem_head? h)]
    rfl

/-- So it is at the end. -/
theorem getLast?_encodeChars (hsign : d ≠ '%') (hdigit : ∀ n < 16, d ≠ digit n)
    (h : (encodeChars reserved cs).getLast? = some d) : cs.getLast? = some d := by
  rcases List.eq_nil_or_concat' cs with rfl | ⟨front, c, rfl⟩
  · cases h
  · rw [encodeChars, List.flatMap_append, List.flatMap_singleton,
      List.getLast?_append_of_ne_nil _ (encodeChar_ne_nil _ _)] at h
    rw [eq_of_mem_encodeChar hsign hdigit (List.mem_of_mem_getLast? h), List.getLast?_concat]

end Ends

/-! ### What stands for itself -/

/-- Nothing in the text is reserved. -/
def IsPlain (reserved : Char → Bool) (cs : List Char) : Prop :=
  ∀ c ∈ cs, c.toNat < 0x80 ∧ reserved c = false

theorem encodeChars_of_isPlain {cs : List Char} (h : IsPlain reserved cs) :
    encodeChars reserved cs = cs := by
  induction cs with
  | nil => rfl
  | cons c cs ih =>
    obtain ⟨⟨hascii, hplain⟩, hcs⟩ := List.forall_mem_cons.1 h
    have hc : encodeChar reserved c = [c] := by
      rw [encodeChar, hplain]
      exact if_pos (by simp [hascii])
    rw [encodeChars, List.flatMap_cons, hc, List.singleton_append]
    exact congrArg _ (ih hcs)

theorem toNat_lt_of_mem_encodeChars {cs : List Char} {d : Char} (h : d ∈ encodeChars reserved cs) :
    d.toNat < 0x80 := by
  obtain ⟨c, -, hd⟩ := List.mem_flatMap.1 h
  unfold encodeChar at hd
  split_ifs at hd with hplain
  · obtain rfl := List.mem_singleton.1 hd
    simp only [Bool.and_eq_true, decide_eq_true_eq] at hplain
    exact hplain.1
  · obtain ⟨b, -, hb⟩ := List.mem_flatMap.1 hd
    have hdigits : ∀ n < 16, (digit n).toNat < 0x80 := by decide
    rcases mem_encodeByte hb with rfl | ⟨n, hn, rfl⟩
    · decide
    · exact hdigits n hn

/-- **What is written need not be encoded again**, where the percent sign and digits are not
reserved. -/
theorem isPlain_encodeChars (hsign : reserved '%' = false)
    (hdigit : ∀ n < 16, reserved (digit n) = false) (cs : List Char) :
    IsPlain reserved (encodeChars reserved cs) := by
  intro d hd
  refine ⟨toNat_lt_of_mem_encodeChars hd, ?_⟩
  rcases mem_encodeChars hd with ⟨hplain, -⟩ | rfl | ⟨n, hn, rfl⟩
  · exact hplain
  · exact hsign
  · exact hdigit n hn

end Encoded

/-- Without a percent sign every byte stands for itself. -/
theorem decode_of_not_mem {b : Bytes} (h : 0x25 ∉ b) : decode b = b := by
  induction b with
  | nil => rfl
  | cons a b ih =>
    rw [List.mem_cons, not_or] at h
    rw [decode_cons_of_ne (Ne.symm h.1), ih h.2]

end Percent

/-! ### In front of a query -/

/-- A character that is no blank, and begins neither a query nor a fragment. -/
def IsInner (c : Char) : Prop := 0x20 < c.toNat ∧ c ≠ '?' ∧ c ≠ '#'

instance : DecidablePred IsInner := fun _ => inferInstanceAs (Decidable (_ ∧ _))

end LedgerBridge.Url
