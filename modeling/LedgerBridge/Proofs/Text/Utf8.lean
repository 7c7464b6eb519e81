import Mathlib.Tactic
import LedgerBridge.Text.Encoding

/-!
# Reading with replacement

Nothing is replaced in bytes that are UTF-8: each character is read off its bytes
(`run_encodeChar`), so `lossy_encode` gives back any text. Where no encoding is named, a text is
read as it was written, unless it starts with a byte order mark (`Encoding.text_utf8_encode`).
-/

namespace LedgerBridge

namespace Utf8

/-- A character of ASCII is one byte. -/
theorem utf8EncodeChar_of_lt {c : Char} (h : c.toNat < 0x80) :
    String.utf8EncodeChar c = [UInt8.ofNat c.toNat] := by
  have hc : c.toNat ≤ 0x7f := by omega
  simp only [String.utf8EncodeChar]
  exact if_pos hc

theorem toNat_ofNat {n : Nat} (h : n < 256) : (UInt8.ofNat n).toNat = n :=
  UInt8.toNat_ofNat_of_lt' h

/-- The only byte of a character of ASCII is its code point, those of other characters are above. -/
theorem mem_utf8EncodeChar {c : Char} {b : UInt8} (h : b ∈ String.utf8EncodeChar c) :
    b.toNat = c.toNat ∨ 0x80 ≤ b.toNat := by
  have hhigh (n m k : Nat) (hm : 0 < m) (hk : 0x80 ≤ k) (hmk : m + k ≤ 0x100) :
      0x80 ≤ (UInt8.ofNat (n % m + k)).toNat := by
    have := Nat.mod_lt n hm
    rw [toNat_ofNat (by omega)]
    omega
  simp only [String.utf8EncodeChar] at h
  split_ifs at h with h1 h2 h3
  · rw [List.mem_singleton.1 h]
    exact .inl (toNat_ofNat (Nat.lt_succ_of_le (h1.trans (by decide))))
  all_goals
    right
    simp only [List.mem_cons, List.not_mem_nil, or_false] at h
  -- two, three or four bytes
  · rcases h with rfl | rfl <;> exact hhigh _ _ _ (by decide) (by decide) (by decide)
  · rcases h with rfl | rfl | rfl <;> exact hhigh _ _ _ (by decide) (by decide) (by decide)
  · rcases h with rfl | rfl | rfl | rfl <;> exact hhigh _ _ _ (by decide) (by decide) (by decide)

theorem size_append (s t : String) : size (s ++ t) = size s + size t := by
  rw [size, encode_append, List.length_append]
  rfl

/-- What is read, the last character first, and what is pending, after one more byte. -/
def feed (state : List Char × Option Pending) (b : UInt8) : List Char × Option Pending :=
  ((step state.2 b).1.reverse ++ state.1, (step state.2 b).2)

/-! ### One byte -/

section Bytes

variable {out : List Char} {n value lacking : Nat} {least greatest : UInt8}

theorem feed_of_start {state : List Char × Option Pending} {b : UInt8} (h : start b = state) :
    feed (out, none) b = (state.1.reverse ++ out, state.2) := by
  rw [← h]
  rfl

theorem feed_ascii (h : n < 0x80) :
    feed (out, none) (UInt8.ofNat n) = (Char.ofNat n :: out, none) := by
  have hstart : start (UInt8.ofNat n) = ([Char.ofNat n], none) := by
    simp only [start, UInt8.lt_iff_toNat_lt, toNat_ofNat (show n < 256 by omega),
      UInt8.reduceToNat]
    exact if_pos h
  exact feed_of_start hstart

/-- The first of two bytes. -/
theorem feed_two (h : 0xc2 ≤ n ∧ n < 0xe0) :
    feed (out, none) (UInt8.ofNat n) = (out, some ⟨n % 32, 1, 0x80, 0xbf⟩) := by
  have hstart : start (UInt8.ofNat n) = ([], some ⟨n % 32, 1, 0x80, 0xbf⟩) := by
    simp only [start, UInt8.lt_iff_toNat_lt, toNat_ofNat (show n < 256 by omega),
      UInt8.reduceToNat]
    rw [if_neg (by omega), if_neg (by omega), if_pos h.2]
  exact feed_of_start hstart

/-- The first of three bytes. -/
theorem feed_three (h : 0xe0 ≤ n ∧ n < 0xf0) : feed (out, none) (UInt8.ofNat n) =
    (out, some ⟨n % 16, 2, if n = 0xe0 then 0xa0 else 0x80, if n = 0xed then 0x9f else 0xbf⟩) := by
  have hstart : start (UInt8.ofNat n) = ([], some ⟨n % 16, 2, if n = 0xe0 then 0xa0 else 0x80,
      if n = 0xed then 0x9f else 0xbf⟩) := by
    simp only [start, UInt8.lt_iff_toNat_lt, ← UInt8.toNat_inj,
      toNat_ofNat (show n < 256 by omega), UInt8.reduceToNat]
    rw [if_neg (by omega), if_neg (by omega), if_neg (by omega), if_pos h.2]
  exact feed_of_start hstart

/-- The first of four bytes. -/
theorem feed_four (h : 0xf0 ≤ n ∧ n < 0xf5) : feed (out, none) (UInt8.ofNat n) =
    (out, some ⟨n % 8, 3, if n = 0xf0 then 0x90 else 0x80, if n = 0xf4 then 0x8f else 0xbf⟩) := by
  have hstart : start (UInt8.ofNat n) = ([], some ⟨n % 8, 3, if n = 0xf0 then 0x90 else 0x80,
      if n = 0xf4 then 0x8f else 0xbf⟩) := by
    simp only [start, UInt8.lt_iff_toNat_lt, ← UInt8.toNat_inj,
      toNat_ofNat (show n < 256 by omega), UInt8.reduceToNat]
    rw [if_neg (by omega), if_neg (by omega), if_neg (by omega), if_neg (by omega), if_pos h.2]
  exact feed_of_start hstart

theorem inRange_ofNat (hn : n < 256) (hleast : least.toNat ≤ n) (hgreatest : n ≤ greatest.toNat) :
    least ≤ UInt8.ofNat n ∧ UInt8.ofNat n ≤ greatest := by
  rw [UInt8.le_iff_toNat_le, UInt8.le_iff_toNat_le, toNat_ofNat hn]
  exact ⟨hleast, hgreatest⟩

/-- A byte in the middle of a character. -/
theorem feed_next (h : 1 < lacking) (hn : n < 256) (hleast : least.toNat ≤ n)
    (hgreatest : n ≤ greatest.toNat) :
    feed (out, some ⟨value, lacking, least, greatest⟩) (UInt8.ofNat n) =
      (out, some ⟨value * 64 + n % 64, lacking - 1, 0x80, 0xbf⟩) := by
  simp only [feed, step]
  rw [if_pos (inRange_ofNat hn hleast hgreatest), if_neg (by omega), toNat_ofNat hn]
  rfl

/-- The last byte of a character. -/
theorem feed_last (hn : n < 256) (hleast : least.toNat ≤ n) (hgreatest : n ≤ greatest.toNat) :
    feed (out, some ⟨value, 1, least, greatest⟩) (UInt8.ofNat n) =
      (Char.ofNat (value * 64 + n % 64) :: out, none) := by
  simp only [feed, step]
  rw [if_pos (inRange_ofNat hn hleast hgreatest), if_pos le_rfl, toNat_ofNat hn]
  rfl

end Bytes

/-! ### All bytes of a character -/

/-- **A character is read off its bytes.** -/
theorem run_encodeChar (c : Char) (out : List Char) :
    (String.utf8EncodeChar c).foldl feed (out, none) = (c :: out, none) := by
  have hvalid : c.toNat < 0xd800 ∨ 0xdfff < c.toNat ∧ c.toNat < 0x110000 := c.valid
  have hread {n : Nat} (hn : n = c.toNat) :
      (Char.ofNat n :: out, (none : Option Pending)) = (c :: out, none) := by
    rw [hn, Char.ofNat_toNat]
  simp only [String.utf8EncodeChar]
  change (if c.toNat ≤ 0x7f then [UInt8.ofNat c.toNat]
    else if c.toNat ≤ 0x7ff then
      [UInt8.ofNat (c.toNat / 64 % 32 + 192), UInt8.ofNat (c.toNat % 64 + 128)]
    else if c.toNat ≤ 0xffff then
      [UInt8.ofNat (c.toNat / 4096 % 16 + 224), UInt8.ofNat (c.toNat / 64 % 64 + 128),
        UInt8.ofNat (c.toNat % 64 + 128)]
    else
      [UInt8.ofNat (c.toNat / 262144 % 8 + 240), UInt8.ofNat (c.toNat / 4096 % 64 + 128),
        UInt8.ofNat (c.toNat / 64 % 64 + 128), UInt8.ofNat (c.toNat % 64 + 128)]).foldl _ _ = _
  generalize c.toNat = n at hvalid hread
  split_ifs with h1 h2 h3 <;> simp only [List.foldl_cons, List.foldl_nil]
  · rw [feed_ascii (by omega)]
    exact hread rfl
  · rw [feed_two (by omega), feed_last (by omega) (by simp only [UInt8.reduceToNat]; omega)
      (by simp only [UInt8.reduceToNat]; omega)]
    exact hread (by omega)
  · -- the second byte keeps the encoding short, and the surrogates out
    rw [feed_three (by omega), feed_next (by omega) (by omega)
      (by split_ifs <;> simp only [UInt8.reduceToNat] <;> omega)
      (by split_ifs <;> simp only [UInt8.reduceToNat] <;> omega),
      feed_last (by omega) (by simp only [UInt8.reduceToNat]; omega)
      (by simp only [UInt8.reduceToNat]; omega)]
    exact hread (by omega)
  · rw [feed_four (by omega), feed_next (by omega) (by omega)
      (by split_ifs <;> simp only [UInt8.reduceToNat] <;> omega)
      (by split_ifs <;> simp only [UInt8.reduceToNat] <;> omega),
      feed_next (by omega) (by omega) (by simp only [UInt8.reduceToNat]; omega)
      (by simp only [UInt8.reduceToNat]; omega),
      feed_last (by omega) (by simp only [UInt8.reduceToNat]; omega)
      (by simp only [UInt8.reduceToNat]; omega)]
    exact hread (by omega)

theorem lossy_eq_of_foldl {b : Bytes} {out : List Char}
    (h : b.foldl feed ([], none) = (out, none)) : lossy b = String.ofList out.reverse := by
  unfold lossy
  -- the step of the fold is `feed` up to unfolding
  erw [h]

/-- **Nothing is replaced in the UTF-8 form of a text.** -/
theorem lossy_encode (s : String) : lossy (encode s) = s := by
  have hrun (cs out : List Char) :
      (cs.flatMap String.utf8EncodeChar).foldl feed (out, none) = (cs.reverse ++ out, none) := by
    induction cs generalizing out with
    | nil => rfl
    | cons c cs ih =>
      rw [List.flatMap_cons, List.foldl_append, run_encodeChar, ih]
      simp
  rw [encode, lossy_eq_of_foldl (hrun s.toList [])]
  simp

/-! ### Marks -/

/-- The bytes of a text start with those of a character only if the text starts with it. -/
theorem head?_of_encode_eq {s : String} {c : Char} {r : Bytes}
    (h : encode s = String.utf8EncodeChar c ++ r) : s.toList.head? = some c := by
  cases hs : s.toList with
  | nil =>
    rw [encode, hs] at h
    exact absurd (List.append_eq_nil_iff.1 h.symm).1 String.utf8EncodeChar_ne_nil
  | cons d cs =>
    rw [encode, hs, List.flatMap_cons] at h
    have hbytes := congrArg List.toByteArray h
    rw [List.toByteArray_append, List.toByteArray_append] at hbytes
    have hdecode := congrArg (·.utf8DecodeChar? 0) hbytes
    simp only [ByteArray.utf8DecodeChar?_utf8EncodeChar_append] at hdecode
    exact hdecode

/-- The bytes of a text start with the first byte of a character. -/
theorem isUTF8FirstByte_of_encode_eq {s : String} {b : UInt8} {r : Bytes} (h : encode s = b :: r) :
    b.IsUTF8FirstByte := by
  cases hs : s.toList with
  | nil =>
    rw [encode, hs] at h
    cases h
  | cons c cs =>
    rw [encode, hs, List.flatMap_cons] at h
    have hfirst := UInt8.isUTF8FirstByte_getElem_zero_utf8EncodeChar (c := c)
    obtain ⟨b', w, hw⟩ := List.exists_cons_of_ne_nil (String.utf8EncodeChar_ne_nil (c := c))
    simp only [hw, List.getElem_cons_zero] at hfirst
    rw [hw, List.cons_append] at h
    exact (List.cons.inj h).1 ▸ hfirst

end Utf8

/-- **A text without a mark is read as it was written.** -/
theorem Encoding.text_utf8_encode {s : String} (h : s.toList.head? ≠ some '\ufeff') :
    Encoding.utf8.text (Utf8.encode s) = s := by
  unfold Encoding.text
  split
  · next r hr => exact absurd (Utf8.head?_of_encode_eq (c := '\ufeff') (r := r) hr) h
  · next r hr => exact absurd (Utf8.isUTF8FirstByte_of_encode_eq hr) (by decide)
  · next r hr => exact absurd (Utf8.isUTF8FirstByte_of_encode_eq hr) (by decide)
  · exact Utf8.lossy_encode s

end LedgerBridge
