import LedgerBridge.Proofs.Hex.Spelling
import LedgerBridge.Proofs.Text.Utf8

/-!
# Which texts are digits

`decode_eq_ok_iff`: the texts that are read as some bytes are the digits of those bytes, each in
either case.
-/

namespace LedgerBridge.Hex

/-- Only bytes of ASCII have a value, and they are digits with that value. -/
theorem value?_spec : ∀ k < 256, ∀ n ∈ value? (UInt8.ofNat k),
    k < 0x80 ∧ n < 16 ∧ SameDigit (digit n) (Char.ofNat k) := by
  decide +kernel

/-- A byte with a value in front of the bytes of a text is a character of its own. -/
theorem exists_cons_of_value? {cs : List Char} {b : UInt8} {tail : Bytes} {n : Nat}
    (h : cs.flatMap String.utf8EncodeChar = b :: tail) (hvalue : value? b = some n) :
    n < 16 ∧ ∃ c rest, cs = c :: rest ∧ SameDigit (digit n) c ∧
      tail = rest.flatMap String.utf8EncodeChar := by
  obtain ⟨hascii, hn, hdigit⟩ := value?_spec b.toNat b.toNat_lt n
    (Option.mem_def.2 (by rwa [UInt8.ofNat_toNat]))
  cases cs with
  | nil => cases h
  | cons c cs =>
    obtain ⟨d, ds, hd⟩ := List.exists_cons_of_ne_nil (String.utf8EncodeChar_ne_nil (c := c))
    rw [List.flatMap_cons, hd, List.cons_append, List.cons.injEq] at h
    obtain ⟨rfl, rfl⟩ := h
    have hmem : d ∈ String.utf8EncodeChar c := hd ▸ List.mem_cons_self
    have hc : d.toNat = c.toNat := (Utf8.mem_utf8EncodeChar hmem).resolve_right (by omega)
    rw [hc, Char.ofNat_toNat] at hdigit
    rw [Utf8.utf8EncodeChar_of_lt (hc ▸ hascii), List.cons.injEq] at hd
    exact ⟨hn, c, cs, rfl, hdigit, by rw [← hd.2, List.nil_append]⟩

/-- Texts that are read as bytes are their digits. -/
theorem forall₂_of_decodeFrom {bytes : Bytes} {cs : List Char} {position : Nat}
    (h : decodeFrom position (cs.flatMap String.utf8EncodeChar) = .ok bytes) :
    List.Forall₂ SameDigit (encodeChars bytes) cs := by
  generalize hdigits : cs.flatMap String.utf8EncodeChar = digits at h
  induction position, digits using decodeFrom.induct generalizing bytes cs with
  | case1 position high low rest n l hlow hhigh ih =>
    rw [decodeFrom, hhigh, hlow] at h
    obtain ⟨bytes, hbytes, rfl⟩ := map_eq_ok.1 h
    obtain ⟨hn, c, cs, rfl, hc, htail⟩ := exists_cons_of_value? hdigits hhigh
    obtain ⟨hl, d, cs, rfl, hd, htail⟩ := exists_cons_of_value? htail.symm hlow
    -- the byte has the two values in its halves
    have hbyte : (UInt8.ofNat (n * 16 + l)).toNat = n * 16 + l := Utf8.toNat_ofNat (by omega)
    rw [encodeChars, List.flatMap_cons, encodeByte, hbyte,
      show (n * 16 + l) / 16 = n by omega, show (n * 16 + l) % 16 = l by omega]
    exact .cons hc (.cons hd (ih htail.symm hbytes))
  | case2 position high low rest hhigh =>
    simp [decodeFrom, hhigh] at h
  | case3 position high low rest value hhigh hlow =>
    simp [decodeFrom, hhigh, hlow] at h
  | case4 position byte => cases h
  | case5 position =>
    obtain rfl := Except.ok.inj h
    cases cs with
    | nil => exact .nil
    | cons c cs =>
      exact absurd (List.append_eq_nil_iff.1 hdigits).1 String.utf8EncodeChar_ne_nil

/-- **A text is read as bytes exactly if it is their digits, each in either case.** -/
theorem decode_eq_ok_iff {s : String} {bytes : Bytes} :
    decode (Utf8.encode s) = .ok bytes ↔ Recases (encode bytes) s := by
  refine ⟨fun h => ?_, fun h => decode_of_recases h (decode_encode bytes)⟩
  unfold decode at h
  split_ifs at h
  rw [Recases, encode, String.toList_ofList]
  exact forall₂_of_decodeFrom h

end LedgerBridge.Hex
