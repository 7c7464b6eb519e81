/-!
# UTF-8

Text and its bytes. A byte string is a `List UInt8`, so that every reader of a format takes a list
apart and returns the rest of it.

* `Utf8.encode s` is the UTF-8 form of a text;
* `Utf8.decode? b` reads it back and refuses everything else (`decode?_eq_some_iff`);
* `Utf8.lossy b` reads any bytes: each maximal run of bytes that starts a character but does not
  finish it, and each byte that starts none, becomes one U+FFFD.
-/

namespace LedgerBridge

/-- A byte string. -/
abbrev Bytes := List UInt8

namespace Utf8

/-- The UTF-8 form of a text. -/
def encode (s : String) : Bytes := s.toList.flatMap String.utf8EncodeChar

/-- The text whose UTF-8 form is `b`, if there is one. -/
def decode? (b : Bytes) : Option String := String.fromUTF8? b.toByteArray

/-- The number of bytes in the UTF-8 form of a text. -/
def size (s : String) : Nat := (encode s).length

@[simp] theorem encode_empty : encode "" = [] := rfl

@[simp] theorem encode_ofList (cs : List Char) :
    encode (String.ofList cs) = cs.flatMap String.utf8EncodeChar := by
  simp [encode]

@[simp] theorem encode_append (s t : String) : encode (s ++ t) = encode s ++ encode t := by
  simp [encode]

theorem toByteArray_encode (s : String) : (encode s).toByteArray = s.toByteArray :=
  String.utf8Encode_toList

theorem toByteArray_injective {a b : Bytes} (h : a.toByteArray = b.toByteArray) : a = b := by
  have := congrArg (fun x => x.data.toList) h
  simpa [List.data_toByteArray] using this

/-- Decoding accepts exactly the UTF-8 forms of texts. -/
theorem decode?_eq_some_iff {b : Bytes} {s : String} : decode? b = some s ↔ b = encode s := by
  constructor
  · intro h
    unfold decode? String.fromUTF8? at h
    split at h
    · apply toByteArray_injective
      rw [toByteArray_encode, ← Option.some.inj h, String.fromUTF8]
    · cases h
  · rintro rfl
    have hv : (encode s).toByteArray.IsValidUTF8 := ⟨s.toList, rfl⟩
    simp only [decode?, String.fromUTF8?, hv, dite_true, Option.some.injEq]
    exact String.toByteArray_inj.1 (toByteArray_encode s)

@[simp] theorem decode?_encode (s : String) : decode? (encode s) = some s :=
  decode?_eq_some_iff.2 rfl

theorem encode_injective {s t : String} (h : encode s = encode t) : s = t :=
  Option.some.inj (by rw [← decode?_encode, h, decode?_encode])

/-! ### Reading with replacement -/

/-- The character that stands for bytes which are no character. -/
def replacement : Char := '\ufffd'

/-- What has been read of a character: the value of its first bytes, how many bytes it still lacks,
and the bounds of the next one. -/
structure Pending where
  value : Nat
  lacking : Nat
  least : UInt8
  greatest : UInt8

/-- The state after a byte which starts a character: the characters it completes, and what it
leaves pending. -/
def start (b : UInt8) : List Char × Option Pending :=
  if b < 0x80 then ([Char.ofNat b.toNat], none)
  else if b < 0xc2 then ([replacement], none)
  else if b < 0xe0 then ([], some ⟨b.toNat % 32, 1, 0x80, 0xbf⟩)
  else if b < 0xf0 then
    ([], some ⟨b.toNat % 16, 2, if b = 0xe0 then 0xa0 else 0x80, if b = 0xed then 0x9f else 0xbf⟩)
  else if b < 0xf5 then
    ([], some ⟨b.toNat % 8, 3, if b = 0xf0 then 0x90 else 0x80, if b = 0xf4 then 0x8f else 0xbf⟩)
  else ([replacement], none)

/-- The state after one more byte. -/
def step : Option Pending → UInt8 → List Char × Option Pending
  | none, b => start b
  | some p, b =>
    if p.least ≤ b ∧ b ≤ p.greatest then
      let value := p.value * 64 + b.toNat % 64
      if p.lacking ≤ 1 then ([Char.ofNat value], none)
      else ([], some ⟨value, p.lacking - 1, 0x80, 0xbf⟩)
    else
      let (cs, next) := start b
      (replacement :: cs, next)

/-- The text of any bytes, with U+FFFD for every maximal part which is not UTF-8. -/
def lossy (b : Bytes) : String :=
  let (out, pending) := b.foldl (fun (out, pending) byte =>
    let (cs, next) := step pending byte
    (cs.reverse ++ out, next)) (([] : List Char), (none : Option Pending))
  String.ofList ((match pending with | none => out | some _ => replacement :: out).reverse)

end Utf8

end LedgerBridge
