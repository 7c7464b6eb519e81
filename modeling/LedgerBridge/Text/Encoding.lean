import LedgerBridge.Text.Blank
import LedgerBridge.Text.Utf8

/-!
# Encodings of text

How the bytes of a text from elsewhere are to be read. A mark in front of them tells the encoding,
whatever a label says of it.

* `Encoding.ofLabel? s` is the encoding that a label names;
* `Encoding.text e b` reads any bytes, in the encoding `e` unless they are marked; what is no
  character becomes U+FFFD.
-/

namespace LedgerBridge

/-- The encodings of text that can be read. -/
inductive Encoding where
  | utf8
  /-- Units of two bytes, the more significant one first or last. -/
  | utf16 ( isBigEndian : Bool)
  /-- One byte for each character of western Europe. -/
  | western
  deriving DecidableEq, Repr

namespace Encoding

/-! ### Two bytes for a unit -/

/-- The code units that pairs of bytes make; a byte that is left over makes none. -/
def units ( isBigEndian : Bool) : Bytes → List (Option Nat)
  | a :: b :: r =>
    some (if isBigEndian then a.toNat * 256 + b.toNat else b.toNat * 256 + a.toNat)
      :: units isBigEndian r
  | [_] => [none]
  | [] => []

/-- The characters of code units; a surrogate that stands alone is none. -/
def characters : List (Option Nat) → List Char
  | [] => []
  | none :: r => Utf8.replacement :: characters r
  | some u :: r =>
    if u < 0xd800 ∨ 0xdfff < u then Char.ofNat u :: characters r
    else match r with
      | some v :: r' =>
        if u < 0xdc00 ∧ 0xdc00 ≤ v ∧ v ≤ 0xdfff then
          Char.ofNat ((u - 0xd800) * 0x400 + (v - 0xdc00) + 0x10000) :: characters r'
        else Utf8.replacement :: characters (some v :: r')
      | none :: r' =>
        -- A first surrogate and the byte behind it are one incomplete character.
        if u < 0xdc00 then Utf8.replacement :: characters r'
        else Utf8.replacement :: Utf8.replacement :: characters r'
      | [] => [Utf8.replacement]

/-! ### One byte for a character -/

/-- The characters of the bytes from 0x80 to 0x9f. All others stand for their code point. -/
def westernHigh : List Nat :=
  [0x20ac, 0x81, 0x201a, 0x192, 0x201e, 0x2026, 0x2020, 0x2021,
   0x2c6, 0x2030, 0x160, 0x2039, 0x152, 0x8d, 0x17d, 0x8f,
   0x90, 0x2018, 0x2019, 0x201c, 0x201d, 0x2022, 0x2013, 0x2014,
   0x2dc, 0x2122, 0x161, 0x203a, 0x153, 0x9d, 0x17e, 0x178]

/-- The character of a byte. -/
def westernChar (b : UInt8) : Char :=
  if b < 0x80 then Char.ofNat b.toNat
  else Char.ofNat (westernHigh.getD (b.toNat - 0x80) b.toNat)

/-! ### Reading -/

/-- The text of some bytes without a mark. -/
def read : Encoding → Bytes → String
  | utf8, b => Utf8.lossy b
  | utf16 isBigEndian, b => String.ofList (characters (units isBigEndian b))
  | western, b => String.ofList (b.map westernChar)

/-- The text of some bytes, which may be marked. -/
def text (e : Encoding) : Bytes → String
  | 0xef :: 0xbb :: 0xbf :: r => utf8.read r
  | 0xff :: 0xfe :: r => (utf16 false).read r
  | 0xfe :: 0xff :: r => (utf16 true).read r
  | b => e.read b

/-! ### Labels -/

/-- The labels of each encoding. -/
def labels : List (Encoding × List String) := [
  (utf8, ["unicode-1-1-utf-8", "unicode11utf8", "unicode20utf8", "utf-8", "utf8",
    "x-unicode20utf8"]),
  (western, ["ansi_x3.4-1968", "ascii", "cp1252", "cp819", "csisolatin1", "ibm819", "iso-8859-1",
    "iso-ir-100", "iso8859-1", "iso88591", "iso_8859-1", "iso_8859-1:1987", "l1", "latin1",
    "us-ascii", "windows-1252", "x-cp1252"]),
  (utf16 false, ["csunicode", "iso-10646-ucs-2", "ucs-2", "unicode", "unicodefeff", "utf-16",
    "utf-16le"]),
  (utf16 true, ["unicodefffe", "utf-16be"])]

/-- The encoding that a label names, in either case. -/
def ofLabel? (label : String) : Option Encoding :=
  let label := (Blank.trim label).toLower
  (labels.find? fun (_, names) => names.contains label).map (·.1)

end Encoding

end LedgerBridge
