import LedgerBridge.Hex

/-!
# Percent-encoding

Characters that a part of a URL cannot hold are written as the bytes of their UTF-8 form, each
behind a percent sign.

* `Percent.encodeChars reserved cs` writes a text; characters outside ASCII are always encoded;
* `Percent.decode b` reads bytes; a percent sign without two digits behind it stands for itself;
* the reserved characters of each part of a URL: `inFragment`, `inQuery`, `inPath`, `inSegment`,
  `inUserinfo`.
-/

namespace LedgerBridge.Url.Percent

/-- An upper case hexadecimal digit. -/
def digit (n : Nat) : Char := (Hex.digit n).toUpper

/-- A byte behind a percent sign. -/
def encodeByte (b : UInt8) : List Char := ['%', digit (b.toNat / 16), digit (b.toNat % 16)]

/-- A character of a part of a URL. -/
def encodeChar (reserved : Char → Bool) (c : Char) : List Char :=
  if c.toNat < 0x80 && !reserved c then [c] else (String.utf8EncodeChar c).flatMap encodeByte

/-- A text as a part of a URL. -/
def encodeChars (reserved : Char → Bool) (cs : List Char) : List Char :=
  cs.flatMap (encodeChar reserved)

/-- The bytes that a part of a URL stands for. -/
def decode : Bytes → Bytes
  | 0x25 :: high :: low :: r =>
    match Hex.value? high, Hex.value? low with
    | some h, some l => UInt8.ofNat (h * 16 + l) :: decode r
    | _, _ => 0x25 :: decode (high :: low :: r)
  | b :: r => b :: decode r
  | [] => []

/-! ### Reserved characters -/

/-- Control characters. -/
def isControl (c : Char) : Bool := c.toNat < 0x20 || c = '\x7f'

/-- Reserved in a fragment. -/
def inFragment (c : Char) : Bool := isControl c || [' ', '"', '<', '>', '\x60'].contains c

/-- Reserved in a query, which with a special scheme has no apostrophe either. -/
def inQuery (special : Bool) (c : Char) : Bool :=
  isControl c || [' ', '"', '#', '<', '>'].contains c || (special && c = '\'')

/-- Reserved in a path. -/
def inPath (c : Char) : Bool := inFragment c || ['#', '?', '\x7b', '\x7d'].contains c

/-- Reserved in a segment of a path that is appended; with a special scheme a backslash would
separate segments too. -/
def inSegment (special : Bool) (c : Char) : Bool :=
  inPath c || c = '/' || c = '%' || (special && c = '\\')

/-- Reserved in a user name and in a password. -/
def inUserinfo (c : Char) : Bool :=
  inPath c || ['/', ':', ';', '=', '@', '[', '\\', ']', '^', '|'].contains c

end LedgerBridge.Url.Percent
