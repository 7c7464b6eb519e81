import LedgerBridge.Hex
import LedgerBridge.Json

/-!
# Texts in JSON

What stands between two quotes. The reader first takes the spelling apart into pieces, bytes that
stand for themselves and code units written as `\u`; then it puts the characters together.

* `readPieces` goes up to the closing quote and refuses control characters and unknown escapes;
* `assemble` gives the bytes, unless a surrogate stands alone;
* `writeText` quotes a text: the two marks and the control characters are escaped, all else stands
  for itself.
-/

namespace LedgerBridge.Json

/-- A part of a spelled text. -/
inductive Piece where
  | byte (b : UInt8)
  | unit (u : Nat)
  deriving DecidableEq, Repr

/-- The code unit of four hexadecimal digits. -/
def codeUnit? (a b c d : UInt8) : Option Nat := do
  let first := (← Hex.value? a) * 16 + (← Hex.value? b)
  return (first * 16 + (← Hex.value? c)) * 16 + (← Hex.value? d)

/-- The byte that a letter behind a backslash stands for. -/
def escape? (letter : UInt8) : Option UInt8 :=
  if letter = 0x22 ∨ letter = 0x5c ∨ letter = 0x2f then some letter
  else if letter = 0x62 then some 8
  else if letter = 0x66 then some 12
  else if letter = 0x6e then some 10
  else if letter = 0x72 then some 13
  else if letter = 0x74 then some 9
  else none

/-- The pieces up to the closing quote, in front of which stand those of `before`, the last one
first. -/
def readPiecesFrom (before : List Piece) : Bytes → Option (List Piece × Bytes)
  | [] => none
  | b :: r =>
    if b = 0x22 then some (before.reverse, r)
    else if b < 0x20 then none
    else if b ≠ 0x5c then readPiecesFrom (.byte b :: before) r
    else match r with
      | [] => none
      | letter :: r =>
        if letter = 0x75 then match r with
          | h3 :: h2 :: h1 :: h0 :: r =>
            match codeUnit? h3 h2 h1 h0 with
            | some u => readPiecesFrom (.unit u :: before) r
            | none => none
          | _ => none
        else match escape? letter with
          | some e => readPiecesFrom (.byte e :: before) r
          | none => none

/-- The pieces up to the closing quote, and the rest. -/
def readPieces (s : Bytes) : Option (List Piece × Bytes) := readPiecesFrom [] s

/-- Whether a code unit opens a pair of surrogates. -/
def isHighSurrogate (u : Nat) : Bool := 0xd800 ≤ u && u ≤ 0xdbff

/-- Whether a code unit closes a pair of surrogates. -/
def isLowSurrogate (u : Nat) : Bool := 0xdc00 ≤ u && u ≤ 0xdfff

/-- The character that a pair of surrogates spells. -/
def pairChar (high low : Nat) : Char :=
  Char.ofNat ((high - 0xd800) * 0x400 + (low - 0xdc00) + 0x10000)

/-- The bytes that pieces spell behind those of `before`, the last one first. -/
def assembleFrom (before : Bytes) : List Piece → Option Bytes
  | [] => some before.reverse
  | .byte b :: r => assembleFrom (b :: before) r
  | .unit u :: r =>
    if isLowSurrogate u then none
    else if isHighSurrogate u then match r with
      | .unit v :: r =>
        if isLowSurrogate v then
          assembleFrom ((String.utf8EncodeChar (pairChar u v)).reverse ++ before) r
        else none
      | _ => none
    else assembleFrom ((String.utf8EncodeChar (Char.ofNat u)).reverse ++ before) r

/-- The text that pieces spell. -/
def assemble (pieces : List Piece) : Option String := (assembleFrom [] pieces).bind Utf8.decode?

/-- The text up to the closing quote, and the rest. -/
def readText (s : Bytes) : Option (Option String × Bytes) := do
  let (pieces, r) ← readPieces s
  return (assemble pieces, r)

/-! ### Writing -/

/-- A character between quotes. -/
def writeChar (c : Char) : List Char :=
  if c = '"' then ['\\', '"']
  else if c = '\\' then ['\\', '\\']
  else if c = '\x08' then ['\\', 'b']
  else if c = '\x0c' then ['\\', 'f']
  else if c = '\n' then ['\\', 'n']
  else if c = '\r' then ['\\', 'r']
  else if c = '\t' then ['\\', 't']
  else if c.toNat < 0x20 then
    ['\\', 'u', '0', '0', Nat.digitChar (c.toNat / 16), Nat.digitChar (c.toNat % 16)]
  else [c]

/-- A text between quotes. -/
def writeText (s : String) : List Char := '"' :: s.toList.flatMap writeChar ++ ['"']

end LedgerBridge.Json
