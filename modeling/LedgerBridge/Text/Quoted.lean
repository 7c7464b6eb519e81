import LedgerBridge.Text.Printable

/-!
# Quoted text

How a message shows a text that it cannot trust: between quotes, with every character that has no
shape of its own written as its code point.

* `Quoted.text s` is the quoted form of a text;
* `Quoted.char c` is the quoted form of one character.
-/

namespace LedgerBridge.Quoted

/-- A code point in hexadecimal. -/
def codePoint (c : Char) : List Char :=
  "\\u\x7b".toList ++ Nat.toDigits 16 c.toNat ++ ['\x7d']

/-- A character inside quotes, of which `quote` is the mark. -/
def escaped (quote c : Char) : List Char :=
  if c = '\x00' then ['\\', '0']
  else if c = '\t' then ['\\', 't']
  else if c = '\r' then ['\\', 'r']
  else if c = '\n' then ['\\', 'n']
  else if c = '\\' ∨ c = quote then ['\\', c]
  else if Printable.isVisible c then [c]
  else codePoint c

/-- A text between double quotes. -/
def text (s : String) : String :=
  String.ofList (['"'] ++ s.toList.flatMap (escaped '"') ++ ['"'])

/-- A character between single quotes. -/
def char (c : Char) : String := String.ofList (['\''] ++ escaped '\'' c ++ ['\''])

end LedgerBridge.Quoted
