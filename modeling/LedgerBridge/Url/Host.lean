import LedgerBridge.Text.Case
import LedgerBridge.Url.Percent
import LedgerBridge.Url.Punycode

/-!
# Hosts

The host of a URL in its one written form: a domain in lower case and in ASCII, an address of four
numbers in decimal, or an address of eight pieces in brackets.

* `Host.parse?` reads a host of a scheme whose hosts are known;
* `Host.parseUnknown?` reads a host of any other scheme, which is taken as it stands.
-/

namespace LedgerBridge.Url.Host

/-! ### Addresses of four numbers -/

/-- The value of a digit. -/
def digitValue (c : Char) : Nat :=
  if c.isDigit then c.toNat - '0'.toNat else c.toLower.toNat - 'a'.toNat + 10

/-- Whether a character is a digit of a base. -/
def isDigitOf (base : Nat) (c : Char) : Bool :=
  (c.isDigit || ('a' ≤ c.toLower && c.toLower ≤ 'f')) && digitValue c < base

/-- The number that a part of an address spells: hexadecimal behind `0x`, octal behind `0`. -/
def number? (part : List Char) : Option Nat :=
  let (base, digits) := match part with
    | '0' :: x :: r => if x = 'x' ∨ x = 'X' then (16, r) else (8, x :: r)
    | _ => (10, part)
  if part ≠ [] ∧ digits.all (isDigitOf base) then
    some (digits.foldl (fun n c => n * base + digitValue c) 0)
  else none

/-- The parts of a host; a dot at its end does not count. -/
def parts (cs : List Char) : List (List Char) :=
  let ps := cs.splitOn '.'
  if ps.length > 1 ∧ ps.getLast? = some [] then ps.dropLast else ps

/-- Whether a host must be an address of numbers: its last part is one. -/
def endsInNumber (cs : List Char) : Bool :=
  match (parts cs).getLast? with
  | some p => (p ≠ [] && p.all Char.isDigit) || (number? p).isSome
  | none => false

/-- The bound of the numbers of so many bytes. -/
def byteBound : (bytes : Nat) → Nat
  | 0 => 1
  | bytes + 1 => byteBound bytes * 256

/-- The address that at most four numbers make: the last one fills all bytes that are left. -/
def ipv4Of? : (bytes : Nat) → List Nat → Option Nat
  | _, [] => none
  | 0, _ => none
  | bytes, [n] => if n < byteBound bytes then some n else none
  | bytes + 1, n :: r =>
    if n < 256 then (ipv4Of? bytes r).map (n * byteBound bytes + ·) else none

/-- The written form of an address of four bytes. -/
def ipv4Text (n : Nat) : String :=
  ".".intercalate ([3, 2, 1, 0].map fun i => toString (n / byteBound i % 256))

/-- The address that a host spells. -/
def ipv4? (cs : List Char) : Option String := do
  let numbers ← (parts cs).mapM number?
  return ipv4Text (← ipv4Of? 4 numbers)

/-! ### Addresses of eight pieces -/

/-- A piece of up to four hexadecimal digits. -/
def piece? (cs : List Char) : Option Nat :=
  if cs ≠ [] ∧ cs.length ≤ 4 ∧ cs.all (isDigitOf 16) then
    some (cs.foldl (fun n c => n * 16 + digitValue c) 0)
  else none

/-- A decimal byte without leading zeros. -/
def byte? (cs : List Char) : Option Nat :=
  if cs = [] ∨ cs.length > 3 ∨ !cs.all Char.isDigit ∨ (cs.length > 1 ∧ cs.head? = some '0') then
    none
  else
    let n := cs.foldl (fun n c => n * 10 + digitValue c) 0
    if n < 256 then some n else none

/-- The pieces between colons, the last of which may be two, written as four bytes. -/
def pieces? : List (List Char) → Option (List Nat)
  | [] => some []
  | [p] =>
    if p.contains '.' then
      match (p.splitOn '.').mapM byte? with
      | some [a, b, c, d] => some [a * 256 + b, c * 256 + d]
      | _ => none
    else (piece? p).map ([·])
  | p :: ps => do
    let n ← piece? p
    return n :: (← pieces? ps)

/-- The text in front of the first pair of colons, and the text behind it. -/
def splitGap : List Char → Option (List Char × List Char)
  | ':' :: ':' :: r => some ([], r)
  | c :: r => (splitGap r).map fun p => (c :: p.1, p.2)
  | [] => none

/-- The pieces of a part of an address, which may be empty. -/
def side? (cs : List Char) : Option (List Nat) :=
  if cs = [] then some [] else pieces? (cs.splitOn ':')

/-- The eight pieces of an address; a pair of colons stands for the zeros that are missing. -/
def ipv6Pieces? (cs : List Char) : Option (List Nat) := do
  match splitGap cs with
  | some (front, back) =>
    if front.contains '.' then none
    let a ← side? front
    let b ← side? back
    if a.length + b.length ≤ 7 then
      return a ++ List.replicate (8 - a.length - b.length) 0 ++ b
    else none
  | none =>
    let a ← side? cs
    if a.length = 8 then return a else none

/-- The length of the run of zeros in front. -/
def zeros (ps : List Nat) : Nat := (ps.takeWhile (· = 0)).length

/-- The start and the length of the first longest run of zeros. -/
def longestZeros (ps : List Nat) : Nat × Nat :=
  (List.range ps.length).foldl
    (fun best i => if zeros (ps.drop i) > best.2 then (i, zeros (ps.drop i)) else best) (0, 0)

/-- Pieces between colons. -/
def piecesText (ps : List Nat) : String :=
  ":".intercalate (ps.map fun p => String.ofList (Nat.toDigits 16 p))

/-- The written form of an address of eight pieces: its first longest run of several zeros is left
out. -/
def ipv6Text (ps : List Nat) : String :=
  let (start, count) := longestZeros ps
  if count < 2 then s!"[{piecesText ps}]"
  else s!"[{piecesText (ps.take start)}::{piecesText (ps.drop (start + count))}]"

/-- A host in brackets. -/
def bracketed? (cs : List Char) : Option String :=
  if cs.getLast? = some ']' then (ipv6Pieces? cs.dropLast).map ipv6Text else none

/-! ### Domains -/

/-- The character that a character of a domain counts as: letters in lower case, wide forms of
ASCII as ASCII, wide full stops as dots, and soft hyphens not at all. -/
def fold (c : Char) : List Char :=
  if 0xff01 ≤ c.toNat ∧ c.toNat ≤ 0xff5e then [(Char.ofNat (c.toNat - 0xfee0)).toLower]
  else if c = '\u3002' ∨ c = '\uff0e' ∨ c = '\uff61' then ['.']
  else if c = '\u00ad' ∨ c = '\u200b' ∨ c = '\u2060' ∨ c = '\ufeff' then []
  else Case.lower c

/-- A label in ASCII. -/
def label (cs : List Char) : List Char :=
  if cs.all (·.toNat < 0x80) then cs else 'x' :: 'n' :: '-' :: '-' :: Punycode.encode cs

/-- Control characters beyond ASCII. -/
def isHighControl (c : Char) : Bool := 0x80 ≤ c.toNat && c.toNat < 0xa0

/-- Whether a label in ASCII is what `label` makes of some label without control characters. -/
def isWritten (cs written : List Char) : Bool :=
  (Punycode.decode? written).any fun ds =>
    !ds.any isHighControl && ds.flatMap fold = ds && label ds = cs

/-- Whether a label can be one of a domain: it holds no control characters, and if it has the mark
of a written label, it is one. -/
def isLabel (cs : List Char) : Bool :=
  match cs with
  | 'x' :: 'n' :: '-' :: '-' :: written => isWritten cs written
  | _ => !cs.any isHighControl

/-- Characters that no domain holds. -/
def isForbidden (c : Char) : Bool :=
  c.toNat ≤ 0x20 || c = '\x7f'
    || ['%', '#', '/', ':', '<', '>', '?', '@', '[', '\\', ']', '^', '|'].contains c

/-- The domain that a text spells. -/
def domain? (cs : List Char) : Option (List Char) :=
  let labels := (cs.flatMap fold).splitOn '.'
  let domain := List.intercalate ['.'] (labels.map label)
  if domain = [] ∨ domain.any isForbidden ∨ !labels.all isLabel then none else some domain

/-- The host that a text spells. -/
def parse? (cs : List Char) : Option String :=
  match cs with
  | '[' :: r => bracketed? r
  | _ => do
    let text ← Utf8.decode? (Percent.decode (cs.flatMap String.utf8EncodeChar))
    let domain ← domain? text.toList
    if endsInNumber domain then ipv4? domain else return String.ofList domain

/-- Characters that a host of an unknown scheme cannot hold. -/
def isForbiddenUnknown (c : Char) : Bool :=
  ['\x00', '\t', '\n', '\r', ' ', '#', '/', ':', '<', '>', '?', '@', '[', '\\', ']', '^',
    '|'].contains c

/-- The host of an unknown scheme that a text spells. -/
def parseUnknown? (cs : List Char) : Option String :=
  match cs with
  | '[' :: r => bracketed? r
  | _ =>
    if cs.any isForbiddenUnknown then none
    else some (String.ofList (Percent.encodeChars Percent.isControl cs))

end LedgerBridge.Url.Host
