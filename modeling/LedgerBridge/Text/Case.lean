import LedgerBridge.Text.Case.Table
import LedgerBridge.Text.Printable

/-!
# Letter case

Upper and lower case of one character and lower case of a text, for all of Unicode.

* `Case.upper c` and `Case.lower c` are lists: an upper case form may have several letters, and
  the lower case of a dotted capital I is an i followed by a dot above;
* `Case.lowerText s` writes a capital sigma that ends a word in its final form;
* on ASCII the maps are the usual ones (`upper_ascii`, `lower_ascii`).
-/

namespace LedgerBridge.Case

/-- The character that a run maps `n` to. -/
def Run.image? (r : Run) (n : Nat) : Option Char :=
  if r.first ≤ n ∧ n ≤ r.last ∧ (n - r.first) % r.step = 0 then
    some (Char.ofNat (n + r.shift).toNat)
  else none

/-- The upper case form of a character. -/
def upper (c : Char) : List Char :=
  if c.toNat < 0x80 then [c.toUpper]
  else match upperWords.find? (·.1 == c.toNat) with
    | some w => w.2.map Char.ofNat
    | none => [(upperRuns.findSome? (·.image? c.toNat)).getD c]

/-- The lower case form of a character. -/
def lower (c : Char) : List Char :=
  if c.toNat < 0x80 then [c.toLower]
  else if c = '\u0130' then ['i', '\u0307']
  else [(lowerRuns.findSome? (·.image? c.toNat)).getD c]

@[simp] theorem upper_ascii {c : Char} (h : c.toNat < 0x80) : upper c = [c.toUpper] := by
  simp [upper, h]

@[simp] theorem lower_ascii {c : Char} (h : c.toNat < 0x80) : lower c = [c.toLower] := by
  simp [lower, h]

/-- Letters that have case. -/
def isCased (c : Char) : Bool :=
  if c.toNat < 0x80 then c.isAlpha else Printable.covers casedRanges c.toNat

/-- Characters which neither continue nor end a word. -/
def isIgnorable (c : Char) : Bool :=
  if c.toNat < 0x80 then c ∈ ['\'', '.', ':', '^', '\x60']
  else Printable.covers ignorableRanges c.toNat

/-- Whether the first character that counts has case. -/
def startsCased (cs : List Char) : Bool := (cs.dropWhile isIgnorable).head?.any isCased

/-- Lower case of what is left of a text, given what stands before it, nearest first. -/
def lowerFrom : (before : List Char) → List Char → List Char
  | _, [] => []
  | before, c :: r =>
    (if c = '\u03a3' then
      [if startsCased before && !startsCased r then '\u03c2' else '\u03c3']
    else lower c) ++ lowerFrom (c :: before) r

/-- The lower case form of a text. -/
def lowerText (s : String) : String := String.ofList (lowerFrom [] s.toList)

end LedgerBridge.Case
