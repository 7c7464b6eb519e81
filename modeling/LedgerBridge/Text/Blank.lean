/-!
# Blanks

The white space of the character database, and texts without it at their ends.

* `Blank.trim s` drops blanks at both ends, `Blank.trimStart s` those in front;
* `Blank.isSpaceOrTab`: the blanks that formats allow within a line;
* `isBlank_of_isWhitespace`: the blanks of the core library are among them.
-/

namespace LedgerBridge.Blank

/-- White space. -/
def isBlank (c : Char) : Bool :=
  let n := c.toNat
  (9 ≤ n && n ≤ 13) || n = 0x20 || n = 0x85 || n = 0xa0 || n = 0x1680
    || (0x2000 ≤ n && n ≤ 0x200a) || n = 0x2028 || n = 0x2029 || n = 0x202f || n = 0x205f
    || n = 0x3000

theorem isBlank_of_isWhitespace {c : Char} (h : c.isWhitespace) : isBlank c := by
  simp only [Char.isWhitespace, Bool.or_eq_true, decide_eq_true_eq] at h
  rcases h with ((rfl | rfl) | rfl) | rfl <;> decide

/-- Spaces and tabs. -/
def isSpaceOrTab (c : Char) : Bool := c = ' ' || c = '\t'

/-- A text without the blanks in front. -/
def trimStartChars (cs : List Char) : List Char := cs.dropWhile isBlank

/-- A text without the blanks at its end. -/
def trimEndChars (cs : List Char) : List Char := (cs.reverse.dropWhile isBlank).reverse

/-- A text without the blanks at both ends. -/
def trimChars (cs : List Char) : List Char := trimEndChars (trimStartChars cs)

@[inherit_doc trimStartChars]
def trimStart (s : String) : String := String.ofList (trimStartChars s.toList)

@[inherit_doc trimChars]
def trim (s : String) : String := String.ofList (trimChars s.toList)

end LedgerBridge.Blank
