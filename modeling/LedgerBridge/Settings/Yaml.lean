import LedgerBridge.Quantity
import LedgerBridge.Settings.Tree
import LedgerBridge.Text.Blank

/-!
# Configuration in YAML

Names and values whose nesting is shown by indentation, or by brackets and braces within a value.

* `Yaml.parse? s` reads a document of one such block. Anchors, tags and texts of several marked
  lines have no use in a configuration and are refused.
-/

namespace LedgerBridge.Settings.Yaml

open Blank (isSpaceOrTab)

/-- A line that holds something: how far it is indented, and what stands there. -/
structure Line where
  indent : Nat
  text : List Char

/-- A text without blanks at its end. -/
def trimEnd (cs : List Char) : List Char := (cs.reverse.dropWhile isSpaceOrTab).reverse

/-- The lines of a text. -/
def linesOf : List Char → List (List Char)
  | [] => [[]]
  | '\x0d' :: '\n' :: r => [] :: linesOf r
  | c :: r =>
    if c = '\n' then [] :: linesOf r
    else match linesOf r with
      | l :: ls => (c :: l) :: ls
      | [] => [[c]]

/-- The line that some characters make, if they hold more than a comment. -/
def line? (cs : List Char) : Option Line :=
  let text := cs.dropWhile (· = ' ')
  match text.dropWhile isSpaceOrTab with
  | [] => none
  | '#' :: _ => none
  | _ => some ⟨cs.length - text.length, trimEnd text⟩

/-! ### Scalars -/

/-- The integer that a word spells. -/
def integer? (cs : List Char) : Option Int :=
  let natural (base : Nat) (ds : List Char) : Option Nat :=
    match ds.mapM fun c => (Quantity.digitValue? c).filter (· < base) with
    | some (d :: ds) => some ((d :: ds).foldl (fun n d => n * base + d) 0)
    | _ => none
  let magnitude : List Char → Option Nat
    | '0' :: 'x' :: r => natural 16 r
    | '0' :: 'o' :: r => natural 8 r
    | '0' :: 'b' :: r => natural 2 r
    | ['0'] => some 0
    | '0' :: _ => none
    | cs => natural 10 cs
  match cs with
  | '-' :: r => (magnitude r).map fun n => -(n : Int)
  | '+' :: r => (magnitude r).map Int.ofNat
  | cs => (magnitude cs).map Int.ofNat

/-- Whether a word is a number with a fraction or an exponent, or one that is not finite. -/
def isFractional (cs : List Char) : Bool :=
  let cs := match cs with
    | '-' :: r => r
    | '+' :: r => r
    | cs => cs
  let isExponent (c : Char) : Bool := c = 'e' || c = 'E'
  let mantissa := cs.takeWhile (!isExponent ·)
  let digits := mantissa.filter (· ≠ '.')
  let exponentOk := match cs.dropWhile (!isExponent ·) with
    | [] => mantissa.contains '.'
    | _ :: '-' :: r => r ≠ [] && r.all Char.isDigit
    | _ :: '+' :: r => r ≠ [] && r.all Char.isDigit
    | _ :: r => r ≠ [] && r.all Char.isDigit
  [".inf", ".Inf", ".INF", ".nan", ".NaN", ".NAN"].contains (String.ofList cs)
    || (digits ≠ [] && digits.all Char.isDigit && mantissa.count '.' ≤ 1 && exponentOk)

/-- The value that a word spells. -/
def word (cs : List Char) : Tree :=
  let s := String.ofList cs
  if ["", "~", "null", "Null", "NULL"].contains s then .empty
  else if ["true", "True", "TRUE"].contains s then .bool true
  else if ["false", "False", "FALSE"].contains s then .bool false
  else match integer? cs with
    | some n => .integer n
    | none => if isFractional cs then .other else .text s

/-- Characters that a word cannot start with. -/
def isIndicator (c : Char) : Bool := ",[]\x7b\x7d#&*!|>'\"%@\x60\t".toList.contains c

/-- Whether a word may start here. -/
def startsWord : List Char → Bool
  | [] => false
  | [c] => !isIndicator c && c ≠ '-' && c ≠ '?' && c ≠ ':'
  | c :: d :: _ => !isIndicator c && !((c = '-' || c = '?' || c = ':') && isSpaceOrTab d)

/-- Characters that end a word within brackets. -/
def isFlowEnd (c : Char) : Bool := ",[]\x7b\x7d".toList.contains c

/-- A word up to a comment, to a colon with a blank behind it, and within brackets to a mark. -/
def takeWord (inFlow : Bool) : List Char → List Char × List Char
  | [] => ([], [])
  | c :: r =>
    let ends : Bool :=
      (inFlow && isFlowEnd c)
      || (c = ':' && (r = [] || r.head?.any fun d => isSpaceOrTab d || (inFlow && isFlowEnd d)))
      || (isSpaceOrTab c && (r.dropWhile isSpaceOrTab).head? = some '#')
    if ends then ([], c :: r)
    else
      let p := takeWord inFlow r
      (c :: p.1, p.2)

/-- The character behind a backslash, and the rest. -/
def escape? : List Char → Option (Char × List Char)
  | '0' :: r => some ('\x00', r)
  | 'a' :: r => some ('\x07', r)
  | 'b' :: r => some ('\x08', r)
  | 't' :: r => some ('\t', r)
  | 'n' :: r => some ('\n', r)
  | 'v' :: r => some ('\x0b', r)
  | 'f' :: r => some ('\x0c', r)
  | 'r' :: r => some ('\x0d', r)
  | 'e' :: r => some ('\x1b', r)
  | ' ' :: r => some (' ', r)
  | '"' :: r => some ('"', r)
  | '/' :: r => some ('/', r)
  | '\\' :: r => some ('\\', r)
  | 'x' :: r => codePoint? 2 r
  | 'u' :: r => codePoint? 4 r
  | 'U' :: r => codePoint? 8 r
  | _ => none
where
  /-- The character with a code point in so many digits, and the rest. -/
  codePoint? (count : Nat) (r : List Char) : Option (Char × List Char) := do
    if r.length < count then none
    let ds ← (r.take count).mapM Quantity.digitValue?
    let n := ds.foldl (fun n d => n * 16 + d) 0
    if n.isValidChar then return (Char.ofNat n, r.drop count) else none

/-- The text up to the closing quote, behind the characters of `before`. -/
def readQuoted (mark : Char) : (fuel : Nat) → (before : List Char) → List Char →
    Option (String × List Char)
  | 0, _, _ => none
  | _, _, [] => none
  | fuel + 1, before, c :: r =>
    if c = mark then
      match r with
      | d :: r' =>
        if mark = '\'' ∧ d = mark then readQuoted mark fuel (mark :: before) r'
        else some (String.ofList before.reverse, r)
      | [] => some (String.ofList before.reverse, r)
    else if c = '\\' ∧ mark = '"' then do
      let (e, r) ← escape? r
      readQuoted mark fuel (e :: before) r
    else readQuoted mark fuel (c :: before) r

/-- A text in quotes, if one stands in front. -/
def quoted? : List Char → Option (String × List Char)
  | '"' :: r => readQuoted '"' (r.length + 1) [] r
  | '\'' :: r => readQuoted '\'' (r.length + 1) [] r
  | _ => none

/-- Whether nothing but a comment is left. -/
def isDone (cs : List Char) : Bool :=
  match cs.dropWhile isSpaceOrTab with
  | [] => true
  | '#' :: _ => isSpaceOrTab (cs.headD '#')
  | _ => false

/-- A name, in quotes or as a word. -/
def name? (inFlow : Bool) (cs : List Char) : Option (String × List Char) :=
  match quoted? cs with
  | some p => some p
  | none =>
    if startsWord cs then
      let p := takeWord inFlow cs
      some (String.ofList (trimEnd p.1), p.2)
    else none

/-! ### Brackets and braces -/

/-- A name and a colon within braces. -/
def readFlowName (cs : List Char) : Option (String × List Char) := do
  let (name, r) ← name? true cs
  match r.dropWhile isSpaceOrTab with
  | ':' :: r => return (name, r)
  | _ => none

/-- Entries with commas between them up to the closing mark. -/
def readEntries {α : Type} (close : Char) (entry : List Char → Option (α × List Char)) :
    (fuel : Nat) → (before : List α) → List Char → Option (List α × List Char)
  | 0, _, _ => none
  | fuel + 1, before, cs =>
    match cs.dropWhile isSpaceOrTab with
    | [] => none
    | c :: r =>
      if c = close then some (before.reverse, r)
      else do
        let (a, r) ← entry (c :: r)
        match r.dropWhile isSpaceOrTab with
        | [] => none
        | d :: r =>
          if d = close then return ((a :: before).reverse, r)
          else if d = ',' then readEntries close entry fuel (a :: before) r
          else none

/-- A section with some entries, of which the last one with a name counts. -/
def sectionOf (entries : List (String × Tree)) : Tree :=
  .section (entries.foldl (fun ms e => Tree.set e.1 e.2 ms) [])

/-- A value within brackets. -/
def readFlow : (fuel : Nat) → List Char → Option (Tree × List Char)
  | 0, _ => none
  | fuel + 1, cs =>
    match cs.dropWhile isSpaceOrTab with
    | '[' :: r => do
      let (items, r) ← readEntries ']' (readFlow fuel) (r.length + 1) [] r
      return (.list items, r)
    | '\x7b' :: r => do
      let entry (cs : List Char) : Option ((String × Tree) × List Char) := do
        let (name, r) ← readFlowName cs
        match r.dropWhile isSpaceOrTab with
        | ',' :: r' => return ((name, .empty), ',' :: r')
        | '\x7d' :: r' => return ((name, .empty), '\x7d' :: r')
        | r => do
          let (value, r) ← readFlow fuel r
          return ((name, value), r)
      let (entries, r) ← readEntries '\x7d' entry (r.length + 1) [] r
      return (sectionOf entries, r)
    | cs =>
      match quoted? cs with
      | some (s, r) => some (.text s, r)
      | none =>
        if startsWord cs then
          let p := takeWord true cs
          some (word (trimEnd p.1), p.2)
        else none

/-! ### Blocks -/

/-- The name in front of a colon that ends the line or has a blank behind it, and what follows. -/
def splitName? (cs : List Char) : Option (String × List Char) := do
  let (name, r) ← name? false cs
  match r.dropWhile isSpaceOrTab with
  | [':'] => return (name, [])
  | ':' :: c :: r => if isSpaceOrTab c then return (name, (c :: r).dropWhile isSpaceOrTab) else none
  | _ => none

/-- Whether a line is an item of a list. -/
def isItem (cs : List Char) : Bool :=
  match cs with
  | ['-'] => true
  | '-' :: c :: _ => isSpaceOrTab c
  | _ => false

/-- A value on one line. -/
def inline? (cs : List Char) : Option Tree :=
  match cs with
  | '[' :: _ | '\x7b' :: _ => do
    let (value, r) ← readFlow (cs.length + 1) cs
    if isDone r then return value else none
  | _ =>
    match quoted? cs with
    | some (s, r) => if isDone r then some (.text s) else none
    | none =>
      if startsWord cs then
        let p := takeWord false cs
        if isDone p.2 then some (word (trimEnd p.1)) else none
      else none

/-- A value that starts on a line and goes on in deeper ones, and the lines behind it. -/
def spread? (indent : Nat) : (text : List Char) → List Line → Option (Tree × List Line)
  | text, [] => (inline? text).map (·, [])
  | text, l :: ls =>
    if l.indent ≤ indent then (inline? text).map (·, l :: ls)
    else spread? indent (text ++ ' ' :: l.text) ls

mutual

/-- The block in front, whose lines are indented by `indent`, and the lines behind it. -/
def block? : (fuel : Nat) → (indent : Nat) → List Line → Option (Tree × List Line)
  | 0, _, _ => none
  | _, _, [] => none
  | fuel + 1, indent, l :: ls =>
    if isItem l.text then (items? fuel indent [] (l :: ls)).map fun p => (.list p.1, p.2)
    else if (splitName? l.text).isSome then
      (entries? fuel indent [] (l :: ls)).map fun p => (sectionOf p.1, p.2)
    else spread? (indent - 1) l.text ls

/-- The items of a list. -/
def items? : (fuel : Nat) → (indent : Nat) → (before : List Tree) → List Line →
    Option (List Tree × List Line)
  | 0, _, _, _ => none
  | _, _, before, [] => some (before.reverse, [])
  | fuel + 1, indent, before, l :: ls =>
    if l.indent < indent ∨ (l.indent = indent ∧ !isItem l.text) then
      some (before.reverse, l :: ls)
    else if l.indent > indent then none
    else
      let text := (l.text.drop 1).dropWhile isSpaceOrTab
      let inner := indent + (l.text.length - text.length)
      do
        let (value, ls) ←
          if text = [] ∨ text.head? = some '#' then
            match ls with
            | m :: _ => if m.indent > indent then block? fuel m.indent ls else some (.empty, ls)
            | [] => some (.empty, ls)
          else if (splitName? text).isSome ∨ isItem text then
            block? fuel inner (⟨inner, text⟩ :: ls)
          else spread? indent text ls
        items? fuel indent (value :: before) ls

/-- The entries of a section. -/
def entries? : (fuel : Nat) → (indent : Nat) → (before : List (String × Tree)) → List Line →
    Option (List (String × Tree) × List Line)
  | 0, _, _, _ => none
  | _, _, before, [] => some (before.reverse, [])
  | fuel + 1, indent, before, l :: ls =>
    if l.indent < indent then some (before.reverse, l :: ls)
    else if l.indent > indent then none
    else do
      let (name, text) ← splitName? l.text
      let (value, ls) ←
        if text = [] ∨ text.head? = some '#' then
          match ls with
          | m :: _ =>
            if m.indent > indent ∨ (m.indent = indent ∧ isItem m.text) then
              block? fuel m.indent ls
            else some (.empty, ls)
          | [] => some (.empty, ls)
        else spread? indent text ls
      entries? fuel indent ((name, value) :: before) ls

end

/-- The lines of a document, without the marks at its start and end. -/
def document (ls : List Line) : List Line :=
  let isMark (mark : String) (l : Line) : Bool := l.indent = 0 && l.text = mark.toList
  let ls := match ls with
    | l :: r => if isMark "---" l then r else l :: r
    | [] => []
  if ls.getLast?.any (isMark "...") then ls.dropLast else ls

/-- The tree of a document; one that holds nothing is an empty section. -/
def parse? (s : String) : Option Tree :=
  match document ((linesOf s.toList).filterMap line?) with
  | [] => some (.section [])
  | l :: ls => do
    let (value, rest) ← block? (3 * s.length + 8) l.indent (l :: ls)
    if rest.isEmpty then return value else none

end LedgerBridge.Settings.Yaml
