import LedgerBridge.Quantity
import LedgerBridge.Settings.Tree
import LedgerBridge.Text.Blank

/-!
# Configuration in TOML

Lines of names and values under headers of tables.

* `Toml.parse? s` reads a document. A name may be given once only: a table is opened by one header,
  and neither a header nor a dotted name reaches into a value.
-/

namespace LedgerBridge.Settings.Toml

open Blank (isSpaceOrTab)

/-! ### Blanks and lines -/

/-- The characters behind the blanks in front. -/
def skipBlanks (cs : List Char) : List Char := cs.dropWhile isSpaceOrTab

/-- Control characters, which stand in no text and in no comment. -/
def isControl (c : Char) : Bool := (c.toNat < 0x20 && c ≠ '\t') || c = '\x7f'

/-- The characters behind a comment in front, if there is one. -/
def skipComment (cs : List Char) : List Char :=
  match cs with
  | '#' :: r => r.dropWhile (!isControl ·)
  | _ => cs

/-- The characters behind the end of a line. -/
def lineEnd? : List Char → Option (List Char)
  | [] => some []
  | '\n' :: r => some r
  | '\x0d' :: '\n' :: r => some r
  | _ => none

/-- The characters of the next line, when nothing but a comment is left on this one. -/
def nextLine? (cs : List Char) : Option (List Char) := lineEnd? (skipComment (skipBlanks cs))

/-- The characters behind blanks, comments and line ends. -/
def skipLines : (fuel : Nat) → List Char → List Char
  | 0, cs => cs
  | fuel + 1, cs =>
    let cs := skipBlanks cs
    match nextLine? cs with
    | some r => if cs = [] then [] else skipLines fuel r
    | none => cs

/-- The characters behind everything that separates the items of a list. -/
def skipSpace (cs : List Char) : List Char := skipLines (cs.length + 1) cs

/-! ### Texts -/

/-- The character with a code point in hexadecimal digits. -/
def codePoint? (digits : List Char) : Option Char :=
  match digits.mapM Quantity.digitValue? with
  | some ds =>
    let n := ds.foldl (fun n d => n * 16 + d) 0
    if n.isValidChar then some (Char.ofNat n) else none
  | none => none

/-- The character behind a backslash, and the rest. -/
def escape? : List Char → Option (Char × List Char)
  | 'b' :: r => some ('\x08', r)
  | 't' :: r => some ('\t', r)
  | 'n' :: r => some ('\n', r)
  | 'f' :: r => some ('\x0c', r)
  | 'r' :: r => some ('\x0d', r)
  | '"' :: r => some ('"', r)
  | '\\' :: r => some ('\\', r)
  | 'u' :: r => if r.length < 4 then none else (codePoint? (r.take 4)).map (·, r.drop 4)
  | 'U' :: r => if r.length < 8 then none else (codePoint? (r.take 8)).map (·, r.drop 8)
  | _ => none

/-- The text up to the closing mark of a line, behind the characters of `before`. -/
def readLine (mark : Char) : (fuel : Nat) → (before : List Char) → List Char →
    Option (String × List Char)
  | 0, _, _ => none
  | _, _, [] => none
  | fuel + 1, before, c :: r =>
    if c = mark then some (String.ofList before.reverse, r)
    else if c = '\\' ∧ mark = '"' then do
      let (e, r) ← escape? r
      readLine mark fuel (e :: before) r
    else if isControl c then none
    else readLine mark fuel (c :: before) r

/-- The characters behind blanks and line ends. -/
def skipFold : List Char → List Char
  | '\x0d' :: '\n' :: r => skipFold r
  | c :: r => if isSpaceOrTab c || c = '\n' then skipFold r else c :: r
  | [] => []

/-- The characters behind a backslash that ends a line, if it does. -/
def foldLine? (cs : List Char) : Option (List Char) := (lineEnd? (skipBlanks cs)).map skipFold

/-- The text up to three closing marks, behind the characters of `before`. -/
def readLong (mark : Char) : (fuel : Nat) → (before : List Char) → List Char →
    Option (String × List Char)
  | 0, _, _ => none
  | _, _, [] => none
  | fuel + 1, before, c :: r =>
    if c = mark then
      let marks := (c :: r).takeWhile (· = mark)
      let n := marks.length
      if n < 3 then readLong mark fuel (c :: before) r
      else if n ≤ 5 then
        some (String.ofList (before.reverse ++ List.replicate (n - 3) mark), r.drop (n - 1))
      else none
    else if c = '\\' ∧ mark = '"' then
      match (if r = [] then none else foldLine? r) with
      | some r => readLong mark fuel before r
      | none => do
        let (e, r) ← escape? r
        readLong mark fuel (e :: before) r
    else if c = '\n' then readLong mark fuel (c :: before) r
    else if c = '\x0d' then
      match r with
      | '\n' :: r => readLong mark fuel ('\n' :: before) r
      | _ => none
    else if isControl c then none
    else readLong mark fuel (c :: before) r

/-- The text behind an opening mark. -/
def readText (mark : Char) (cs : List Char) : Option (String × List Char) :=
  match cs with
  | a :: b :: r =>
    if a = mark ∧ b = mark then
      let r := match r with
        | '\n' :: r' => r'
        | '\x0d' :: '\n' :: r' => r'
        | _ => r
      readLong mark (r.length + 1) [] r
    else readLine mark (cs.length + 1) [] cs
  | _ => readLine mark (cs.length + 1) [] cs

/-! ### Names -/

/-- Characters of a name without marks. -/
def isBare (c : Char) : Bool := c.isAlphanum || c = '_' || c = '-'

/-- A name. -/
def readName : List Char → Option (String × List Char)
  | '"' :: r => readLine '"' (r.length + 1) [] r
  | '\'' :: r => readLine '\'' (r.length + 1) [] r
  | cs =>
    match cs.takeWhile isBare with
    | [] => none
    | name => some (String.ofList name, cs.dropWhile isBare)

/-- Names with dots between them. -/
def readPath : (fuel : Nat) → List Char → Option (List String × List Char)
  | 0, _ => none
  | fuel + 1, cs => do
    let (name, r) ← readName (skipBlanks cs)
    match skipBlanks r with
    | '.' :: r => do
      let (names, r) ← readPath fuel r
      return (name :: names, r)
    | r => return ([name], r)

/-! ### Numbers and dates -/

/-- Digits of a base, with single underscores between them. -/
def digits? (base : Nat) (cs : List Char) : Option Nat :=
  let value (c : Char) : Option Nat := (Quantity.digitValue? c).filter (· < base)
  let rec go (n : Nat) : List Char → Option Nat
    | [] => some n
    | '_' :: c :: r => (value c).bind fun d => go (n * base + d) r
    | c :: r => (value c).bind fun d => go (n * base + d) r
  match cs with
  | [] => none
  | c :: r => (value c).bind fun d => go d r

/-- Decimal digits without a zero in front. -/
def decimal? (cs : List Char) : Option Nat :=
  match cs with
  | ['0'] => some 0
  | '0' :: _ => none
  | _ => digits? 10 cs

/-- An integer. -/
def integer? : List Char → Option Int
  | '0' :: 'x' :: r => (digits? 16 r).map Int.ofNat
  | '0' :: 'o' :: r => (digits? 8 r).map Int.ofNat
  | '0' :: 'b' :: r => (digits? 2 r).map Int.ofNat
  | '-' :: r => (decimal? r).map fun n => -(n : Int)
  | '+' :: r => (decimal? r).map Int.ofNat
  | cs => (decimal? cs).map Int.ofNat

/-- Digits without the sign in front. -/
def unsigned : List Char → List Char
  | '-' :: r => r
  | '+' :: r => r
  | cs => cs

/-- Whether a word is a number with a fraction or an exponent, or one that is not finite. -/
def isFractional (cs : List Char) : Bool :=
  let cs := unsigned cs
  let isExponent (c : Char) : Bool := c = 'e' || c = 'E'
  let mantissa := cs.takeWhile (!isExponent ·)
  let exponentOk := match cs.dropWhile (!isExponent ·) with
    | [] => true
    | _ :: r => (digits? 10 (unsigned r)).isSome
  let whole := mantissa.takeWhile (· ≠ '.')
  let fractionOk := match mantissa.dropWhile (· ≠ '.') with
    | [] => cs.any isExponent
    | _ :: r => (digits? 10 r).isSome
  cs = "inf".toList || cs = "nan".toList || ((decimal? whole).isSome && fractionOk && exponentOk)

/-- The number that decimal digits spell, if all are. -/
def decimalDigits? (cs : List Char) : Option Nat :=
  if cs ≠ [] ∧ cs.all Char.isDigit then
    some (cs.foldl (fun n c => n * 10 + (c.toNat - '0'.toNat)) 0)
  else none

/-- Whether two digits spell a number within bounds. -/
def isTwoDigits (least greatest : Nat) (cs : List Char) : Bool :=
  cs.length = 2 && (decimalDigits? cs).any fun n => least ≤ n && n ≤ greatest

/-- How many days a month has. -/
def daysOf (year month : Nat) : Nat :=
  if month = 2 then
    if year % 4 = 0 ∧ (year % 100 ≠ 0 ∨ year % 400 = 0) then 29 else 28
  else if [4, 6, 9, 11].contains month then 30
  else 31

/-- Whether a text is a day of a year, `yyyy-mm-dd`. -/
def isDay (cs : List Char) : Bool :=
  match cs with
  | [y1, y2, y3, y4, '-', m1, m2, '-', d1, d2] =>
    match decimalDigits? [y1, y2, y3, y4], decimalDigits? [m1, m2] with
    | some year, some month =>
      1 ≤ month && month ≤ 12 && isTwoDigits 1 (daysOf year month) [d1, d2]
    | _, _ => false
  | _ => false

/-- Whether a text is an offset from universal time, if it is there at all. -/
def isOffset (cs : List Char) : Bool :=
  match cs with
  | [] => true
  | [z] => z = 'Z' || z = 'z'
  | [sign, h1, h2, ':', m1, m2] =>
    (sign = '+' || sign = '-') && isTwoDigits 0 23 [h1, h2] && isTwoDigits 0 59 [m1, m2]
  | _ => false

/-- What stands behind the time of a day in front, `hh:mm:ss` and perhaps a fraction. -/
def behindClock? (cs : List Char) : Option (List Char) :=
  match cs with
  | h1 :: h2 :: ':' :: m1 :: m2 :: ':' :: s1 :: s2 :: r =>
    if isTwoDigits 0 23 [h1, h2] ∧ isTwoDigits 0 59 [m1, m2] ∧ isTwoDigits 0 60 [s1, s2] then
      match r with
      | '.' :: r => if r.head?.any Char.isDigit then some (r.dropWhile Char.isDigit) else none
      | r => some r
    else none
  | _ => none

/-- Whether a word is a day, the time of a day, or both. -/
def isDate (cs : List Char) : Bool :=
  isDay cs || behindClock? cs = some [] ||
    (isDay (cs.take 10) &&
      match cs.drop 10 with
      | c :: r => (c = 'T' || c = 't' || c = ' ') && (behindClock? r).any isOffset
      | [] => false)

/-- A date as it is kept: a section of its own, with the date as its only member. -/
def dateTree (cs : List Char) : Tree :=
  .section [("$__toml_private_datetime", .text (String.ofList cs))]

/-- The value that a word spells. -/
def word? (cs : List Char) : Option Tree :=
  if cs = "true".toList then some (.bool true)
  else if cs = "false".toList then some (.bool false)
  else match integer? cs with
    | some n =>
      if Int64.minValue.toInt ≤ n ∧ n ≤ Int64.maxValue.toInt then some (.integer n) else none
    | none =>
      if isFractional cs then some .other else if isDate cs then some (dateTree cs) else none

/-- Characters of a word. -/
def isWordChar (c : Char) : Bool := c.isAlphanum || "+-_.:".toList.contains c

/-- A word in front, and the rest. The time of a day may stand behind a space. -/
def readWord (cs : List Char) : Option (Tree × List Char) :=
  let word := cs.takeWhile isWordChar
  match cs.dropWhile isWordChar with
  | ' ' :: c :: r =>
    let time := (c :: r).takeWhile isWordChar
    if isDay word ∧ time.contains ':' then
      (word? (word ++ ' ' :: time)).map (·, (c :: r).dropWhile isWordChar)
    else (word? word).map (·, ' ' :: c :: r)
  | rest => (word? word).map (·, rest)

/-! ### Tables under construction -/

/-- How a table came to be. -/
inductive Origin where
  /-- It was named on the way to another one. -/
  | implied
  | dotted
  | header
  deriving DecidableEq, Repr

/-- A member of a table under construction. -/
inductive Node where
  | leaf (value : Tree)
  | branch (origin : Origin) (members : List (String × Node))
  | many (items : List (List (String × Node)))

mutual

/-- The value of a finished member. -/
def Node.tree : Node → Tree
  | .leaf value => value
  | .branch _ members => .section (treeMembers members)
  | .many items => .list (treeItems items)
termination_by structural n => n

/-- The members of a finished table. -/
def treeMembers : List (String × Node) → List (String × Tree)
  | [] => []
  | m :: r => treeMember m :: treeMembers r
termination_by structural n => n

/-- A member of a finished table. -/
def treeMember : String × Node → String × Tree
  | (name, n) => (name, n.tree)
termination_by structural n => n

/-- The tables of a finished list. -/
def treeItems : List (List (String × Node)) → List Tree
  | [] => []
  | ms :: r => .section (treeMembers ms) :: treeItems r
termination_by structural n => n

end

/-- Members under construction. -/
abbrev Members : Type := List (String × Node)

/-- Members with a value under dotted names. -/
def addPair (value : Tree) : List String → Members → Option Members
  | [], _ => none
  | [name], ms =>
    match ms.lookup name with
    | none => some (Tree.set name (.leaf value) ms)
    | some _ => none
  | name :: rest, ms =>
    match ms.lookup name with
    | none => (addPair value rest []).map fun inner => Tree.set name (.branch .dotted inner) ms
    | some (.branch origin inner) =>
      if origin = .header then none
      else (addPair value rest inner).map fun inner => Tree.set name (.branch origin inner) ms
    | some _ => none

/-- Members after `change` at the place that a header names. -/
def atHeader (change : Members → Option Members) : List String → Members → Option Members
  | [], ms => change ms
  | name :: rest, ms =>
    match ms.lookup name with
    | none => (atHeader change rest []).map fun inner => Tree.set name (.branch .implied inner) ms
    | some (.branch origin inner) =>
      (atHeader change rest inner).map fun inner => Tree.set name (.branch origin inner) ms
    | some (.many items) => do
      let last ← items.getLast?
      let last ← atHeader change rest last
      return Tree.set name (.many (items.dropLast ++ [last])) ms
    | some (.leaf _) => none

/-- Members with a new table. -/
def openTable (name : String) (ms : Members) : Option Members :=
  match ms.lookup name with
  | none => some (Tree.set name (.branch .header []) ms)
  | some (.branch .implied inner) => some (Tree.set name (.branch .header inner) ms)
  | some _ => none

/-- Members with one more table of a list. -/
def openItem (name : String) (ms : Members) : Option Members :=
  match ms.lookup name with
  | none => some (Tree.set name (.many [[]]) ms)
  | some (.many items) => some (Tree.set name (.many (items ++ [[]])) ms)
  | some _ => none

/-! ### Values -/

/-- Items with commas between them up to the closing bracket, the last of which may be followed by
a comma. -/
def readItems (item : List Char → Option (Tree × List Char)) :
    (fuel : Nat) → (before : List Tree) → List Char → Option (List Tree × List Char)
  | 0, _, _ => none
  | fuel + 1, before, cs =>
    match skipSpace cs with
    | ']' :: r => some (before.reverse, r)
    | cs => do
      let (value, r) ← item cs
      match skipSpace r with
      | ',' :: r => readItems item fuel (value :: before) r
      | ']' :: r => some ((value :: before).reverse, r)
      | _ => none

/-- A name, an equals sign and a value, put under the members. -/
def readPair (item : List Char → Option (Tree × List Char)) (ms : Members) (cs : List Char) :
    Option (Members × List Char) := do
  let (path, r) ← readPath (cs.length + 1) cs
  match r with
  | '=' :: r => do
    let (value, r) ← item (skipBlanks r)
    return (← addPair value path ms, r)
  | _ => none

/-- Pairs with commas between them up to the closing brace, all on one line. -/
def readPairs (item : List Char → Option (Tree × List Char)) :
    (fuel : Nat) → Members → List Char → Option (Members × List Char)
  | 0, _, _ => none
  | fuel + 1, ms, cs => do
    let (ms, r) ← readPair item ms cs
    match skipBlanks r with
    | ',' :: r => readPairs item fuel ms r
    | '\x7d' :: r => some (ms, r)
    | _ => none

/-- A value in which lists and tables nest less than `fuel` deep. -/
def readValue : (fuel : Nat) → List Char → Option (Tree × List Char)
  | 0, _ => none
  | fuel + 1, cs =>
    match cs with
    | '"' :: r => (readText '"' r).map fun p => (.text p.1, p.2)
    | '\'' :: r => (readText '\'' r).map fun p => (.text p.1, p.2)
    | '[' :: r => (readItems (readValue fuel) (r.length + 1) [] r).map fun p => (.list p.1, p.2)
    | '\x7b' :: r =>
      match skipBlanks r with
      | '\x7d' :: r => some (.section [], r)
      | r =>
        (readPairs (readValue fuel) (r.length + 1) [] r).map fun p =>
          (.section (treeMembers p.1), p.2)
    | _ => readWord cs

/-! ### Documents -/

/-- The names of a header up to the closing bracket. -/
def readHeader (cs : List Char) : Option (List String × List Char) := do
  let (path, r) ← readPath (cs.length + 1) cs
  match r with
  | ']' :: r => return (path, r)
  | _ => none

/-- The members after the lines that are left, below a header. -/
def readLines : (fuel : Nat) → (header : List String) → Members → List Char → Option Members
  | 0, _, _, _ => none
  | fuel + 1, header, ms, cs =>
    match skipSpace cs with
    | [] => some ms
    | '[' :: '[' :: r => do
      let (path, r) ← readHeader r
      match r with
      | ']' :: r => do
        let ms ← atHeader (openItem (path.getLastD "")) path.dropLast ms
        readLines fuel path ms (← nextLine? r)
      | _ => none
    | '[' :: r => do
      let (path, r) ← readHeader r
      let ms ← atHeader (openTable (path.getLastD "")) path.dropLast ms
      readLines fuel path ms (← nextLine? r)
    | cs => do
      let (path, r) ← readPath (cs.length + 1) cs
      match r with
      | '=' :: r => do
        let (value, r) ← readValue 128 (skipBlanks r)
        let ms ← atHeader (addPair value path) header ms
        readLines fuel header ms (← nextLine? r)
      | _ => none

/-- The tree of a document. -/
def parse? (s : String) : Option Tree :=
  (readLines (s.length + 1) [] [] s.toList).map fun ms => .section (treeMembers ms)

end LedgerBridge.Settings.Toml
