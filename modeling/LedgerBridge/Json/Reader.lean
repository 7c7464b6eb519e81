import LedgerBridge.Json.Text

/-!
# Reading JSON

The strict grammar: no comments, no trailing commas, no leading zeros, and between the tokens only
spaces, tabs and line ends.

* `Json.readFront s` reads one value from the front of some bytes;
* `Json.parse? s` reads a text that is one value and nothing else;
* `Json.splitObject?` and `Json.splitArray?` read one level only and keep the values as bytes.
-/

namespace LedgerBridge.Json

/-- White space between tokens. -/
def isSpace (b : UInt8) : Bool := b = 0x20 || b = 0x09 || b = 0x0a || b = 0x0d

/-- The bytes behind the white space in front. -/
def skipSpace (s : Bytes) : Bytes := s.dropWhile isSpace

/-- Decimal digits. -/
def isDigit (b : UInt8) : Bool := 0x30 ≤ b && b ≤ 0x39

/-- The number that digits spell behind those of `value`. -/
def digitsValue (value : Nat) (digits : Bytes) : Nat :=
  digits.foldl (fun n b => n * 10 + (b.toNat - 0x30)) value

/-! ### Numbers -/

/-- The digits of an integer: a zero that stands alone, or digits without a zero in front. -/
def readInteger (s : Bytes) : Option (Bytes × Bytes) :=
  match s.takeWhile isDigit with
  | [] => none
  | [d] => some ([d], s.drop 1)
  | d :: ds => if d = 0x30 then none else some (d :: ds, s.drop (ds.length + 1))

/-- The digits of a fraction, if there is one. -/
def readFraction (s : Bytes) : Option (Bytes × Bytes) :=
  match s with
  | 0x2e :: r =>
    match r.takeWhile isDigit with
    | [] => none
    | ds => some (ds, r.drop ds.length)
  | _ => some ([], s)

/-- The exponent, if there is one. -/
def readExponent (s : Bytes) : Option (Option Int × Bytes) :=
  match s with
  | e :: r =>
    if e = 0x65 ∨ e = 0x45 then
      let (negative, r) := match r with
        | 0x2d :: r => (true, r)
        | 0x2b :: r => (false, r)
        | _ => (false, r)
      match r.takeWhile isDigit with
      | [] => none
      | ds =>
        let n := (digitsValue 0 ds : Int)
        some (some (if negative then -n else n), r.drop ds.length)
    else some (none, s)
  | [] => some (none, s)

/-- A number behind its sign. -/
def readUnsigned (negative : Bool) (s : Bytes) : Option (Number × Bytes) := do
  let (whole, r) ← readInteger s
  let (fraction, r) ← readFraction r
  let (exponent, r) ← readExponent r
  let value := digitsValue 0 whole
  if fraction = [] ∧ exponent = none then return (.whole negative value, r)
  else
    return (.scaled negative (digitsValue value fraction) (exponent.getD 0 - fraction.length), r)

/-- A number. -/
def readNumber : Bytes → Option (Number × Bytes)
  | 0x2d :: r => readUnsigned true r
  | s => readUnsigned false s

/-! ### Values -/

/-- The items of a list or an object, one of which stands in front, up to the closing mark. -/
def readItems {α : Type} (close : UInt8) (item : Bytes → Option (α × Bytes)) :
    (fuel : Nat) → (before : List α) → Bytes → Option (List α × Bytes)
  | 0, _, _ => none
  | fuel + 1, before, s => do
    let (a, r) ← item s
    match skipSpace r with
    | [] => none
    | b :: r =>
      if b = close then return ((a :: before).reverse, r)
      else if b = 0x2c then readItems close item fuel (a :: before) r
      else none

/-- The items up to the closing mark, if any. -/
def readSeries {α : Type} (close : UInt8) (item : Bytes → Option (α × Bytes)) (s : Bytes) :
    Option (List α × Bytes) :=
  match skipSpace s with
  | [] => none
  | b :: r => if b = close then some ([], r) else readItems close item (r.length + 1) [] (b :: r)

/-- A name, a colon, and a value. -/
def readMember {α : Type} (value : Bytes → Option (α × Bytes)) (s : Bytes) :
    Option ((Option String × α) × Bytes) :=
  match skipSpace s with
  | 0x22 :: r => do
    let (name, r) ← readText r
    match skipSpace r with
    | 0x3a :: r => do
      let (v, r) ← value r
      return ((name, v), r)
    | _ => none
  | _ => none

/-- The bytes behind a word that must stand in front. -/
def readWord (word : Bytes) (s : Bytes) : Option Bytes :=
  if word.isPrefixOf s then some (s.drop word.length) else none

/-- A value in which lists and objects nest less than `fuel` deep. -/
def readValue : (fuel : Nat) → Bytes → Option (Json × Bytes)
  | 0, _ => none
  | fuel + 1, s =>
    match skipSpace s with
    | [] => none
    | b :: r =>
      if b = 0x22 then do
        let (t, r) ← readText r
        return (.text t, r)
      else if b = 0x5b then do
        let (items, r) ← readSeries 0x5d (readValue fuel) r
        return (.array items, r)
      else if b = 0x7b then do
        let (members, r) ← readSeries 0x7d (readMember (readValue fuel)) r
        return (.object members, r)
      else if b = 0x74 then do
        return (.bool true, ← readWord [0x72, 0x75, 0x65] r)
      else if b = 0x66 then do
        return (.bool false, ← readWord [0x61, 0x6c, 0x73, 0x65] r)
      else if b = 0x6e then do
        return (.null, ← readWord [0x75, 0x6c, 0x6c] r)
      else do
        let (n, r) ← readNumber (b :: r)
        return (.number n, r)

/-- One value from the front, and the rest. -/
def readFront (s : Bytes) : Option (Json × Bytes) := readValue s.length s

/-- The value of a text that holds nothing else. -/
def parse? (s : Bytes) : Option Json := do
  let (j, r) ← readFront s
  if skipSpace r = [] then return j else none

/-! ### One level -/

/-- The bytes of one value from the front, and the rest. -/
def spanFront (s : Bytes) : Option (Bytes × Bytes) := do
  let s := skipSpace s
  let (_, r) ← readFront s
  return (s.take (s.length - r.length), r)

/-- Reads with `inside` what stands behind an opening mark, up to the end of the text. -/
def readWhole {α : Type} (mark : UInt8) (inside : Bytes → Option (α × Bytes)) (s : Bytes) :
    Option α :=
  match skipSpace s with
  | [] => none
  | b :: r =>
    if b = mark then do
      let (a, r) ← inside r
      if skipSpace r = [] then return a else none
    else none

/-- The names of an object and the bytes of their values. -/
def splitObject? (s : Bytes) : Option (List (Option String × Bytes)) :=
  readWhole 0x7b (readSeries 0x7d (readMember spanFront)) s

/-- The bytes of the values of a list. -/
def splitArray? (s : Bytes) : Option (List Bytes) :=
  readWhole 0x5b (readSeries 0x5d spanFront) s

end LedgerBridge.Json
