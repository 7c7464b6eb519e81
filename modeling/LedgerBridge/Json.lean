import LedgerBridge.Text.Utf8

/-!
# JSON values

The tree of a JSON text. A reader that passes over a value asks less of it than one that keeps it,
and the tree holds what both need: a text may be one that no characters spell, an object may give
a name twice, and a number stands as it was written.

* `Json.isKept levels j`: the value can be kept, that is, every text and name in it is spelled by
  characters, every number is in the range of a double, and lists and objects nest no deeper than
  `levels`;
* `asText?`, `asBool?`, `asUInt64?`, `asList?`, `asOptional?` read a value as what is expected of
  it.
-/

namespace LedgerBridge

/-- A number as it is written. -/
inductive Json.Number where
  /-- An integer. -/
  | whole (negative : Bool) (value : Nat)
  /-- `significand · 10 ^ exponent`, written with a fraction or an exponent. -/
  | scaled (negative : Bool) (significand : Nat) (exponent : Int)
  deriving DecidableEq, Repr

/-- A JSON value. -/
inductive Json where
  | null
  | bool (b : Bool)
  | number (n : Json.Number)
  /-- `none` is a text with a lone surrogate or with bytes that are not UTF-8. -/
  | text (t : Option String)
  | array (items : List Json)
  | object (members : List (Option String × Json))
  deriving Repr, Inhabited

namespace Json

/-- A text. -/
abbrev str (s : String) : Json := .text (some s)

/-- An object with the given members. -/
def record (members : List (String × Json)) : Json :=
  .object (members.map fun m => (some m.1, m.2))

/-- A natural number. -/
abbrev nat (n : Nat) : Json := .number (.whole false n)

/-- An integer. -/
def int (n : Int) : Json := .number (.whole (n < 0) n.natAbs)

/-! ### Numbers in the range of a double -/

/-- A number rounded to 53 bits, to nearest and ties to even, as a multiple of a power of two. -/
def round53 (n : Nat) : Nat :=
  if n < 1 <<< 53 then n
  else
    let unit := 1 <<< (n.log2 - 52)
    let (q, r) := (n / unit, n % unit)
    (if 2 * r > unit ∨ (2 * r = unit ∧ q % 2 = 1) then q + 1 else q) * unit

/-- The leading digits that fit 64 bits, and how many are left out. -/
def leading (digits : Nat) : (fuel : Nat) → Nat × Nat
  | 0 => (digits, 0)
  | fuel + 1 =>
    if digits < UInt64.size then (digits, 0)
    else
      let (n, k) := leading (digits / 10) fuel
      (n, k + 1)

/-- The bound of what rounds to a finite double. -/
def finiteBound : Nat := (1 <<< 1024) - (1 <<< 970)

/-- Whether `significand · 10 ^ exponent`, as the product of two doubles, is finite. -/
def inRange (significand : Nat) (exponent : Int) : Bool :=
  let (n, dropped) := leading significand significand.log2
  let e := exponent + dropped
  n = 0 || e < 0 || (e ≤ 308 && round53 n * round53 (Nat.pow 10 e.toNat) < finiteBound)

/-- Whether a number is in the range of a double. -/
def Number.inRange : Number → Bool
  | .whole _ n => Json.inRange n 0
  | .scaled _ s e => Json.inRange s e

/-! ### Values that can be kept -/

mutual

/-- Whether a value can be kept, with at most `levels` of lists and objects inside each other. -/
def isKept : (levels : Nat) → Json → Bool
  | _, .null => true
  | _, .bool _ => true
  | _, .number n => n.inRange
  | _, .text t => t.isSome
  | 0, .array _ => false
  | levels + 1, .array items => areKept levels items
  | 0, .object _ => false
  | levels + 1, .object members => membersAreKept levels members
termination_by structural _ j => j

/-- Whether all values of a list can be kept. -/
def areKept : (levels : Nat) → List Json → Bool
  | _, [] => true
  | levels, j :: r => isKept levels j && areKept levels r
termination_by structural _ j => j

/-- Whether all members of an object can be kept. -/
def membersAreKept : (levels : Nat) → List (Option String × Json) → Bool
  | _, [] => true
  | levels, m :: r => memberIsKept levels m && membersAreKept levels r
termination_by structural _ j => j

/-- Whether a member of an object can be kept. -/
def memberIsKept : (levels : Nat) → Option String × Json → Bool
  | levels, (name, j) => name.isSome && isKept levels j
termination_by structural _ j => j

end

/-- How deep lists and objects of a kept value may nest. -/
def keptLevels : Nat := 127

/-! ### Reading a value as what is expected -/

/-- The characters of a text. -/
def asText? : Json → Option String
  | .text t => t
  | _ => none

/-- A truth value. -/
def asBool? : Json → Option Bool
  | .bool b => some b
  | _ => none

/-- A natural number of 64 bits, written without fraction, exponent or sign. -/
def asUInt64? : Json → Option UInt64
  | .number (.whole false n) => if n < UInt64.size then some (UInt64.ofNat n) else none
  | _ => none

/-- A list of values of which each is read by `item`. -/
def asList? {α : Type} (item : Json → Option α) : Json → Option (List α)
  | .array items => items.mapM item
  | _ => none

/-- A value read by `item`, or null. -/
def asOptional? {α : Type} (item : Json → Option α) : Json → Option (Option α)
  | .null => some none
  | j => some <$> item j

/-- The value itself, if it can be kept. -/
def asKept? (j : Json) : Option Json := if j.isKept keptLevels then some j else none

end Json

end LedgerBridge
