/-!
# Punycode

How a label of a domain name is written in ASCII: its ASCII characters, then the others in the
order of their code points, each as the distance from the one before, in digits of base 36 whose
thresholds adapt to the distances.

* `Punycode.encode cs` writes a label, without the mark in front of it;
* `Punycode.decode? cs` reads one back.
-/

namespace LedgerBridge.Url.Punycode

/-- The digit with a value below 36. -/
def digit (d : Nat) : Char := if d < 26 then Char.ofNat (0x61 + d) else Char.ofNat (0x30 + (d - 26))

/-- The threshold of the digit at position `k`. -/
def threshold (k bias : Nat) : Nat :=
  if k ≤ bias then 1 else if bias + 26 ≤ k then 26 else k - bias

/-- The bias after a distance, the `count`-th one. -/
def adapt (delta count : Nat) (first : Bool) : Nat :=
  let delta := if first then delta / 700 else delta / 2
  let delta := delta + delta / count
  let rec shrink : (fuel : Nat) → Nat → Nat → Nat
    | 0, delta, k => k + 36 * delta / (delta + 38)
    | fuel + 1, delta, k =>
      if 455 < delta then shrink fuel (delta / 35) (k + 36) else k + 36 * delta / (delta + 38)
  shrink delta delta 0

/-- The digits of a distance, the first of which stands at position `k`. -/
def distance (bias : Nat) : (fuel : Nat) → (k : Nat) → (delta : Nat) → List Char
  | 0, _, _ => []
  | fuel + 1, k, delta =>
    let t := threshold k bias
    if delta < t then [digit delta]
    else digit (t + (delta - t) % (36 - t)) :: distance bias fuel (k + 36) ((delta - t) / (36 - t))

/-- Where the encoder stands. -/
structure State where
  /-- The digits so far. -/
  out : List Char
  delta : Nat
  bias : Nat
  /-- How many characters are written. -/
  written : Nat

/-- The state after one character of the label, when those with code point `n` are written. -/
def State.pass (basic n : Nat) (st : State) (c : Char) : State :=
  if c.toNat < n then { st with delta := st.delta + 1 }
  else if c.toNat = n then {
    out := st.out ++ distance st.bias (st.delta + 1) 36 st.delta
    delta := 0
    bias := adapt st.delta (st.written + 1) (st.written = basic)
    written := st.written + 1 }
  else st

/-- The state after the code points of a list, when those below `n` are done. -/
def State.passes (cs : List Char) (basic : Nat) (st : State) (n : Nat) : List Nat → State
  | [] => st
  | m :: ms =>
    let st := { st with delta := st.delta + (m - n) * (st.written + 1) }
    let st := cs.foldl (pass basic m) st
    { st with delta := st.delta + 1 }.passes cs basic (m + 1) ms

/-- A label in ASCII. -/
def encode (cs : List Char) : List Char :=
  let basic := cs.filter (·.toNat < 0x80)
  let others := ((cs.map Char.toNat).filter (0x80 ≤ ·)).mergeSort.eraseDups
  let st : State := { out := [], delta := 0, bias := 72, written := basic.length }
  basic ++ (if basic = [] then [] else ['-']) ++ (st.passes cs basic.length 0x80 others).out

/-! ### Reading -/

/-- The value of a digit. -/
def digitValue? (c : Char) : Option Nat :=
  if 'a' ≤ c ∧ c ≤ 'z' then some (c.toNat - 0x61)
  else if 'A' ≤ c ∧ c ≤ 'Z' then some (c.toNat - 0x41)
  else if '0' ≤ c ∧ c ≤ '9' then some (c.toNat - 0x30 + 26)
  else none

/-- The distance that digits spell, the first of which stands at position `k` and counts `weight`,
and the digits behind it. -/
def readDistance (bias : Nat) : (k weight : Nat) → List Char → Option (Nat × List Char)
  | _, _, [] => none
  | k, weight, c :: r => do
    let d ← digitValue? c
    let t := threshold k bias
    if d < t then return (d * weight, r)
    else
      let (delta, r) ← readDistance bias (k + 36) (weight * (36 - t)) r
      return (d * weight + delta, r)

/-- The label `cs` with the characters that the digits put into it. The next one has at least the
code point `n`, and stands no earlier than at `i` if it has that one; `basic` characters were there
from the start. -/
def readOthers (basic : Nat) : (fuel : Nat) → (n i bias : Nat) → (cs digits : List Char) →
    Option (List Char)
  | 0, _, _, _, _, _ => none
  | _, _, _, _, cs, [] => some cs
  | fuel + 1, n, i, bias, cs, digits => do
    let (delta, digits) ← readDistance bias 36 1 digits
    let count := cs.length + 1
    let n := n + (i + delta) / count
    let i := (i + delta) % count
    if n.isValidChar then
      readOthers basic fuel n (i + 1) (adapt delta count (cs.length = basic))
        (cs.take i ++ Char.ofNat n :: cs.drop i) digits
    else none

/-- The label that some ASCII characters write. -/
def decode? (cs : List Char) : Option (List Char) :=
  let digits := (cs.reverse.takeWhile (· ≠ '-')).reverse
  let basic := (cs.take (cs.length - digits.length)).dropLast
  readOthers basic.length (digits.length + 1) 0x80 0 72 basic digits

end LedgerBridge.Url.Punycode
