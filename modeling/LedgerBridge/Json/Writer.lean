import LedgerBridge.Json.Text

/-!
# Writing JSON

The compact form: no white space, members in the order of the tree, texts escaped only where they
must be.

* `Json.write j` gives the characters of a value, `Json.render j` the text.
-/

namespace LedgerBridge.Json

/-- The digits of a number. -/
def writeNumber : Number → List Char
  | .whole negative n => (if negative then ['-'] else []) ++ Nat.toDigits 10 n
  | .scaled negative s e =>
    (if negative then ['-'] else []) ++ Nat.toDigits 10 s ++ ['e']
      ++ (if e < 0 then ['-'] else []) ++ Nat.toDigits 10 e.natAbs

/-- Parts with commas between them. -/
def commaSeparated : List (List Char) → List Char
  | [] => []
  | [p] => p
  | p :: r => p ++ ',' :: commaSeparated r

mutual

/-- The characters of a value. -/
def write : Json → List Char
  | .null => ['n', 'u', 'l', 'l']
  | .bool true => ['t', 'r', 'u', 'e']
  | .bool false => ['f', 'a', 'l', 's', 'e']
  | .number n => writeNumber n
  | .text t => writeText (t.getD "")
  | .array items => '[' :: commaSeparated (writeAll items) ++ [']']
  | .object members => '\x7b' :: commaSeparated (writeMembers members) ++ ['\x7d']
termination_by structural j => j

/-- The characters of each value of a list. -/
def writeAll : List Json → List (List Char)
  | [] => []
  | j :: r => write j :: writeAll r
termination_by structural j => j

/-- The characters of each member of an object. -/
def writeMembers : List (Option String × Json) → List (List Char)
  | [] => []
  | m :: r => writeMember m :: writeMembers r
termination_by structural j => j

/-- The characters of a member. -/
def writeMember : Option String × Json → List Char
  | (name, j) => writeText (name.getD "") ++ ':' :: write j
termination_by structural j => j

end

/-- The text of a value. -/
def render (j : Json) : String := String.ofList (write j)

end LedgerBridge.Json
