import LedgerBridge.Json.Reader

/-!
# Setting trees

What a configuration file holds, whatever its format: named values, in sections.

* `Tree.onto new old` lays one tree over another: sections are merged member by member, and where
  both have something else the new one wins;
* `Tree.ofJson?` reads a JSON value.
-/

namespace LedgerBridge.Settings

/-- A value of a configuration. -/
inductive Tree where
  | empty
  | bool (b : Bool)
  | integer (n : Int)
  | text (s : String)
  /-- A number that is no integer, or a date. -/
  | other
  | list (items : List Tree)
  | section (members : List (String × Tree))
  deriving Repr, Inhabited

namespace Tree

/-- Members with a value for a name, in place of the one they have. -/
def set {α : Type} (name : String) (value : α) : List (String × α) → List (String × α)
  | [] => [(name, value)]
  | m :: r => if m.1 = name then (name, value) :: r else m :: set name value r

mutual

/-- A tree laid over another one. -/
def onto : (new : Tree) → (old : Tree) → Tree
  | .section news, .section olds => .section (overAll news olds)
  | new, _ => new
termination_by structural new => new

/-- Members laid over others. -/
def overAll : (news : List (String × Tree)) → (olds : List (String × Tree)) → List (String × Tree)
  | [], olds => olds
  | m :: r, olds => overAll r (overOne m olds)
termination_by structural news => news

/-- A member laid over others. -/
def overOne : (new : String × Tree) → (olds : List (String × Tree)) → List (String × Tree)
  | (name, new), olds =>
    set name (match olds.lookup name with | some old => onto new old | none => new) olds
termination_by structural new => new

end

mutual

/-- The tree of a JSON value. Of members with one name the last one counts. -/
def ofKept : Json → Tree
  | .null => .empty
  | .bool b => .bool b
  | .number (.whole negative n) => .integer (if negative then -n else n)
  | .number (.scaled ..) => .other
  | .text t => .text (t.getD "")
  | .array items => .list (ofKeptAll items)
  | .object members => .section (ofKeptMembers [] members)
termination_by structural j => j

/-- The trees of a list of JSON values. -/
def ofKeptAll : List Json → List Tree
  | [] => []
  | j :: r => ofKept j :: ofKeptAll r
termination_by structural j => j

/-- The members of a section, behind some others. -/
def ofKeptMembers (before : List (String × Tree)) :
    List (Option String × Json) → List (String × Tree)
  | [] => before
  | m :: r =>
    ofKeptMembers (set (ofKeptMember m).1 (ofKeptMember m).2 before) r
termination_by structural j => j

/-- A member of a section. -/
def ofKeptMember : Option String × Json → String × Tree
  | (name, j) => (name.getD "", ofKept j)
termination_by structural j => j

end

/-- The tree of a JSON value that can be kept. -/
def ofJson? (j : Json) : Option Tree := ofKept <$> j.asKept?

/-! ### Reading a tree -/

/-- A text. -/
def asText? : Tree → Option String
  | .text s => some s
  | _ => none

/-- A truth value. -/
def asBool? : Tree → Option Bool
  | .bool b => some b
  | _ => none

/-- A natural number below a bound. -/
def asBelow? (bound : Nat) : Tree → Option Nat
  | .integer n => if 0 ≤ n ∧ n < bound then some n.toNat else none
  | _ => none

/-- The values of the members of a section, or of a list that has them in order. -/
def members? (names : List String) : Tree → Option (List Tree)
  | .section ms => names.mapM fun name => ms.lookup name
  | .list items => if names.length ≤ items.length then some (items.take names.length) else none
  | _ => none

end Tree

end LedgerBridge.Settings
