import LedgerBridge.Text.Blank

/-!
# Allowed origins

Which pages of other origins a browser lets talk to the server: all, or those of a list.

* `Cors.parse` reads the setting: origins between commas, of which `all` or `*` allows every one;
* `Cors.text` writes it.
-/

namespace LedgerBridge.Settings

/-- Which origins are allowed. -/
inductive Cors where
  | all
  | only (origins : List String)
  deriving DecidableEq, Repr

namespace Cors

/-- The entries of a setting: the parts between its commas, without the blanks around them and
without empty ones. -/
def entries (s : String) : List String :=
  ((s.toList.splitOn ',').map fun p => String.ofList (Blank.trimChars p)).filter (· ≠ "")

/-- Whether an entry stands for every origin. -/
def isWildcard (entry : String) : Bool := entry = "all" || entry = "*"

/-- The setting that a text spells. -/
def parse (s : String) : Cors :=
  let es := entries s
  if es.any isWildcard then .all else .only es

/-- The spelling of a setting. -/
def text : Cors → String
  | .all => "*"
  | .only origins => ",".intercalate origins

/-- The listed origins, if not all are allowed. -/
def origins? : Cors → Option (List String)
  | .all => none
  | .only origins => some origins

end Cors

end LedgerBridge.Settings
