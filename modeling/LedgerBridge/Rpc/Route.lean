import LedgerBridge.Rpc.Method

/-!
# Routes

Where the name of a method leads: to a method of the table, to the list of them, or nowhere.

* `Route.ofName wire` is the route of a name;
* `directory` is the list of names that lead somewhere, sorted.
-/

namespace LedgerBridge.Rpc

/-- Where the name of a method leads. -/
inductive Route where
  | method (m : Method)
  /-- To the list of methods. -/
  | directory
  /-- Nowhere: no method has the key that the name asks for. -/
  | unknown
  /-- Nowhere: the name asks for no key. -/
  | keyless

namespace Route

/-- The key of the list of methods. -/
def directoryKey : String := "rpc.Methods"

/-- The route of a key. -/
def ofKey (key : String) : Route :=
  if key = directoryKey then .directory else (method? key).elim .unknown .method

/-- The route of a name. -/
def ofName (wire : String) : Route := (Name.key? wire).elim .keyless ofKey

end Route

/-- The names that lead somewhere, sorted. -/
def names : List String :=
  ((Route.directoryKey :: methods.map (·.key)).map Name.wire).mergeSort fun a b => decide (a ≤ b)

/-- The list of methods. -/
def directory : Json := .record [("methods", Eth.texts names)]

end LedgerBridge.Rpc
