import LedgerBridge.Text.Blank
import LedgerBridge.Text.Utf8

/-!
# Requests and responses

What travels between a client and a server.

* `isFieldValue s` says whether a header can hold a text;
* `fieldValue s` is what the other side reads of it.
-/

namespace LedgerBridge.Http

/-- Header fields, in order. -/
abbrev Headers : Type := List (String × String)

/-- A request. -/
structure Request where
  method : String
  /-- The URL that is asked for. -/
  target : String
  headers : Headers := []
  body : Bytes := []
  deriving DecidableEq, Repr

/-- A response. -/
structure Response where
  status : Nat
  headers : Headers := []
  body : Bytes := []
  deriving DecidableEq, Repr

/-- Whether a header can hold a text: of the control characters it holds only tabs. -/
def isFieldValue (s : String) : Bool :=
  s.toList.all fun c => c = '\t' || (0x20 ≤ c.toNat && c ≠ '\x7f')

/-- The value of a header without the spaces and tabs that may stand around it. -/
def fieldValue (s : String) : String :=
  let front := s.toList.dropWhile Blank.isSpaceOrTab
  String.ofList (front.reverse.dropWhile Blank.isSpaceOrTab).reverse

/-- The values of the headers with a name, in lower case, in order. -/
def Headers.values (headers : Headers) (name : String) : List String :=
  (headers.filter fun h => h.1.toLower = name).map (·.2)

end LedgerBridge.Http
