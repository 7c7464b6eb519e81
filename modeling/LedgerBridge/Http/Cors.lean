import LedgerBridge.Http.Message
import LedgerBridge.Settings.Cors
import LedgerBridge.Text.Quoted

/-!
# Cross-origin headers

What a server tells a browser about pages of other origins.

* `OriginRule.ofCors` turns the setting into a rule, which needs origins that headers can hold;
* `OriginRule.headers` are the headers of every response, `preflight` the response to a browser that
  asks before it sends anything.
-/

namespace LedgerBridge.Http

open Settings (Cors)

/-- Which origins a response allows. -/
inductive OriginRule where
  /-- Every one, by the wildcard. -/
  | wildcard
  | listed (origins : List String)
  deriving DecidableEq, Repr

/-- Why a setting gives no rule. -/
inductive OriginError where
  /-- No header can hold the origin. -/
  | invalid (origin : String)
  /-- The wildcard stands among listed origins, where it would allow what is not listed. -/
  | wildcardListed
  deriving DecidableEq, Repr

/-- The wording of an origin error. -/
def OriginError.message : OriginError → String
  | .invalid origin => "Invalid CORS origin " ++ Quoted.text origin
  | .wildcardListed => "The wildcard cannot be listed as a CORS origin"

namespace OriginRule

/-- The rule for listed origins. -/
def ofList (origins : List String) : Except OriginError OriginRule :=
  match origins.find? (!isFieldValue ·) with
  | some origin => .error (.invalid origin)
  | none => if "*" ∈ origins then .error .wildcardListed else .ok (.listed origins)

/-- The rule of a setting. -/
def ofCors : Cors → Except OriginError OriginRule
  | .all => .ok .wildcard
  | .only origins => ofList origins

/-- The value that allows a page, which may have told its origin. -/
def allowed? : OriginRule → (origin : Option String) → Option String
  | .wildcard, _ => some "*"
  | .listed origins, origin => origin.filter (· ∈ origins)

/-- The headers that every response to a request has. -/
def headers (rule : OriginRule) (request : Headers) : Headers :=
  let origin := (request.values "origin").head?.map fieldValue
  ("vary", "origin, access-control-request-method, access-control-request-headers")
    :: ((rule.allowed? origin).map fun value => ("access-control-allow-origin", value)).toList

end OriginRule

/-- The response to a browser that asks what it may send. -/
def preflight : Response where
  status := 200
  headers := [("access-control-allow-methods", "POST"),
    ("access-control-allow-headers", "origin,content-type")]

end LedgerBridge.Http
