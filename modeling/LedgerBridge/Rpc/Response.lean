import LedgerBridge.Json.Writer
import LedgerBridge.Rpc.Error
import LedgerBridge.Rpc.Message

/-!
# Responses

What a client gets: the response to a request, those to a batch of them, or nothing.

* `Response.text` and `Reply.text` are what is sent;
* `Response.within limit` replaces a response that is longer than `limit`.
-/

namespace LedgerBridge.Rpc

/-- The response to a request. -/
structure Response where
  id : Id
  outcome : Except ErrorObject Json

namespace Response

/-- The JSON form of an outcome: a member named for what it is. -/
def outcomeMember : Except ErrorObject Json → String × Json
  | .ok result => ("result", result)
  | .error e => ("error", e.toJson)

/-- The JSON form of a response. -/
def toJson (r : Response) : Json :=
  .record [("jsonrpc", .str "2.0"), outcomeMember r.outcome, ("id", r.id.toJson)]

/-- The text of a response. -/
def text (r : Response) : String := r.toJson.render

/-- The number of bytes of a response. -/
def size (r : Response) : Nat := Utf8.size r.text

/-- The response that reports an error. -/
def failure (id : Id) (e : ErrorObject) : Response := ⟨id, .error e⟩

/-- The response, or the error that it is longer than `limit`. -/
def within (limit : Nat) (r : Response) : Response :=
  if r.size ≤ limit then r else failure r.id (.responseTooBig limit)

theorem within_of_size_le {limit : Nat} {r : Response} (h : r.size ≤ limit) :
    r.within limit = r := if_pos h

@[simp] theorem id_within (limit : Nat) (r : Response) : (r.within limit).id = r.id := by
  unfold within; split <;> rfl

end Response

/-- What a client gets. -/
inductive Reply where
  /-- Nothing, since nothing is wanted. -/
  | silence
  | single (r : Response)
  | batch (rs : List Response)

/-- The text of a reply. -/
def Reply.text : Reply → String
  | .silence => ""
  | .single r => r.text
  | .batch rs => "[" ++ ",".intercalate (rs.map Response.text) ++ "]"

end LedgerBridge.Rpc
