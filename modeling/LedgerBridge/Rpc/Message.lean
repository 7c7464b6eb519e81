import LedgerBridge.Json.Record

/-!
# Messages

What a client sends: a request, which wants a response, or a notification, which wants none.

* `Message.read s` tells what the bytes of one message are.

The parts of a message are read no further than they are needed: the parameters of a request stay
text, and a notification is not asked what it has beside its members. So an object whose `id` cannot
be one is still a notification, if the rest of it is.
-/

namespace LedgerBridge.Rpc

/-- What a client recognises the response to a request by. -/
inductive Id where
  | null
  | number (n : UInt64)
  | text (s : String)
  deriving DecidableEq, Repr

namespace Id

/-- The JSON form of an id. -/
def toJson : Id → Json
  | .null => .null
  | .number n => .nat n.toNat
  | .text s => .str s

/-- The id that a value is. -/
def ofJson? : Json → Option Id
  | .null => some .null
  | .text t => t.map .text
  | j => j.asUInt64?.map .number

@[simp] theorem ofJson?_toJson (id : Id) : ofJson? id.toJson = some id := by
  cases id with
  | null => rfl
  | text s => rfl
  | number n => simp [toJson, ofJson?, Json.asUInt64?, n.toNat_lt]

end Id

/-- A call of a method. -/
structure Request where
  id : Id
  method : String
  /-- The text of the parameters, if there are any. -/
  params : Option String := none
  deriving DecidableEq, Repr

/-- What a client sends. -/
inductive Message where
  | request (r : Request)
  | notification
  /-- Neither; with the id, if there is one that can be read. -/
  | invalid (id : Option Id)
  deriving DecidableEq, Repr

namespace Message

/-- Whether a value names the version of the protocol. -/
def isVersion (v : Bytes) : Bool := (Json.parse? v).bind Json.asText? == some "2.0"

/-- The version, which must be the one that is spoken. -/
def version? (v : Bytes) : Option Unit := if isVersion v then some () else none

/-- The id that the bytes of a value spell. -/
def id? (v : Bytes) : Option Id := (Json.parse? v).bind Id.ofJson?

/-- The name of a method that the bytes of a value spell. -/
def method? (v : Bytes) : Option String := (Json.parse? v).bind Json.asText?

/-- The text of parameters; null stands for none. -/
def params? (v : Bytes) : Option (Option String) :=
  match Json.parse? v with
  | some .null => some none
  | _ => (Utf8.decode? v).map some

/-- The request that a record is. -/
def request? (shape : Json.Shape Bytes) : Option Request := do
  let [version, id, method, params] ← Json.Record.slots
    [{ names := ["jsonrpc"] }, { names := ["id"] }, { names := ["method"] },
      { names := ["params"] }] shape | none
  let () ← Json.Record.required version? version
  return {
    id := ← Json.Record.required id? id
    method := ← Json.Record.required method? method
    params := ← Json.Record.orElse params? none params }

/-- The parts of the notification that a record is. -/
def notification? (shape : Json.Shape Bytes) : Option (String × Option String) := do
  let [version, method, params] ← Json.Record.slots
    [{ names := ["jsonrpc"] }, { names := ["method"] }, { names := ["params"] }] shape | none
  let () ← Json.Record.required version? version
  return (← Json.Record.required method? method, ← Json.Record.orElse params? none params)

/-- The id of a record that need have nothing else. -/
def lone? (shape : Json.Shape Bytes) : Option Id := do
  let [id] ← Json.Record.slots [{ names := ["id"] }] shape | none
  Json.Record.required id? id

/-- What a record is. -/
def ofShape (shape : Json.Shape Bytes) : Message :=
  match request? shape with
  | some r => .request r
  | none => if (notification? shape).isSome then .notification else .invalid (lone? shape)

/-- What the bytes of a message are. -/
def read (s : Bytes) : Message := (Json.splitShape? s).elim (.invalid none) ofShape

end Message

end LedgerBridge.Rpc
