import LedgerBridge.Rpc.Response
import LedgerBridge.Rpc.Route

/-!
# Exchanges

From the bytes that a client sends to the reply that it gets.

* `Request.answer` answers a request;
* `answerSingle` answers the bytes of one message, `answerBatch` those of a batch;
* `answer?` tells the two apart by the first mark and refuses what starts with neither.

The messages of a batch are answered in order, and when their responses no longer fit the limit, the
messages behind are not run at all.
-/

namespace LedgerBridge.Rpc

open Eth (Config)
open Ledger (Access)

/-- The answer to a request. What a method or the list of methods says has to fit the limit. -/
def Request.answer (config : Config) (limit : Nat) (r : Request) : Access Response :=
  match Route.ofName r.method with
  | .method m => do
    let outcome ← (m.run config r.params).run
    return Response.within limit ⟨r.id, outcome.mapError Fault.object⟩
  | .directory => return Response.within limit ⟨r.id, .ok directory⟩
  | .unknown => return .failure r.id .methodNotFound
  | .keyless =>
    return .failure r.id { ErrorObject.methodNotFound with data := some (.str r.method) }

/-! ### One message -/

/-- The reply to the bytes of one message. -/
def answerSingle (config : Config) (limit : Nat) (s : Bytes) : Access Reply :=
  match Message.read s with
  | .request r => .single <$> r.answer config limit
  | .notification => return .silence
  | .invalid (some id) => return .single (.failure id .invalidRequest)
  | .invalid none => return .single (.failure .null .parseError)

/-! ### Batches -/

/-- The response to one message of a batch, if it wants one. -/
def Message.answer (config : Config) (limit : Nat) : Message → Access (Option Response)
  | .request r => some <$> r.answer config limit
  | .notification => return none
  | .invalid id => return some (.failure (id.getD .null) .invalidRequest)

/-- The responses to the messages of a batch behind `written` bytes of the reply, or nothing as soon
as they are too long. Each takes one byte more than its text. -/
def answerEach (config : Config) (limit : Nat) :
    (written : Nat) → List Bytes → Access (Option (List Response))
  | _, [] => return some []
  | written, s :: rest => do
    match ← (Message.read s).answer config limit with
    | none => answerEach config limit written rest
    | some r =>
      let written := written + r.size + 1
      if written ≤ limit then
        return (← answerEach config limit written rest).map (r :: ·)
      else return none

/-- The reply to the bytes of a batch. -/
def answerBatch (config : Config) (limit : Nat) (s : Bytes) : Access Reply :=
  match Json.splitArray? s with
  | none => return .single (.failure .null .parseError)
  | some [] => return .single (.failure .null .invalidRequest)
  | some (m :: ms) => do
    match ← answerEach config limit 1 (m :: ms) with
    | none => return .single (.failure .null (.batchTooBig limit))
    | some [] => return .silence
    | some (r :: rs) => return .batch (r :: rs)

/-! ### Telling them apart -/

/-- White space in front of a message: that of ASCII. -/
def isLeadingSpace (b : UInt8) : Bool :=
  b = 0x20 || b = 0x09 || b = 0x0a || b = 0x0c || b = 0x0d

/-- How far into a text its first mark may stand. -/
def markReach : Nat := 128

/-- The reply to some bytes, which start with the mark of an object or a list. -/
def answer? (config : Config) (limit : Nat) (s : Bytes) : Option (Access Reply) :=
  let space := s.takeWhile isLeadingSpace
  if markReach ≤ space.length then none
  else
    let rest := s.drop space.length
    match rest with
    | 0x7b :: _ => some (answerSingle config limit rest)
    | 0x5b :: _ => some (answerBatch config limit rest)
    | _ => none

end LedgerBridge.Rpc
