import LedgerBridge.Json.Record

/-!
# Requests

The objects that clients send: the call of a contract and the query for logs. Every member may be
left out or null, and nothing is checked here but the kinds of the values.

* `CallRequest.ofJson?` and `CallRequest.toJson` read and write a call;
* `LogQuery.ofJson?` and `LogQuery.toJson` read and write a query; where one text or a list of them
  may stand, it holds a `Choice`.
-/

namespace LedgerBridge.Eth

open Json.Record (optionalText?)

/-- A member that is written only if it is there. -/
def memberIfPresent (name : String) : Option Json → List (String × Json)
  | some j => [(name, j)]
  | none => []

/-! ### Calls -/

/-- A message call or a transaction, of which only callee and data reach the ledger. -/
structure CallRequest where
  recipient : Option String := none
  sender : Option String := none
  gas : Option String := none
  gasPrice : Option String := none
  value : Option String := none
  data : Option String := none
  nonce : Option String := none
  deriving DecidableEq, Repr

namespace CallRequest

/-- The members of a call in JSON; the data may be called input. -/
def members : List Json.Member :=
  [⟨["to"], true⟩, ⟨["from"], true⟩, ⟨["gas"], true⟩, ⟨["gasPrice"], true⟩, ⟨["value"], true⟩,
   ⟨["data", "input"], true⟩, ⟨["nonce"], true⟩]

/-- The call that a JSON value holds. -/
def ofJson? (j : Json) : Option CallRequest := do
  let [recipient, sender, gas, gasPrice, value, data, nonce] ← Json.slots? members j | none
  return {
    recipient := ← optionalText? recipient
    sender := ← optionalText? sender
    gas := ← optionalText? gas
    gasPrice := ← optionalText? gasPrice
    value := ← optionalText? value
    data := ← optionalText? data
    nonce := ← optionalText? nonce }

/-- The JSON form of a call. -/
def toJson (r : CallRequest) : Json :=
  .record
    (memberIfPresent "to" (r.recipient.map .str) ++ memberIfPresent "from" (r.sender.map .str)
      ++ memberIfPresent "gas" (r.gas.map .str) ++ memberIfPresent "gasPrice" (r.gasPrice.map .str)
      ++ memberIfPresent "value" (r.value.map .str) ++ memberIfPresent "data" (r.data.map .str)
      ++ memberIfPresent "nonce" (r.nonce.map .str))

/-- The callee; an empty one is none. -/
def callee (r : CallRequest) : Option String := r.recipient.filter (· ≠ "")

/-- The data of the call, which may be empty. -/
def input (r : CallRequest) : String := r.data.getD ""

end CallRequest

/-! ### Queries for logs -/

/-- One text, or any of several. -/
inductive Choice where
  | one (s : String)
  | anyOf (ss : List String)
  deriving DecidableEq, Repr

/-- The choice that a JSON value holds. -/
def Choice.ofJson? : Json → Option Choice
  | .text t => .one <$> t
  | j => .anyOf <$> j.asList? Json.asText?

/-- The JSON form of a choice. -/
def Choice.toJson : Choice → Json
  | .one s => .str s
  | .anyOf ss => .array (ss.map .str)

/-- A query for logs. -/
structure LogQuery where
  fromBlock : Option String := none
  toBlock : Option String := none
  address : Option Choice := none
  /-- A position without a choice accepts any topic. -/
  topics : Option (List (Option Choice)) := none
  blockHash : Option String := none
  deriving DecidableEq, Repr

namespace LogQuery

/-- The members of a query in JSON. -/
def members : List Json.Member :=
  [⟨["fromBlock"], true⟩, ⟨["toBlock"], true⟩, ⟨["address"], true⟩, ⟨["topics"], true⟩,
   ⟨["blockHash", "blockhash"], true⟩]

/-- The positions of a topic filter. -/
def positionsOfJson? : Json → Option (List (Option Choice)) :=
  Json.asList? (Json.asOptional? Choice.ofJson?)

/-- The query that a JSON value holds. -/
def ofJson? (j : Json) : Option LogQuery := do
  let [fromBlock, toBlock, address, topics, blockHash] ← Json.slots? members j | none
  return {
    fromBlock := ← optionalText? fromBlock
    toBlock := ← optionalText? toBlock
    address := ← Json.Record.orElse (Json.asOptional? Choice.ofJson?) none address
    topics := ← Json.Record.orElse (Json.asOptional? positionsOfJson?) none topics
    blockHash := ← optionalText? blockHash }

/-- The JSON form of the positions of a topic filter. -/
def positionsToJson (positions : List (Option Choice)) : Json :=
  .array (positions.map fun p => p.elim .null Choice.toJson)

/-- The JSON form of a query. -/
def toJson (q : LogQuery) : Json :=
  .record
    (memberIfPresent "fromBlock" (q.fromBlock.map .str)
      ++ memberIfPresent "toBlock" (q.toBlock.map .str)
      ++ memberIfPresent "address" (q.address.map Choice.toJson)
      ++ memberIfPresent "topics" (q.topics.map positionsToJson)
      ++ memberIfPresent "blockHash" (q.blockHash.map .str))

end LogQuery

end LedgerBridge.Eth
