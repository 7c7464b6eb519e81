import LedgerBridge.Json.Record

/-!
# Replies

The objects that clients receive: logs, receipts, transactions and blocks. All their values are
texts, already in the form that clients expect.

* each has `toJson` and `ofJson?`. An absent value is written null; in an object it may be left out;
* the transactions of a block are their hashes or whole records, told apart by what the list holds.
-/

namespace LedgerBridge.Eth

open Json.Record (text? optionalText?)

/-- The JSON form of a text that may be absent. -/
def textOrNull (t : Option String) : Json := t.elim .null .str

/-- The JSON form of a list of texts. -/
def texts (ts : List String) : Json := .array (ts.map .str)

/-- Members of a record whose list form is always complete. -/
def plainMembers (names : List String) : List Json.Member := names.map fun n => ⟨[n], false⟩

/-! ### Logs -/

/-- A log, as found in receipts and in answers to queries. -/
structure Log where
  address : String
  topics : List String
  data : String
  blockNumber : String
  transactionHash : String
  transactionIndex : String
  blockHash : String
  /-- The position of the log among all of its transaction. -/
  logIndex : String
  deriving DecidableEq, Repr

namespace Log

/-- The members of a log in JSON. -/
def members : List Json.Member :=
  plainMembers ["address", "topics", "data", "blockNumber", "transactionHash", "transactionIndex",
    "blockHash", "logIndex"]

/-- The log that a JSON value holds. -/
def ofJson? (j : Json) : Option Log := do
  let [address, topics, data, blockNumber, transactionHash, transactionIndex, blockHash, logIndex]
    ← Json.slots? members j | none
  return {
    address := ← text? address
    topics := ← Json.Record.required (Json.asList? Json.asText?) topics
    data := ← text? data
    blockNumber := ← text? blockNumber
    transactionHash := ← text? transactionHash
    transactionIndex := ← text? transactionIndex
    blockHash := ← text? blockHash
    logIndex := ← text? logIndex }

/-- The JSON form of a log. -/
def toJson (l : Log) : Json :=
  .record [
    ("address", .str l.address), ("topics", texts l.topics), ("data", .str l.data),
    ("blockNumber", .str l.blockNumber), ("transactionHash", .str l.transactionHash),
    ("transactionIndex", .str l.transactionIndex), ("blockHash", .str l.blockHash),
    ("logIndex", .str l.logIndex)]

end Log

/-! ### Receipts -/

/-- The receipt of a committed transaction. -/
structure Receipt where
  transactionHash : String
  transactionIndex : String
  blockHash : String
  blockNumber : String
  /-- Present only when the transaction deployed a contract. -/
  contractAddress : Option String
  gasUsed : String
  cumulativeGasUsed : String
  /-- Absent when the transaction deployed a contract. -/
  recipient : Option String
  logs : List Log
  logsBloom : String
  /-- `0x1` when the peers found the transaction valid, else `0x0`. -/
  status : String
  deriving DecidableEq, Repr

namespace Receipt

/-- The members of a receipt in JSON. -/
def members : List Json.Member :=
  plainMembers ["transactionHash", "transactionIndex", "blockHash", "blockNumber",
    "contractAddress", "gasUsed", "cumulativeGasUsed", "to", "logs", "logsBloom", "status"]

/-- The receipt that a JSON value holds. -/
def ofJson? (j : Json) : Option Receipt := do
  let [transactionHash, transactionIndex, blockHash, blockNumber, contractAddress, gasUsed,
    cumulativeGasUsed, recipient, logs, logsBloom, status] ← Json.slots? members j | none
  return {
    transactionHash := ← text? transactionHash
    transactionIndex := ← text? transactionIndex
    blockHash := ← text? blockHash
    blockNumber := ← text? blockNumber
    contractAddress := ← optionalText? contractAddress
    gasUsed := ← text? gasUsed
    cumulativeGasUsed := ← text? cumulativeGasUsed
    recipient := ← optionalText? recipient
    logs := ← Json.Record.required (Json.asList? Log.ofJson?) logs
    logsBloom := ← text? logsBloom
    status := ← text? status }

/-- The JSON form of a receipt. -/
def toJson (r : Receipt) : Json :=
  .record [
    ("transactionHash", .str r.transactionHash), ("transactionIndex", .str r.transactionIndex),
    ("blockHash", .str r.blockHash), ("blockNumber", .str r.blockNumber),
    ("contractAddress", textOrNull r.contractAddress), ("gasUsed", .str r.gasUsed),
    ("cumulativeGasUsed", .str r.cumulativeGasUsed), ("to", textOrNull r.recipient),
    ("logs", .array (r.logs.map Log.toJson)), ("logsBloom", .str r.logsBloom),
    ("status", .str r.status)]

end Receipt

/-! ### Transactions -/

/-- A transaction with its place in the chain. -/
structure Transaction where
  blockHash : String
  blockNumber : String
  recipient : Option String
  input : Option String
  transactionIndex : String
  hash : String
  deriving DecidableEq, Repr

namespace Transaction

/-- The members of a transaction in JSON. -/
def members : List Json.Member :=
  plainMembers ["blockHash", "blockNumber", "to", "input", "transactionIndex", "hash"]

/-- The transaction that a JSON value holds. -/
def ofJson? (j : Json) : Option Transaction := do
  let [blockHash, blockNumber, recipient, input, transactionIndex, hash] ←
    Json.slots? members j | none
  return {
    blockHash := ← text? blockHash
    blockNumber := ← text? blockNumber
    recipient := ← optionalText? recipient
    input := ← optionalText? input
    transactionIndex := ← text? transactionIndex
    hash := ← text? hash }

/-- The JSON form of a transaction. -/
def toJson (t : Transaction) : Json :=
  .record [
    ("blockHash", .str t.blockHash), ("blockNumber", .str t.blockNumber),
    ("to", textOrNull t.recipient), ("input", textOrNull t.input),
    ("transactionIndex", .str t.transactionIndex), ("hash", .str t.hash)]

end Transaction

/-! ### Blocks -/

/-- The transactions of a block. -/
inductive TransactionList where
  | hashes (hs : List String)
  | full (ts : List Transaction)
  deriving DecidableEq, Repr

namespace TransactionList

/-- The transactions that a JSON value holds. The value is kept before it is looked at, so that
nothing in it may be out of range, and it stands inside a record. -/
def ofJson? (j : Json) : Option TransactionList :=
  if j.isKept (Json.keptLevels - 1) then
    match j.asList? Json.asText? with
    | some hs => some (.hashes hs)
    | none => .full <$> j.asList? Transaction.ofJson?
  else none

/-- The JSON form of the transactions of a block. -/
def toJson : TransactionList → Json
  | .hashes hs => texts hs
  | .full ts => .array (ts.map Transaction.toJson)

end TransactionList

/-- A block. -/
structure Block where
  number : String
  hash : String
  parentHash : String
  transactions : TransactionList
  deriving DecidableEq, Repr

namespace Block

/-- The members of a block in JSON. -/
def members : List Json.Member := plainMembers ["number", "hash", "parentHash", "transactions"]

/-- The block that a JSON value holds. -/
def ofJson? (j : Json) : Option Block := do
  let [number, hash, parentHash, transactions] ← Json.slots? members j | none
  return {
    number := ← text? number
    hash := ← text? hash
    parentHash := ← text? parentHash
    transactions := ← Json.Record.required TransactionList.ofJson? transactions }

/-- The JSON form of a block. -/
def toJson (b : Block) : Json :=
  .record [
    ("number", .str b.number), ("hash", .str b.hash), ("parentHash", .str b.parentHash),
    ("transactions", b.transactions.toJson)]

end Block

end LedgerBridge.Eth
