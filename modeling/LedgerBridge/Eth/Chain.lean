import LedgerBridge.Eth.Place
import LedgerBridge.Eth.Service

/-!
# Blocks, transactions and receipts

* `blockNumber` is the number of the latest block, `getBlock` shows a block with its transactions;
* `getTransaction` and `getReceipt` find a transaction by its hash, which is its id behind the mark.
-/

namespace LedgerBridge.Eth

open Service (check blockAt findTransaction resolve)

/-- The number of the latest block. -/
def blockNumber : Service String := do
  return Quantity.text (← resolve .latest)

/-- The transactions of a block, whole. -/
def fullTransactions (summary : BlockSummary) (b : Ledger.Block) :
    Except ApiError (List Transaction) :=
  b.transactions.mapM fun (slot, raw) => do
    let t ← checkDecode (Ledger.decodeTransaction raw)
    return (Place.ofSlot summary t.txId slot).transaction t

/-- The hashes of the transactions of a block. -/
def transactionHashes (b : Ledger.Block) : Except ApiError (List String) :=
  b.transactions.mapM fun (_, raw) => do
    return Hex.marked (← checkDecode (Ledger.decodeChannelHeader raw)).txId

/-- A block as it is shown. -/
def showBlock (full : Bool) (b : Ledger.Block) : Except ApiError Block := do
  let summary ← BlockSummary.ofBlock b
  let transactions ←
    if full then TransactionList.full <$> fullTransactions summary b
    else TransactionList.hashes <$> transactionHashes b
  return {
    number := summary.number
    hash := summary.hash
    parentHash := summary.parentHash
    transactions := transactions }

/-- The block that a reference names. -/
def getBlock (ref : BlockRef) (full : Bool) : Service Block := do
  check (showBlock full (← blockAt (← resolve ref)))

/-- The transaction with a hash, which must not be empty. -/
def getTransaction (hash : String) : Service Transaction := do
  let txId := Hex.bare hash
  if txId = "" ∨ txId = "0x" then throw (.invalidParams "transaction hash is empty")
  let (block, slot, t) ← findTransaction txId
  let summary ← check (BlockSummary.ofBlock block)
  return (Place.ofSlot summary txId slot).transaction t

/-- What a receipt says about callee and deployed contract of a transaction. -/
def parties (t : Ledger.Decoded) : Except ApiError (Option String × Option String) :=
  match t.call with
  | some c =>
    if c.isCreation then
      match Utf8.decode? t.response with
      | some deployed => .ok (none, some (remarked deployed))
      | none => .error (.unmarshal "deployed contract address is not valid utf-8")
    else .ok (some (Hex.marked c.callee), none)
  | none => .ok (none, none)

/-- The receipt of the transaction found in a slot of a block. -/
def receiptOf (txId : String) (block : Ledger.Block) (slot : Nat) (t : Ledger.Decoded) :
    Except ApiError Receipt := do
  let summary ← BlockSummary.ofBlock block
  let place := Place.ofSlot summary txId slot
  let valid ← checkDecode (block.isValid slot)
  let (recipient, contractAddress) ← parties t
  let events ← checkEvents (Ledger.decodeEvents t.events)
  return {
    transactionHash := place.hash
    transactionIndex := place.index
    blockHash := summary.hash
    blockNumber := summary.number
    contractAddress := contractAddress
    gasUsed := "0x0"
    cumulativeGasUsed := "0x0"
    recipient
    logs := events.zipIdx.map fun (event, position) => place.log event position
    logsBloom := (logsBloom events).text
    status := if valid then "0x1" else "0x0" }

/-- The receipt of the transaction with a hash. -/
def getReceipt (hash : String) : Service Receipt := do
  let txId := Hex.bare hash
  let (block, slot, t) ← findTransaction txId
  check (receiptOf txId block slot t)

end LedgerBridge.Eth
