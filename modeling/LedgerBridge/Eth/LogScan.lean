import LedgerBridge.Eth.Filter
import LedgerBridge.Eth.Place
import LedgerBridge.Eth.Service

/-!
# Scans for logs

A query for logs goes through its range of blocks, one after the other, and through the slots of
each. Transactions that the peers found invalid had no effect, and so have no logs.

* `slotLogs`, `blockLogs` and `scan` collect the logs of a slot, a block and a range, in the order
  of blocks, slots and emission;
* `getLogs` checks the query, resolves its bounds and scans. A failure anywhere fails the query.
-/

namespace LedgerBridge.Eth

open Service (check blockAt resolve)

/-- The logs of the events of a transaction that pass a filter. The position of a log counts all
events of its transaction. -/
def eventLogs (filter : LogFilter) (place : Place) (events : List Ledger.EventRecord) : List Log :=
  (events.zipIdx.filter fun p => filter.accepts p.1).map fun p => place.log p.1 p.2

/-- The logs of the transaction in a slot. -/
def slotLogs (filter : LogFilter) (block : Ledger.Block) (summary : BlockSummary) (slot : Nat)
    (raw : Bytes) : Except ApiError (List Log) := do
  if ← checkDecode (block.isValid slot) then
    let t ← checkDecode (Ledger.decodeTransaction raw)
    let events ← checkEvents (Ledger.decodeEvents t.events)
    return eventLogs filter (Place.ofSlot summary t.txId slot) events
  else return []

/-- The logs of a block. -/
def blockLogs (filter : LogFilter) (block : Ledger.Block) : Except ApiError (List Log) := do
  let summary ← BlockSummary.ofBlock block
  let logs ← block.transactions.mapM fun (slot, raw) => slotLogs filter block summary slot raw
  return logs.flatten

/-- The logs of `count` blocks, of which `number` is the first. -/
def scan (filter : LogFilter) : (count : Nat) → (number : UInt64) → Service (List Log)
  | 0, _ => return []
  | count + 1, number => do
    let logs ← check (blockLogs filter (← blockAt number))
    return logs ++ (← scan filter count (number + 1))

/-- The logs that a query asks for; both its bounds are included. -/
def getLogs (q : LogQuery) : Service (List Log) := do
  let filter ← check (LogFilter.ofQuery q)
  let first ← resolve filter.fromBlock
  let last ← resolve filter.toBlock
  if first > last then
    throw (.invalidParams "first block number greater than last block number")
  scan filter (last.toNat - first.toNat + 1) first

end LedgerBridge.Eth
