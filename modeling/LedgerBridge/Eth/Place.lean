import LedgerBridge.Eth.Bloom
import LedgerBridge.Eth.Error
import LedgerBridge.Eth.Reply
import LedgerBridge.Ledger.Block
import LedgerBridge.Quantity

/-!
# Places in the chain

How what the ledger holds is shown to clients: every record names the block and the slot it was
found in.

* `BlockSummary.ofBlock` reads the header of a block; its data hash stands for its hash;
* `Place.log` and `Place.transaction` show an event and a transaction found at a place;
* `logsBloom` is the bloom of some events.
-/

namespace LedgerBridge.Eth

open Ledger (EventRecord EvmCall Decoded)

/-- A text behind the mark, which is there only once. -/
def remarked (s : String) : String := Hex.marked (Hex.bare s)

/-- The header of a block as it is shown. -/
structure BlockSummary where
  number : String
  hash : String
  parentHash : String
  deriving DecidableEq, Repr

/-- The summary of a block, which must have a header. -/
def BlockSummary.ofBlock (b : Ledger.Block) : Except ApiError BlockSummary := do
  let header ← checkDecode b.blockHeader
  return {
    number := Quantity.text header.number
    hash := Hex.ofBytes header.dataHash
    parentHash := Hex.ofBytes header.previousHash }

/-- The place of a transaction. -/
structure Place where
  block : BlockSummary
  /-- The hash of the transaction. -/
  hash : String
  /-- The position of its slot. -/
  index : String
  deriving DecidableEq, Repr

namespace Place

/-- The place of a transaction with an id in a slot of a block. -/
def ofSlot (block : BlockSummary) (txId : String) (slot : Nat) : Place where
  block := block
  hash := Hex.marked txId
  index := Quantity.text (UInt64.ofNat slot)

/-- The log of an event, given its position among all events of the transaction. -/
def log (p : Place) (event : EventRecord) (position : Nat) : Log where
  address := remarked event.address
  topics := event.topics.map remarked
  data := remarked event.data
  blockNumber := p.block.number
  transactionHash := p.hash
  transactionIndex := p.index
  blockHash := p.block.hash
  logIndex := Quantity.text (UInt64.ofNat position)

/-- The callee of a call as it is shown: deployments have none. -/
def calleeOf (c : EvmCall) : Option String :=
  if c.callee = "" ∨ c.isCreation then none else some (Hex.marked c.callee)

/-- The input of a call as it is shown. -/
def inputOf (c : EvmCall) : Option String :=
  if c.input = "" then none else some (Hex.marked c.input)

/-- The transaction at a place; only calls of the virtual machine have callee and input. -/
def transaction (p : Place) (t : Decoded) : Transaction where
  blockHash := p.block.hash
  blockNumber := p.block.number
  recipient := t.call.bind calleeOf
  input := t.call.bind inputOf
  transactionIndex := p.index
  hash := p.hash

end Place

/-- The values of an event that a bloom holds: its address and its topics, as far as they are
well formed. -/
def bloomValues (event : EventRecord) : List Bytes :=
  ((FixedHex.parse 20 event.address).toOption.map (·.bytes)).toList
    ++ event.topics.filterMap fun t => (FixedHex.parse 32 t).toOption.map (·.bytes)

/-- The bloom of some events. -/
def logsBloom (events : List EventRecord) : Bloom :=
  Bloom.empty.accrueAll (events.flatMap bloomValues)

end LedgerBridge.Eth
