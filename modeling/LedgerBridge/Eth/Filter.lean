import LedgerBridge.Eth.BlockRef
import LedgerBridge.Eth.Request

/-!
# Filters for logs

A query is checked and brought into the form of values once, before the ledger is asked anything.
Matching then compares values, so that neither case nor the mark of the chaincode's texts matters.

* `LogFilter.ofQuery` checks a query. Faults are found in this order: a block hash beside bounds;
  bounds that are no references; the earliest block as a bound; addresses, then topics, that are
  none; a block hash;
* `LogFilter.accepts` says which logs pass.
-/

namespace LedgerBridge.Eth

/-- The texts of a choice. -/
def Choice.alternatives : Choice → List String
  | .one s => [s]
  | .anyOf ss => ss

/-- The emitters that a log may have; none means any. -/
structure AddressFilter where
  addresses : List Address := []
  deriving DecidableEq

namespace AddressFilter

/-- The emitters that a query asks for. -/
def ofChoice (c : Choice) : Except ApiError AddressFilter :=
  (⟨·⟩) <$> c.alternatives.mapM fun s => checkHex (FixedHex.parse 20 s)

/-- Whether a log with this emitter passes. -/
def accepts (f : AddressFilter) (address : String) : Bool :=
  f.addresses.isEmpty || f.addresses.any (·.denotedBy address)

end AddressFilter

/-- The topics that a log may have at each position; none at a position means any. -/
structure TopicsFilter where
  positions : List (List Topic) := []
  deriving DecidableEq

namespace TopicsFilter

/-- The topics of some texts. -/
def parseTopics (ss : List String) : Except ApiError (List Topic) :=
  ss.mapM fun s => checkHex (FixedHex.parse 32 s)

/-- The topics that a query asks for at a position. In a list an empty text accepts any topic, but
the other texts of the list must still be topics. -/
def parsePosition : Option Choice → Except ApiError (List Topic)
  | none => .ok []
  | some (.one s) => parseTopics [s]
  | some (.anyOf ss) => do
    let topics ← parseTopics (ss.filter (· ≠ ""))
    return if "" ∈ ss then [] else topics

/-- The topics that a query asks for. -/
def ofPositions (ps : List (Option Choice)) : Except ApiError TopicsFilter :=
  (⟨·⟩) <$> ps.mapM parsePosition

/-- Whether a topic passes at a position. -/
def acceptsAt (alternatives : List Topic) (topic : String) : Bool :=
  alternatives.isEmpty || alternatives.any (·.denotedBy topic)

/-- Whether a log with these topics passes. It needs a topic at every position of the filter, at
those that accept any topic too. -/
def accepts (f : TopicsFilter) (topics : List String) : Bool :=
  f.positions.length ≤ topics.length && (f.positions.zip topics).all fun p => acceptsAt p.1 p.2

end TopicsFilter

/-- A checked query for logs. -/
structure LogFilter where
  fromBlock : BlockRef := .latest
  toBlock : BlockRef := .latest
  addresses : AddressFilter := {}
  topics : TopicsFilter := {}
  deriving DecidableEq

namespace LogFilter

/-- Whether a log passes both filters. -/
def acceptsLog (addresses : AddressFilter) (topics : TopicsFilter) (log : Ledger.EventRecord) :
    Bool :=
  addresses.accepts log.address && topics.accepts log.topics

/-- Whether a log passes. -/
def accepts (f : LogFilter) (log : Ledger.EventRecord) : Bool := acceptsLog f.addresses f.topics log

/-- The filter that a query asks for. -/
def ofQuery (q : LogQuery) : Except ApiError LogFilter := do
  if q.blockHash.isSome && (q.fromBlock.isSome || q.toBlock.isSome) then
    throw (.invalidParams "blockHash cannot be set at the same time as fromBlock or toBlock")
  let fromBlock ← BlockRef.parseOrLatest q.fromBlock
  let toBlock ← BlockRef.parseOrLatest q.toBlock
  if fromBlock = .earliest ∨ toBlock = .earliest then
    throw (.unimplemented "the earliest block cannot bound a log filter")
  let addresses ← q.address.elim (pure {}) AddressFilter.ofChoice
  let topics ← q.topics.elim (pure {}) TopicsFilter.ofPositions
  if q.blockHash.isSome then throw (.unimplemented "filtering logs by block hash")
  return { fromBlock, toBlock, addresses, topics }

end LogFilter

end LedgerBridge.Eth
