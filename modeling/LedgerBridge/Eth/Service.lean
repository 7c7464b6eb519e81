import LedgerBridge.Eth.BlockRef
import LedgerBridge.Ledger.Access
import LedgerBridge.Ledger.Block

/-!
# Questions of the methods

The computations of the methods: they ask the ledger and may fail with an `ApiError`. Here are the
questions they ask, with the error that a failure of the ledger becomes.

* `resolve` turns a block reference into a number; only the latest block costs a question.
-/

namespace LedgerBridge.Eth

open Ledger (Access Call Invocation AccessError)

/-- What an operator sets for the methods. -/
structure Config where
  /-- The chaincode of the virtual machine. -/
  chaincode : String := "evmcc"
  /-- The network id, by default the hexadecimal form of a name. -/
  networkId : String := "0x6661627269632d65766d"
  deriving DecidableEq, Repr

/-- A computation of a method. -/
abbrev Service (α : Type) : Type := ExceptT ApiError Access α

namespace Service

variable {α : Type}

/-- The answer to a question, with the error that its failure becomes. -/
def ask (failed : String → ApiError) (c : Call) : Service c.Reply :=
  ExceptT.mk do
    match ← Access.call c with
    | .ok reply => return .ok reply
    | .error e => return .error (failed e.message)

/-- A check that needs no ledger. -/
def check (x : Except ApiError α) : Service α := ExceptT.mk (pure x)

/-- Evaluates a function of the chaincode. -/
def query (config : Config) (function : String) (args : List Bytes) : Service Bytes :=
  ask .ledgerQuery (.query config.chaincode function args)

/-- Commits an invocation of the chaincode. -/
def execute (config : Config) (function : String) (args : List Bytes) : Service Invocation :=
  ask .ledgerExecute (.execute config.chaincode function args)

/-- The number of blocks. -/
def height : Service UInt64 := ask .ledgerQuery .height

/-- The block with a number. -/
def blockAt (number : UInt64) : Service Ledger.Block := ask .ledgerQuery (.block number)

/-- The block that holds a transaction, its slot, and what it says. -/
def findTransaction (txId : String) : Service (Ledger.Block × Nat × Ledger.Decoded) := do
  let block ← ask .ledgerQuery (.blockOf txId)
  match ← check (checkDecode (Ledger.Block.findTransaction block txId)) with
  | some (slot, transaction) => return (block, slot, transaction)
  | none => throw .transactionNotFound

/-- The number of the block that a reference names. The latest block is the one below the height;
without blocks there is none. -/
def resolve : BlockRef → Service UInt64
  | .latest => do
    let h ← height
    if h = 0 then throw .noBlocks else return h - 1
  | .earliest => return 0
  | .pending =>
    throw (.unimplemented
      "the ledger does not have the concept of in-progress blocks being visible.")
  | .number n => return n

end Service

end LedgerBridge.Eth
