import LedgerBridge.Ledger.Envelope

/-!
# Blocks

The slots of a block and what the peers noted about them. A slot's position counts all slots, the
empty ones too, and is the position of its validation code.

* `Block.transactions` lists the slots that are not empty, with their positions;
* `Block.validationCode` and `Block.isValid` look at the noted codes;
* `Block.findTransaction` finds a transaction by its id. Only the headers of the slots in front of
  it are read.
-/

namespace LedgerBridge.Ledger.Block

/-- The header, which every accessor of it needs. -/
def blockHeader (b : Block) : Except DecodeError BlockHeader :=
  match b.header with
  | some h => .ok h
  | none => .error .missingBlockHeader

/-- All slots. -/
def slots (b : Block) : List Bytes := (b.data.map (·.data)).getD []

/-- The slots that hold an envelope, with their positions. -/
def transactions (b : Block) : List (Nat × Bytes) :=
  (b.slots.zipIdx.map Prod.swap).filter fun p => p.2 ≠ []

/-- The validation codes of the slots. -/
def validationCodes (b : Block) : Bytes :=
  ((b.metadata.map (·.metadata)).bind (·[validationCodesIndex]?)).getD []

/-- The code that the peers noted for a slot. -/
def validationCode (b : Block) (slot : Nat) : Except DecodeError UInt8 :=
  match b.validationCodes[slot]? with
  | some code => .ok code
  | none => .error (.missingValidationCode slot)

/-- Whether the peers found the transaction in a slot valid. -/
def isValid (b : Block) (slot : Nat) : Except DecodeError Bool :=
  (· == validCode) <$> b.validationCode slot

/-- The transaction with an id among some slots. -/
def findAmong (id : String) : List (Nat × Bytes) → Except DecodeError (Option (Nat × Decoded))
  | [] => .ok none
  | (slot, raw) :: rest => do
    let header ← decodeChannelHeader raw
    if header.txId = id then return some (slot, ← decodeTransaction raw)
    else findAmong id rest

/-- The transaction with an id, and the position of its slot. -/
def findTransaction (b : Block) (id : String) : Except DecodeError (Option (Nat × Decoded)) :=
  findAmong id b.transactions

end LedgerBridge.Ledger.Block
