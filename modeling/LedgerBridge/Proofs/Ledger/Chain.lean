import LedgerBridge.Proofs.Ledger.Commit

/-!
# Ledgers of committed chains

A chain is given by what the slots of its blocks were filled with. A ledger `Serves` it when it
answers with its height and with its serialized blocks; `answersOf` does (`serves_answersOf`).
-/

namespace LedgerBridge.Ledger

/-- The ledger serves the serialized blocks of a chain. -/
structure Serves (L : Answers) (chain : List (List (Content × UInt8))) : Prop where
  height : L .height = .ok (UInt64.ofNat chain.length)
  block (number : UInt64) (h : number.toNat < chain.length) :
    L (.block number) = Gateway.readBlock (blockBytes number chain[number.toNat])

/-- The id in the header of what a slot holds. -/
def Content.txId? : Content → Option String
  | .empty => none
  | .config txId => some txId
  | .endorsed txId _ _ _ => some txId

/-- A ledger that holds a chain and nothing else. -/
def answersOf (chain : List (List (Content × UInt8))) : Answers
  | .height => .ok (UInt64.ofNat chain.length)
  | .block number =>
    if h : number.toNat < chain.length then
      Gateway.readBlock (blockBytes number chain[number.toNat])
    else .error (.status "blocks" 404 "no such block")
  | .blockOf txId =>
    match chain.findIdx? fun slots => slots.any fun s => s.1.txId? = some txId with
    | some n => Gateway.readBlock (blockBytes (UInt64.ofNat n) (chain[n]?.getD []))
    | none => .error (.status "transactions" 404 "no such transaction")
  | .query .. => .error (.status "query" 404 "no such chaincode")
  | .execute .. => .error (.status "execute" 404 "no such chaincode")

theorem serves_answersOf (chain : List (List (Content × UInt8))) :
    Serves (answersOf chain) chain where
  height := rfl
  block _ h := dif_pos h

/-- A ledger that only looks blocks up, and finds all transactions in the first of them. -/
def answersOfLookup (lookup : UInt64 → Except AccessError Block) : Answers
  | .height => .error (.status "height" 404 "no height")
  | .block number => lookup number
  | .blockOf _ => lookup 0
  | .query .. => .error (.status "query" 404 "no such chaincode")
  | .execute .. => .error (.status "execute" 404 "no such chaincode")

/-- A ledger where all blocks hold a valid transaction with one log, and a rejected slot. -/
def answersWithRejected (raw : Bytes) : Answers :=
  answersOfLookup fun number =>
    .ok (.committed number [((Content.endorsed "a1" [] [] [⟨"0c", [], "01"⟩]).raw, 0), (raw, 11)])

/-- A chain with slots of all kinds: the second transaction of its last block is not valid. -/
def sampleChain : List (List (Content × UInt8)) :=
  [[(.config "genesis", 0)],
   [(.empty, 0),
    (.endorsed "a1" [] [] [⟨"0c", [], "01"⟩, ⟨"0c", ["0d"], ""⟩], 0),
    (.endorsed "a2" [] [] [], 11)]]

/-- A chain of one block, with a deployment and a call of the virtual machine. -/
def callChain : List (List (Content × UInt8)) :=
  [[(.endorsed "d1" [Utf8.encode "0000000000000000000000000000000000000000", Utf8.encode "6060"] []
      [], 0),
    (.empty, 0),
    (.endorsed "c1" [Utf8.encode "82373458164820947891abcdefabcdefabcdefab", Utf8.encode "a905"] []
      [], 0)]]

end LedgerBridge.Ledger
