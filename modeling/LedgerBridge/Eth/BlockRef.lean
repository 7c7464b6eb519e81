import LedgerBridge.Eth.Error
import LedgerBridge.Quantity

/-!
# Block references

A block is named by its number or by a tag.

* `BlockRef.parse` reads a reference; the mark in front is optional, for tags too;
* `BlockRef.parseOrLatest` reads one that may be left out.
-/

namespace LedgerBridge.Eth

/-- How a request names a block. -/
inductive BlockRef where
  | latest
  | earliest
  | pending
  | number (n : UInt64)
  deriving DecidableEq, Repr

namespace BlockRef

/-- The reference that a text spells. -/
def parse (s : String) : Except ApiError BlockRef :=
  let bare := Hex.bare s
  if bare = "latest" then .ok .latest
  else if bare = "earliest" then .ok .earliest
  else if bare = "pending" then .ok .pending
  else .number <$> checkHex (Quantity.parse bare)

/-- The reference of a request that may leave it out: the latest block. -/
def parseOrLatest : Option String → Except ApiError BlockRef
  | some s => parse s
  | none => .ok .latest

end BlockRef

end LedgerBridge.Eth
