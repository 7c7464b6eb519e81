import LedgerBridge.Eth.Request
import LedgerBridge.Eth.Service
import LedgerBridge.Text.Case

/-!
# Contracts and accounts

The methods that reach the chaincode: the callee is the name of the function, the data its only
argument, both without the mark.

* `getCode` and `accounts` show what the chaincode answers as text, whatever its bytes are;
* `call` evaluates, `sendTransaction` commits; only the latter may deploy a contract.
-/

namespace LedgerBridge.Eth

open Service (query execute)

/-- The name of the function that knows the account of the gateway's identity. -/
def accountFunction : String := "account"

/-- The bytes of a hexadecimal text without the mark, as arguments have them. -/
def argument (s : String) : Bytes := Utf8.encode (Hex.bare s)

/-- The code at an address, exactly as the chaincode stores it. -/
def getCode (config : Config) (address : String) : Service String := do
  return Utf8.lossy (← query config Ledger.getCodeFunction [argument address])

/-- The accounts of the gateway: the only one is that of the identity it signs with. -/
def accounts (config : Config) : Service (List String) := do
  return [Hex.marked (Case.lowerText (Utf8.lossy (← query config accountFunction [])))]

/-- The result of a message call, which changes nothing. -/
def call (config : Config) (r : CallRequest) : Service String := do
  match r.callee with
  | some callee => return Hex.ofBytes (← query config (Hex.bare callee) [argument r.input])
  | none => throw (.invalidParams "eth_call requires a \x60to\x60 address")

/-- The function that a transaction invokes: its callee, or the zero address to deploy. -/
def functionOf (r : CallRequest) : String :=
  match r.callee with
  | some callee => Hex.bare callee
  | none => (FixedHex.zero 20).digits

/-- Commits a transaction, and gives its id. -/
def sendTransaction (config : Config) (r : CallRequest) : Service String := do
  return (← execute config (functionOf r) [argument r.input]).transactionId

/-- An estimate of the gas of a transaction: gas is not metered. -/
def estimateGas : String := "0x0"

/-- The balance of an account: there is no currency. -/
def getBalance : String := "0x0"

end LedgerBridge.Eth
