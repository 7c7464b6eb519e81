import LedgerBridge.Eth.Chain
import LedgerBridge.Eth.Contract
import LedgerBridge.Eth.LogScan
import LedgerBridge.Rpc.Error
import LedgerBridge.Rpc.Name
import LedgerBridge.Rpc.Params

/-!
# The methods

Every method of the gateway under its key: it reads its parameters, runs, and writes its result.

* `methods` is the table, `method? key` looks a key up;
* `call?` is what becomes of a wire name with parameters.

A method reads its parameters before it asks the ledger anything.
-/

namespace LedgerBridge.Rpc

open Eth (ApiError CallRequest Config LogQuery Service)
open Ledger (Access)

/-- Why a call has no result. -/
inductive Fault where
  /-- The parameters are not what the method asks for. -/
  | params
  /-- The method failed. -/
  | api (e : ApiError)
  deriving DecidableEq, Repr

/-- The error object of a fault. -/
def Fault.object : Fault → ErrorObject
  | .params => .invalidParams
  | .api e => { code := e.code, message := e.message }

/-- The computation of a call. -/
abbrev Run : Type := ExceptT Fault Access Json

/-- A method of the gateway. -/
structure Method where
  key : String
  run : Config → (params : Option String) → Run

/-- The parameters that a method asks for. -/
def arguments {α : Type} (reader : Params.Reader α) (params : Option String) :
    ExceptT Fault Access α :=
  match Params.read reader params with
  | some a => return a
  | none => throw .params

/-- The result of a method, written as JSON. -/
def respond {α : Type} (write : α → Json) (reply : Service α) : Run :=
  write <$> ExceptT.adapt Fault.api reply

/-- Nothing but null may be given to a method without parameters. -/
def noArguments (params : Option String) : ExceptT Fault Access Unit := do
  if (← arguments (Params.optional Json.asKept?) params).isSome then
    throw (.api (.invalidParams "method takes no parameters"))

namespace Method

/-- A method whose only parameter is required. -/
def unary {α β : Type} (key : String) (read : Json → Option α) (write : β → Json)
    (f : Config → α → Service β) : Method where
  key := key
  run config params := do
    let a ← arguments (Params.required read) params
    respond write (f config a)

/-- A method with a required parameter and a block, which it does not need. -/
def unaryAtBlock {α β : Type} (key : String) (read : Json → Option α) (write : β → Json)
    (f : Config → α → Service β) : Method where
  key := key
  run config params := do
    let reader : Params.Reader α := do
      let a ← Params.required read
      let _ ← Params.optional Json.asKept?
      return a
    let a ← arguments reader params
    respond write (f config a)

/-- A method without parameters. -/
def nullary {β : Type} (key : String) (write : β → Json) (f : Config → Service β) : Method where
  key := key
  run config params := do
    noArguments params
    respond write (f config)

/-- The method that estimates gas: what it is given is read, but does not matter. -/
def estimateGas : Method where
  key := "eth.EstimateGas"
  run _ params := do
    let reader : Params.Reader Unit := do
      let _ ← Params.optional CallRequest.ofJson?
      let _ ← Params.optional Json.asKept?
    arguments reader params
    return .str Eth.estimateGas

/-- The method that gives a balance: its parameters are not looked at. -/
def getBalance : Method where
  key := "eth.GetBalance"
  run _ _ := return .str Eth.getBalance

/-- The method that gives a block. -/
def getBlockByNumber : Method where
  key := "eth.GetBlockByNumber"
  run _ params := do
    let reader : Params.Reader (String × Bool × Option Json) := do
      let block ← Params.required Json.asText?
      let full ← Params.required Json.asBool?
      let more ← Params.optional Json.asKept?
      return (block, full, more)
    let (block, full, more) ← arguments reader params
    if more.isSome then throw (.api (.invalidParams "expected a block and a boolean"))
    respond Eth.Block.toJson do
      let ref ← Service.check (Eth.BlockRef.parse block)
      Eth.getBlock ref full

end Method

/-- The JSON form of a list of logs. -/
def logsToJson (logs : List Eth.Log) : Json := .array (logs.map Eth.Log.toJson)

open Method in
/-- The table of methods. -/
def methods : List Method := [
  unaryAtBlock "eth.GetCode" Json.asText? .str Eth.getCode,
  unaryAtBlock "eth.Call" CallRequest.ofJson? .str Eth.call,
  unary "eth.SendTransaction" CallRequest.ofJson? .str Eth.sendTransaction,
  unary "eth.GetTransactionReceipt" Json.asText? Eth.Receipt.toJson fun _ => Eth.getReceipt,
  nullary "eth.Accounts" Eth.texts Eth.accounts,
  estimateGas,
  getBalance,
  getBlockByNumber,
  nullary "eth.BlockNumber" .str fun _ => Eth.blockNumber,
  unary "eth.GetTransactionByHash" Json.asText? Eth.Transaction.toJson fun _ => Eth.getTransaction,
  unary "eth.GetLogs" LogQuery.ofJson? logsToJson fun _ => Eth.getLogs,
  nullary "net.Version" .str fun config => pure config.networkId]

/-- The method with a key. -/
def method? (key : String) : Option Method := methods.find? (·.key == key)

/-- The call of the method that a wire name asks for. -/
def call? (config : Config) (wire : String) (params : Option String) : Option Run := do
  let m ← method? (← Name.key? wire)
  return m.run config params

end LedgerBridge.Rpc
