import LedgerBridge.Eth.Service
import LedgerBridge.Gateway.Client
import LedgerBridge.Settings.Cors
import LedgerBridge.Settings.Duration
import LedgerBridge.Settings.Tree

/-!
# Settings

What an operator can set, with the values that hold if nothing is set.

* `Settings.toTree` and `Settings.ofTree?` write settings as a tree, with durations, origins and
  the URL as texts, and read them back;
* `Settings.override` lays a configuration file over settings: what the file sets wins, all else
  stays;
* `Settings.gateway` and `Settings.methods` are the parts that the rest of the library needs.
-/

namespace LedgerBridge

open Settings (Cors Duration Tree)

namespace Settings

/-- How log lines are written. -/
inductive LogFormat where
  | pretty
  | json
  deriving DecidableEq, Repr

/-- Where the ledger is, and who asks it. -/
structure LedgerPart where
  url : Option Url := none
  channel : String := "mychannel"
  chaincode : String := "evmcc"
  user : String := "User1"
  org : String := "Org1"
  timeout : Duration := .ofSeconds 30
  deriving DecidableEq, Repr

/-- Where and how requests are served. -/
structure ServerPart where
  /-- Whether other machines may connect. -/
  isExternal : Bool := false
  port : UInt16 := 5000
  /-- The greatest size of a request, in mebibytes. -/
  maxRequestSize : UInt32 := 15
  /-- The greatest size of a response, in mebibytes. -/
  maxResponseSize : UInt32 := 15
  maxConnections : UInt32 := 100
  cors : Cors := .all
  networkId : String := "0x6661627269632d65766d"
  deriving DecidableEq, Repr

end Settings

/-- All settings. -/
structure Settings where
  ledger : Settings.LedgerPart := {}
  server : Settings.ServerPart := {}
  logFormat : Settings.LogFormat := .pretty
  deriving DecidableEq, Repr

namespace Settings

/-! ### As a tree -/

/-- The name of a log format. -/
def LogFormat.text : LogFormat → String
  | .pretty => "pretty"
  | .json => "json"

/-- The log format with a name. -/
def LogFormat.ofText? (s : String) : Option LogFormat :=
  if s = "pretty" then some .pretty else if s = "json" then some .json else none

/-- The log format that a tree holds: its name, or its position. -/
def LogFormat.ofTree? : Tree → Option LogFormat
  | .text s => LogFormat.ofText? s
  | .integer 0 => some .pretty
  | .integer 1 => some .json
  | _ => none

namespace LedgerPart

/-- The names of the ledger settings. -/
def names : List String :=
  ["ledger_url", "channel", "chaincode", "ledger_user", "ledger_org", "ledger_timeout"]

/-- The ledger settings as a tree. -/
def toTree (p : LedgerPart) : Tree :=
  .section [
    ("ledger_url", p.url.elim .empty fun u => .text u.text), ("channel", .text p.channel),
    ("chaincode", .text p.chaincode), ("ledger_user", .text p.user), ("ledger_org", .text p.org),
    ("ledger_timeout", .text p.timeout.text)]

/-- The URL that a tree holds, if it holds one. -/
def urlOfTree? : Tree → Option (Option Url)
  | .empty => some none
  | t => (t.asText?.bind Url.parse?).map some

/-- The duration that a tree holds. -/
def durationOfTree? (t : Tree) : Option Duration :=
  t.asText?.bind fun s => (Duration.parse s).toOption

/-- The ledger settings that a tree holds. -/
def ofTree? (t : Tree) : Option LedgerPart := do
  let [url, channel, chaincode, user, org, timeout] ← t.members? names | none
  return {
    url := ← urlOfTree? url
    channel := ← channel.asText?
    chaincode := ← chaincode.asText?
    user := ← user.asText?
    org := ← org.asText?
    timeout := ← durationOfTree? timeout }

end LedgerPart

namespace ServerPart

/-- The names of the server settings. -/
def names : List String :=
  ["rpc_external", "rpc_port", "rpc_max_request_size", "rpc_max_response_size",
   "rpc_max_connections", "rpc_cors", "network_id"]

/-- A natural number as a tree. -/
def natTree (n : Nat) : Tree := .integer n

/-- The server settings as a tree. -/
def toTree (p : ServerPart) : Tree :=
  .section [
    ("rpc_external", .bool p.isExternal), ("rpc_port", natTree p.port.toNat),
    ("rpc_max_request_size", natTree p.maxRequestSize.toNat),
    ("rpc_max_response_size", natTree p.maxResponseSize.toNat),
    ("rpc_max_connections", natTree p.maxConnections.toNat), ("rpc_cors", .text p.cors.text),
    ("network_id", .text p.networkId)]

/-- The server settings that a tree holds. -/
def ofTree? (t : Tree) : Option ServerPart := do
  let [isExternal, port, maxRequestSize, maxResponseSize, maxConnections, cors, networkId]
    ← t.members? names | none
  return {
    isExternal := ← isExternal.asBool?
    port := UInt16.ofNat (← port.asBelow? UInt16.size)
    maxRequestSize := UInt32.ofNat (← maxRequestSize.asBelow? UInt32.size)
    maxResponseSize := UInt32.ofNat (← maxResponseSize.asBelow? UInt32.size)
    maxConnections := UInt32.ofNat (← maxConnections.asBelow? UInt32.size)
    cors := Cors.parse (← cors.asText?)
    networkId := ← networkId.asText? }

end ServerPart

/-- The names of the sections. -/
def names : List String := ["ledger_params", "rpc_params", "log_format"]

/-- The settings as a tree. -/
def toTree (s : Settings) : Tree :=
  .section [
    ("ledger_params", s.ledger.toTree), ("rpc_params", s.server.toTree),
    ("log_format", .text s.logFormat.text)]

/-- The settings that a tree holds. -/
def ofTree? (t : Tree) : Option Settings := do
  let [ledger, server, logFormat] ← t.members? names | none
  return {
    ledger := ← LedgerPart.ofTree? ledger
    server := ← ServerPart.ofTree? server
    logFormat := ← LogFormat.ofTree? logFormat }

/-- Settings with a configuration file laid over them. -/
def override (s : Settings) (file : Tree) : Option Settings := ofTree? (file.onto s.toTree)

/-! ### Parts -/

/-- The settings of the methods. -/
def methods (s : Settings) : Eth.Config where
  chaincode := s.ledger.chaincode
  networkId := s.server.networkId

/-- The settings of the ledger gateway, which need a URL. -/
def gateway (s : Settings) : Except String Gateway.Config :=
  match s.ledger.url with
  | some url =>
    .ok { url, channel := s.ledger.channel, user := s.ledger.user, org := s.ledger.org }
  | none => .error "The ledger url is required, set it with \x60--ledger-url\x60"

/-- The address that the server listens at. -/
def address (s : Settings) : String :=
  (if s.server.isExternal then "0.0.0.0" else "127.0.0.1") ++ s!":{s.server.port.toNat}"

end Settings

end LedgerBridge
