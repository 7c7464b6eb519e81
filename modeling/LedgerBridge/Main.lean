import LedgerBridge.Gateway.Answer
import LedgerBridge.Http.Wire
import LedgerBridge.Server
import LedgerBridge.Settings.File
import Std.Http

/-!
# The program

Reads the command line, the environment and the configuration file, and serves until it is stopped.
What it decides, the library decides; here bytes go in and out.
-/

namespace LedgerBridge.Program

open Std.Async (Async ContextAsync)
open Std.Async.TCP.Socket (Client)

/-! ### The ledger -/

/-- Everything that comes until the other side closes the connection. -/
partial def receiveAll (socket : Client) (before : ByteArray) : Async ByteArray := do
  match ← socket.recv? 65536 with
  | some chunk => receiveAll socket (before ++ chunk)
  | none => return before

/-- A port of an address. -/
def socketAddress (port : UInt16) : Std.Net.IPAddr → Std.Net.SocketAddress
  | .v4 ip => .v4 ⟨ip, port⟩
  | .v6 ip => .v6 ⟨ip, port⟩

/-- A connection to the first address that accepts one. -/
def connect (port : UInt16) : List Std.Net.IPAddr → Async Client
  | [] => throw (IO.userError "no address accepts a connection")
  | ip :: rest => do
    try
      let socket ← Client.mk
      socket.connect (socketAddress port ip)
      return socket
    catch _ => connect port rest

/-- Sends a request and reads the response. Only plain connections are made, and no redirect is
followed: a response that asks for one is given as it came. -/
def send (request : Http.Request) : Async (Option Http.Response) := do
  let some url := Url.parse? request.target | return none
  let some host := url.host | return none
  if url.scheme ≠ "http" then return none
  let authority := host ++ url.port.elim "" fun p => s!":{p}"
  let path := url.pathText ++ url.query.elim "" ("?" ++ ·)
  let port := url.port.getD 80
  let addresses ← Std.Async.DNS.getAddrInfo host (toString port)
  let socket ← connect (UInt16.ofNat port) addresses.toList
  socket.send (request.wire authority path).toByteArray
  return Http.Response.ofWire? (← receiveAll socket ByteArray.empty).toList

/-- What becomes of a request: the response, or none if it fails or takes too long. -/
def exchange (timeout : Settings.Duration) (request : Http.Request) :
    Async (Option Http.Response) := do
  let late : Async (Option Http.Response) := do
    Std.Async.sleep (Std.Time.Millisecond.Offset.ofNat timeout.milliseconds)
    return none
  try Std.Async.Async.race (send request) late catch _ => return none

/-! ### The server -/

/-- A server and the ledger behind it. -/
structure Service where
  server : Server
  ledger : Gateway.Client
  timeout : Settings.Duration
  /-- How many requests are being answered. -/
  connected : IO.Ref Nat

/-- The answer of the ledger to a question. -/
def Service.ask (service : Service) (c : Ledger.Call) : Async c.Answer := do
  let response ← match service.ledger.request? c with
    | some request => exchange service.timeout request
    | none => pure none
  return service.ledger.answers (fun _ => response) c

/-- The response to a request. -/
def Service.answer (service : Service) (request : Http.Request) : Async Http.Response := do
  let connected ← service.connected.modifyGet fun n => (n, n + 1)
  try (service.server.serve connected request).runWith service.ask
  finally service.connected.modify (· - 1)

/-- The headers of a request that came in. -/
def headersOf (head : Std.Http.Request.Head) : Http.Headers :=
  head.headers.toList.map fun h => (h.1.value, h.2.value)

/-- A response with headers, as far as they can be sent. -/
def withHeaders (response : Std.Http.Response.Builder) (headers : Http.Headers) :
    Std.Http.Response.Builder :=
  headers.foldl (fun r h => (r.header? h.1 h.2).getD r) response

/-- A response as it goes out. -/
def outgoing (r : Http.Response) : Async (Std.Http.Response Std.Http.Body.Full) := do
  let status := (Std.Http.Status.ofCode none (UInt16.ofNat r.status)).getD .internalServerError
  let body ← Std.Http.Body.Full.ofByteArray r.body.toByteArray
  return (withHeaders (Std.Http.Response.Builder.new.status status) r.headers).body body

instance : Std.Http.Server.Handler Service where
  onRequest service request := do
    let body : ByteArray ← request.body.readAll
    let response ← service.answer {
      method := toString request.line.method, target := toString request.line.uri
      headers := headersOf request.line, body := body.toList }
    return Std.Http.Body.instCoeResponseFullAny.coe (← outgoing response)

/-- Serves until the server is stopped. -/
def serve (settings : Settings) (service : Service) : Async Unit := do
  let ip := if settings.server.isExternal then Std.Net.IPv4Addr.ofParts 0 0 0 0
    else Std.Net.IPv4Addr.ofParts 127 0 0 1
  let running ← Std.Http.Server.serve (.v4 ⟨ip, settings.server.port⟩) service
    { maxBodySize := UInt32.size }
  running.waitShutdown

/-! ### Starting -/

/-- The variables of the environment that stand for arguments. -/
def environment : IO (List (String × String)) :=
  Settings.CommandLine.arguments.filterMapM fun a => do
    return (← IO.getEnv a.env).map (a.env, ·)

/-- The content of a file, if it exists. -/
def readFile (path : String) : IO (Option String) := do
  try return some (← IO.FS.readFile path)
  catch
    | .noFileOrDirectory .. => return none
    | e => throw e

/-- What a program that does not start says. -/
def usageText : Settings.UsageError → String
  | .unknownArgument => "error: unexpected argument found"
  | .argumentConflict => "error: an argument was given twice"
  | .invalidValue => "error: a value is missing, or is not one of the possible values"
  | .valueValidation => "error: a value is invalid"
  | .tooManyValues => "error: a flag takes no value"
  | .missingRequiredArgument => "error: the ledger url or a config file is required"
  | .displayHelp =>
    "Usage: evmgate [OPTIONS]\n" ++ String.join
      (Settings.CommandLine.arguments.map fun a => s!"\n      --{a.name}  [env: {a.env}]") ++ "\n"
  | .displayVersion => Settings.CommandLine.versionText

/-- Runs the program with settings. -/
def start (settings : Settings) : Except String (IO Unit) := do
  let config ← settings.gateway
  let ledger ← (Gateway.Client.ofConfig config).mapError (·.message)
  let server ← (Server.ofSettings settings).mapError (·.message)
  return do
    IO.println s!"Serving at http://{settings.address}, ledger at {config.url.text}"
    (← IO.getStdout).flush
    let connected ← IO.mkRef 0
    (serve settings ⟨server, ledger, settings.ledger.timeout, connected⟩).block

/-- Reports a failure. -/
def abort (message : String) (code : UInt32) : IO UInt32 := do
  IO.eprintln message
  return code

/-- Runs a command line. -/
def run (args : List String) : IO UInt32 := do
  match Settings.CommandLine.parse args (← environment) with
  | .error .displayHelp => IO.print (usageText .displayHelp); return 0
  | .error .displayVersion => IO.print (usageText .displayVersion); return 0
  | .error e => abort (usageText e) 2
  | .ok commandLine =>
    let content ← match commandLine.configFile with
      | some path => readFile path
      | none => pure none
    match (commandLine.load fun _ => content).mapError (·.message) >>= start with
    | .error e => abort ("Error: " ++ e) 1
    | .ok program => program; return 0

end LedgerBridge.Program

/-- The entry of the program. -/
def main (args : List String) : IO UInt32 := LedgerBridge.Program.run args
