import LedgerBridge.Settings

/-!
# The command line

Settings are given as arguments, `--name value` or `--name=value`, or in the environment, which
counts only where there is no argument.

* `CommandLine.parse args env` reads both. The first fault in the order of reading is reported;
  the value of an argument is looked at only when the next argument is, so that one which is
  unknown is reported first;
* a setting may be given once; a value that looks like an argument is none.
-/

namespace LedgerBridge.Settings

/-- Why a command line is not run. -/
inductive UsageError where
  | unknownArgument
  /-- An argument is given twice. -/
  | argumentConflict
  /-- A value is missing, or none of those that are possible. -/
  | invalidValue
  /-- A value cannot be read. -/
  | valueValidation
  /-- A flag has a value. -/
  | tooManyValues
  | missingRequiredArgument
  /-- The help text is asked for. -/
  | displayHelp
  /-- The version is asked for. -/
  | displayVersion
  deriving DecidableEq, Repr

/-- What a command line sets. -/
structure CommandLine where
  settings : Settings := {}
  /-- The path of the configuration file. -/
  configFile : Option String := none
  deriving DecidableEq, Repr

namespace CommandLine

/-- The name and the version of the program. -/
def versionText : String := "evmgate 0.8.0\n"

/-- What becomes of a command line when a setting has a value. -/
abbrev Setter : Type := String → CommandLine → Except UsageError CommandLine

/-- An argument. -/
structure Argument where
  /-- Its name, without the dashes. -/
  name : String
  /-- The environment variable that stands for it. -/
  env : String
  /-- Whether it is a flag, which has no value on the command line. -/
  isFlag : Bool := false
  set : Setter

/-! ### Values -/

/-- A setter for what a text is read as. -/
def setter {α : Type} (fault : UsageError) (read : String → Option α)
    (put : α → CommandLine → CommandLine) : Setter := fun s c =>
  match read s with
  | some a => .ok (put a c)
  | none => .error fault

/-- The number below a bound that a text spells: digits behind a sign, if there is one. -/
def readBelow (bound : Nat) (s : String) : Option Nat :=
  let (negative, digits) := match s.toList with
    | '-' :: r => (true, r)
    | '+' :: r => (false, r)
    | cs => (false, cs)
  if digits ≠ [] ∧ digits.all Char.isDigit then
    let n := digits.foldl (fun n c => n * 10 + (c.toNat - '0'.toNat)) 0
    if n < bound ∧ (negative → n = 0) then some n else none
  else none

/-- A truth value. -/
def readBool (s : String) : Option Bool :=
  if s = "true" then some true else if s = "false" then some false else none

/-- A path, which must not be empty. -/
def readPath (s : String) : Option String := if s = "" then none else some s

/-- A change of the ledger settings. -/
def onLedger {α : Type} (put : α → LedgerPart → LedgerPart) (a : α) (c : CommandLine) :
    CommandLine :=
  { c with settings := { c.settings with ledger := put a c.settings.ledger } }

/-- A change of the server settings. -/
def onServer {α : Type} (put : α → ServerPart → ServerPart) (a : α) (c : CommandLine) :
    CommandLine :=
  { c with settings := { c.settings with server := put a c.settings.server } }

/-- The arguments, in the order in which the environment is looked at. -/
def arguments : List Argument := [
  { name := "ledger-url", env := "EVMGATE_LEDGER_URL"
    set := setter .valueValidation Url.parse? (onLedger fun u p => { p with url := some u }) },
  { name := "channel", env := "EVMGATE_CHANNEL"
    set := setter .valueValidation some (onLedger fun s p => { p with channel := s }) },
  { name := "chaincode", env := "EVMGATE_CHAINCODE"
    set := setter .valueValidation some (onLedger fun s p => { p with chaincode := s }) },
  { name := "ledger-user", env := "EVMGATE_LEDGER_USER"
    set := setter .valueValidation some (onLedger fun s p => { p with user := s }) },
  { name := "ledger-org", env := "EVMGATE_LEDGER_ORG"
    set := setter .valueValidation some (onLedger fun s p => { p with org := s }) },
  { name := "ledger-timeout", env := "EVMGATE_LEDGER_TIMEOUT"
    set := setter .valueValidation (fun s => (Duration.parse s).toOption)
      (onLedger fun d p => { p with timeout := d }) },
  { name := "rpc-external", env := "EVMGATE_RPC_EXTERNAL", isFlag := true
    set := setter .invalidValue readBool (onServer fun b p => { p with isExternal := b }) },
  { name := "rpc-port", env := "EVMGATE_RPC_PORT"
    set := setter .valueValidation (readBelow UInt16.size)
      (onServer fun n p => { p with port := UInt16.ofNat n }) },
  { name := "rpc-max-request-size", env := "EVMGATE_RPC_MAX_REQUEST_SIZE"
    set := setter .valueValidation (readBelow UInt32.size)
      (onServer fun n p => { p with maxRequestSize := UInt32.ofNat n }) },
  { name := "rpc-max-response-size", env := "EVMGATE_RPC_MAX_RESPONSE_SIZE"
    set := setter .valueValidation (readBelow UInt32.size)
      (onServer fun n p => { p with maxResponseSize := UInt32.ofNat n }) },
  { name := "rpc-max-connections", env := "EVMGATE_RPC_MAX_CONNECTIONS"
    set := setter .valueValidation (readBelow UInt32.size)
      (onServer fun n p => { p with maxConnections := UInt32.ofNat n }) },
  { name := "rpc-cors", env := "EVMGATE_RPC_CORS"
    set := setter .valueValidation (fun s => some (Cors.parse s))
      (onServer fun v p => { p with cors := v }) },
  { name := "network-id", env := "EVMGATE_NETWORK_ID"
    set := setter .valueValidation some (onServer fun s p => { p with networkId := s }) },
  { name := "log-format", env := "EVMGATE_LOG_FORMAT"
    set := setter .invalidValue LogFormat.ofText?
      fun f c => { c with settings := { c.settings with logFormat := f } } },
  { name := "config-file", env := "EVMGATE_CONFIG_FILE"
    set := setter .invalidValue readPath fun p c => { c with configFile := some p } }]

/-! ### Reading -/

/-- Where the reader stands. -/
structure Reading where
  result : CommandLine := {}
  /-- The names of the arguments that were given. -/
  given : List String := []
  /-- The argument in front, whose value is still to be looked at. -/
  pending : Option (Argument × Option String) := none

namespace Reading

/-- The state after an argument with its value. -/
def give (st : Reading) (a : Argument) (value : String) : Except UsageError Reading :=
  if st.given.contains a.name then .error .argumentConflict
  else do return { result := ← a.set value st.result, given := a.name :: st.given }

/-- The state after the argument in front. -/
def settle (st : Reading) : Except UsageError Reading :=
  match st.pending with
  | none => .ok st
  | some (_, none) => .error .invalidValue
  | some (a, some value) => ({ st with pending := none } : Reading).give a value

/-- The state after an argument of the environment. -/
def giveEnv (st : Reading) (env : List (String × String)) (a : Argument) :
    Except UsageError Reading :=
  if st.given.contains a.name then .ok st
  else match env.lookup a.env with
    | some value => st.give a value
    | none => .ok st

end Reading

/-- The name of an argument, and the value behind an equals sign. -/
def splitLong (cs : List Char) : String × Option String :=
  let name := String.ofList (cs.takeWhile (· ≠ '='))
  match cs.dropWhile (· ≠ '=') with
  | [] => (name, none)
  | _ :: value => (name, some (String.ofList value))

/-- The state after an argument behind two dashes. -/
def readLong (st : Reading) (cs : List Char) : Except UsageError Reading :=
  let (name, value) := splitLong cs
  let asked (e : UsageError) : Except UsageError Reading :=
    if value.isSome then .error .tooManyValues else do let _ ← st.settle; .error e
  if name = "help" then asked .displayHelp
  else if name = "version" then asked .displayVersion
  else match arguments.find? (·.name == name) with
    | none => .error .unknownArgument
    | some a =>
      if a.isFlag then
        if value.isSome then .error .tooManyValues else do (← st.settle).give a "true"
      else match value with
        | some value => do (← st.settle).give a value
        | none => do return { ← st.settle with pending := some (a, none) }

/-- The state after letters behind one dash. -/
def readShort (st : Reading) : List Char → Except UsageError Reading
  | 'h' :: _ => do let _ ← st.settle; .error .displayHelp
  | 'V' :: _ => do let _ ← st.settle; .error .displayVersion
  | _ => .error .unknownArgument

/-- The state after a value, which belongs to the argument in front of it. -/
def readValue (st : Reading) (value : String) : Except UsageError Reading :=
  match st.pending with
  | some (a, none) => .ok { st with pending := some (a, some value) }
  | _ => .error .unknownArgument

/-- The state after all arguments. Behind two dashes alone there may be none. -/
def readAll (st : Reading) : List String → Except UsageError Reading
  | [] => st.settle
  | s :: r =>
    match s.toList with
    | ['-', '-'] => if r = [] then st.settle else .error .unknownArgument
    | '-' :: '-' :: cs => do readAll (← readLong st cs) r
    | '-' :: c :: cs => do readAll (← readShort st (c :: cs)) r
    | _ => do readAll (← readValue st s) r

/-- What arguments and environment set. -/
def parse (args : List String) (env : List (String × String)) : Except UsageError CommandLine := do
  let st ← readAll {} args
  let st ← arguments.foldlM (·.giveEnv env ·) st
  if st.result.settings.ledger.url.isNone && st.result.configFile.isNone then
    throw .missingRequiredArgument
  return st.result

end CommandLine

end LedgerBridge.Settings
