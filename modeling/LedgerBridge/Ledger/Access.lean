import LedgerBridge.Http.Status
import LedgerBridge.Ledger.Message

/-!
# Access to the ledger

What the gateway can ask of the ledger, and computations that ask. A computation is a value: it
is done, or it asks one question and goes on with the answer. So the questions that a computation
asks of a given ledger are as much a function of it as its result.

* `Access.value L` and `Access.calls L` give the result and the questions for a ledger `L`;
* `Access.runWith` asks a ledger that answers by effects;
* `value_bind` and `calls_bind`: a sequence of two computations asks the questions of the first,
  then those of the second.
-/

namespace LedgerBridge.Ledger

/-- What is left of a transaction that was committed. -/
structure Invocation where
  transactionId : String
  payload : Bytes
  deriving DecidableEq, Repr

/-- Why the ledger gives no answer. -/
inductive AccessError where
  /-- No response was received; `cause` says how far the request came. -/
  | transport (endpoint cause : String)
  /-- The response reports a failure. -/
  | status (endpoint : String) (code : Nat) (body : String)
  /-- The response does not hold what was asked for. -/
  | invalidResponse (endpoint problem : String)
  /-- The response should be a block. -/
  | block (e : Protobuf.DecodeError)
  deriving DecidableEq, Repr

/-- The wording of an access error. -/
def AccessError.message : AccessError → String
  | .transport endpoint cause => s!"Request to {endpoint} failed: {cause}"
  | .status endpoint code body =>
    s!"Ledger gateway answered {Http.Status.text code} on {endpoint}: {body}"
  | .invalidResponse endpoint problem => s!"Malformed response from {endpoint}: {problem}"
  | .block e => s!"Failed to decode block: {e.message}"

/-- A question to the ledger. -/
inductive Call where
  /-- Evaluate a function of a chaincode and commit nothing. -/
  | query (chaincode function : String) (args : List Bytes)
  /-- Invoke a function of a chaincode and wait until the transaction is committed. -/
  | execute (chaincode function : String) (args : List Bytes)
  /-- The number of blocks. -/
  | height
  /-- The block with a number. -/
  | block (number : UInt64)
  /-- The block that holds a transaction. -/
  | blockOf (txId : String)
  deriving DecidableEq, Repr

/-- What the answer to a question holds. -/
abbrev Call.Reply : Call → Type
  | .query .. => Bytes
  | .execute .. => Invocation
  | .height => UInt64
  | .block _ => Block
  | .blockOf _ => Block

/-- The answer to a question. -/
abbrev Call.Answer (c : Call) : Type := Except AccessError c.Reply

/-- A ledger that always answers a question alike. -/
abbrev Answers : Type := (c : Call) → c.Answer

/-- A computation that asks questions of the ledger. -/
inductive Access (α : Type) : Type where
  | done (a : α)
  | ask (c : Call) (next : c.Answer → Access α)

namespace Access

variable {α β : Type}

/-- One computation, then another one that depends on its result. -/
def bind : Access α → (α → Access β) → Access β
  | .done a, f => f a
  | .ask c next, f => .ask c fun answer => (next answer).bind f

instance : Monad Access where
  pure := .done
  bind := bind

/-- The computation that asks one question. -/
def call (c : Call) : Access c.Answer := .ask c .done

/-- The result on a ledger. -/
def value (L : Answers) : Access α → α
  | .done a => a
  | .ask c next => (next (L c)).value L

/-- The questions asked of a ledger, in order. -/
def calls (L : Answers) : Access α → List Call
  | .done _ => []
  | .ask c next => c :: (next (L c)).calls L

/-- The computation on a ledger that answers by effects. -/
def runWith {m : Type → Type} [Monad m] (answer : (c : Call) → m c.Answer) : Access α → m α
  | .done a => pure a
  | .ask c next => do runWith answer (next (← answer c))

theorem bind_done (x : Access α) : x.bind .done = x := by
  induction x with
  | done a => rfl
  | ask c next ih => simp [bind, ih]

theorem bind_assoc {γ : Type} (x : Access α) (f : α → Access β) (g : β → Access γ) :
    (x.bind f).bind g = x.bind fun a => (f a).bind g := by
  induction x with
  | done a => rfl
  | ask c next ih => simp [bind, ih]

instance : LawfulMonad Access := LawfulMonad.mk' Access bind_done (fun _ _ => rfl) bind_assoc

@[simp] theorem value_pure (L : Answers) (a : α) : (pure a : Access α).value L = a := rfl

@[simp] theorem calls_pure (L : Answers) (a : α) : (pure a : Access α).calls L = [] := rfl

@[simp] theorem value_call (L : Answers) (c : Call) : (call c).value L = L c := rfl

@[simp] theorem calls_call (L : Answers) (c : Call) : (call c).calls L = [c] := rfl

@[simp] theorem value_bind (L : Answers) (x : Access α) (f : α → Access β) :
    (x >>= f).value L = (f (x.value L)).value L := by
  change (x.bind f).value L = _
  induction x with
  | done a => rfl
  | ask c next ih => exact ih (L c)

@[simp] theorem calls_bind (L : Answers) (x : Access α) (f : α → Access β) :
    (x >>= f).calls L = x.calls L ++ (f (x.value L)).calls L := by
  change (x.bind f).calls L = _
  induction x with
  | done a => rfl
  | ask c next ih => exact congrArg (c :: ·) (ih (L c))

end Access

end LedgerBridge.Ledger
