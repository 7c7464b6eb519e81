import LedgerBridge.Eth.Chain
import LedgerBridge.Eth.Contract
import LedgerBridge.Eth.LogScan
import LedgerBridge.Proofs.Eth.Session

/-!
# Methods that only read

Which questions a method may ask, whatever it is answered.

* `Access.Asks kind x`: all questions that the computation `x` can come to are of a kind. It follows
  the steps of the computation (`Asks.bind`, `Asks.exceptBind`), and then all questions of a session
  are of the kind (`Asks.of_mem_callsIn`);
* a question `Reads` unless it commits an invocation. All methods but the one that sends
  transactions ask only such questions.
-/

namespace LedgerBridge

namespace Ledger

/-- The question commits an invocation. -/
def Call.isExecute : Call → Bool
  | .execute .. => true
  | _ => false

/-- The question changes nothing. -/
def Call.Reads (c : Call) : Prop := c.isExecute = false

namespace Access

variable {α β ε : Type} {kind : Call → Prop}

/-- Whatever it is answered, the computation asks only questions of a kind. -/
inductive Asks (kind : Call → Prop) : Access α → Prop
  | done (a : α) : Asks kind (.done a)
  | ask {c : Call} {next : c.Answer → Access α} (hc : kind c)
      (hnext : ∀ answer, Asks kind (next answer)) : Asks kind (.ask c next)

namespace Asks

theorem bind {x : Access α} {f : α → Access β} (hx : x.Asks kind) (hf : ∀ a, (f a).Asks kind) :
    (x >>= f).Asks kind := by
  change (x.bind f).Asks kind
  induction hx with
  | done a => exact hf a
  | ask hc _ ih => exact .ask hc ih

theorem map {x : Access α} (hx : x.Asks kind) (g : α → β) : (g <$> x).Asks kind := by
  rw [map_eq_pure_bind]
  exact hx.bind fun a => .done (g a)

theorem of_mem_callsIn {x : Access α} (hx : x.Asks kind) {S : Session} {asked : List Call}
    {c : Call} (hc : c ∈ x.callsIn S asked) : kind c := by
  induction hx generalizing asked with
  | done a => cases hc
  | ask hkind _ ih =>
    rcases List.mem_cons.1 hc with rfl | hc
    · exact hkind
    · exact ih _ hc

/-! ### Computations that may fail -/

theorem exceptPure (a : α) : (pure a : ExceptT ε Access α).run.Asks kind := .done _

theorem exceptThrow (e : ε) : (throw e : ExceptT ε Access α).run.Asks kind := .done _

theorem exceptBind {x : ExceptT ε Access α} {f : α → ExceptT ε Access β} (hx : x.run.Asks kind)
    (hf : ∀ a, (f a).run.Asks kind) : (x >>= f).run.Asks kind := by
  refine hx.bind fun outcome => ?_
  cases outcome with
  | ok a => exact hf a
  | error e => exact .done _

theorem exceptMap {x : ExceptT ε Access α} (hx : x.run.Asks kind) (g : α → β) :
    (g <$> x).run.Asks kind := by
  rw [map_eq_pure_bind]
  exact exceptBind hx fun a => exceptPure (g a)

theorem exceptAdapt {ε' : Type} {x : ExceptT ε Access α} (hx : x.run.Asks kind) (g : ε → ε') :
    (ExceptT.adapt g x).run.Asks kind :=
  hx.map _

end Asks

end Access

end Ledger

/-! ### Methods -/

namespace Eth

open Ledger (Call)
open Ledger.Access (Asks)
open Ledger.Access.Asks (exceptBind exceptMap exceptPure exceptThrow)

namespace Service

variable {α : Type} {kind : Call → Prop}

theorem asks_check (x : Except ApiError α) : (check x).run.Asks kind := .done _

theorem asks_ask (failed : String → ApiError) {c : Call} (hc : kind c) :
    (ask failed c).run.Asks kind := by
  refine .ask hc fun answer => ?_
  cases answer <;> exact .done _

theorem asks_resolve (ref : BlockRef) : (resolve ref).run.Asks Call.Reads := by
  cases ref with
  | latest =>
    refine exceptBind (asks_ask _ rfl) fun n => ?_
    split
    · exact exceptThrow _
    · exact exceptPure _
  | earliest => exact exceptPure _
  | pending => exact exceptThrow _
  | number n => exact exceptPure _

theorem asks_findTransaction (txId : String) : (findTransaction txId).run.Asks Call.Reads := by
  refine exceptBind (asks_ask _ rfl) fun block => ?_
  refine exceptBind (asks_check _) fun found => ?_
  split
  · exact exceptPure _
  · exact exceptThrow _

end Service

open Service (asks_ask asks_check asks_findTransaction asks_resolve)

theorem asks_getCode (config : Config) (address : String) :
    (getCode config address).run.Asks Call.Reads :=
  exceptBind (asks_ask _ rfl) fun _ => exceptPure _

theorem asks_accounts (config : Config) : (accounts config).run.Asks Call.Reads :=
  exceptBind (asks_ask _ rfl) fun _ => exceptPure _

theorem asks_call (config : Config) (r : CallRequest) :
    (call config r).run.Asks Call.Reads := by
  unfold call
  split
  · exact exceptBind (asks_ask _ rfl) fun _ => exceptPure _
  · exact exceptThrow _

theorem asks_blockNumber : blockNumber.run.Asks Call.Reads :=
  exceptBind (asks_resolve _) fun _ => exceptPure _

theorem asks_getBlock (ref : BlockRef) (full : Bool) :
    (getBlock ref full).run.Asks Call.Reads :=
  exceptBind (asks_resolve _) fun _ => exceptBind (asks_ask _ rfl) fun _ => asks_check _

theorem asks_getTransaction (hash : String) : (getTransaction hash).run.Asks Call.Reads := by
  rw [getTransaction]
  split
  · exact exceptThrow _
  · refine exceptBind (asks_findTransaction _) fun found => ?_
    exact exceptBind (asks_check _) fun _ => exceptPure _

theorem asks_getReceipt (hash : String) : (getReceipt hash).run.Asks Call.Reads :=
  exceptBind (asks_findTransaction _) fun _ => asks_check _

/-- By induction on the blocks that are left. -/
theorem asks_scan (f : LogFilter) (count : Nat) (first : UInt64) :
    (scan f count first).run.Asks Call.Reads := by
  induction count generalizing first with
  | zero => exact exceptPure _
  | succ count ih =>
    refine exceptBind (asks_ask _ rfl) fun block => ?_
    refine exceptBind (asks_check _) fun logs => ?_
    exact exceptBind (ih _) fun _ => exceptPure _

theorem asks_getLogs (q : LogQuery) : (getLogs q).run.Asks Call.Reads := by
  refine exceptBind (asks_check _) fun f => ?_
  refine exceptBind (asks_resolve _) fun first => ?_
  refine exceptBind (asks_resolve _) fun last => ?_
  split
  · exact exceptThrow _
  · exact asks_scan f _ first

end Eth

end LedgerBridge
