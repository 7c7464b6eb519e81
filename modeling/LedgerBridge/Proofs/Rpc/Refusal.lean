import LedgerBridge.Proofs.Eth.Refusal
import LedgerBridge.Rpc.Method

/-!
# Calls that are refused

The parameters of a call are read before the ledger is asked anything, so a call that is refused has
asked nothing. The one exception is a query for logs whose bounds turn out to be reversed.

* `RefusesFirst`: a run that has asked nothing when it is refused. Reading parameters comes first
  (`refusesFirst_arguments_bind`), then the method decides (`refusesFirst_respond`);
* `refusesFirst_of_mem`: so are the runs of all methods of the table but the one for logs;
* `refused_before_asking`: what has been asked when a call is refused, and which calls always are.
-/

namespace LedgerBridge.Rpc

open Eth (ApiError BlockRef Config LogQuery Service)
open Ledger (Access Session)

namespace Fault

/-- The fault refuses a call. -/
def IsRefusal (fault : Fault) : Prop := fault.object.code = ErrorObject.invalidParams.code

theorem isRefusal_api {e : ApiError} : (api e).IsRefusal ↔ e.IsRefusal := .rfl

end Fault

/-- When the call is refused, it has asked nothing. -/
def RefusesFirst (run : Run) : Prop :=
  ∀ (S : Session) (fault : Fault),
    run.run.valueIn S [] = .error fault → fault.IsRefusal → run.run.callsIn S [] = []

section Runs

variable {α β : Type} {S : Session} {config : Config} {params : Option String}

theorem arguments_of_read {reader : Params.Reader α} {a : α}
    (h : Params.read reader params = some a) : arguments reader params = pure a := by
  unfold arguments
  rw [h]

theorem arguments_of_read_none {reader : Params.Reader α}
    (h : Params.read reader params = none) : arguments reader params = throw .params := by
  unfold arguments
  rw [h]

/-- The result of a method is that of its reply, and it asks what its reply asks. -/
theorem run_respond (write : α → Json) (reply : Service α) :
    (respond write reply).run.valueIn S [] =
        (write <$> reply.outcomeIn S []).mapError Fault.api ∧
      (respond write reply).run.callsIn S [] = reply.callsIn S [] := by
  have hrun : (respond write reply).run =
      reply.run >>= fun outcome => pure ((write <$> outcome).mapError Fault.api) := by
    rw [respond, ExceptT.run_map]
    show Except.map write <$> (Except.mapError Fault.api <$> reply.run) = _
    rw [Functor.map_map, map_eq_pure_bind]
    refine bind_congr fun outcome => ?_
    cases outcome <;> rfl
  rw [hrun, Access.valueIn_bind, Access.callsIn_bind, Access.callsIn_pure, List.append_nil]
  exact ⟨rfl, rfl⟩

theorem refusesFirst_respond (write : α → Json) {reply : Service α} (h : reply.RefusesFirst) :
    RefusesFirst (respond write reply) := by
  intro S fault hvalue hrefusal
  obtain ⟨houtcome, hcalls⟩ := run_respond (S := S) write reply
  rw [houtcome] at hvalue
  obtain ⟨e, he, rfl⟩ := mapError_eq_error.1 hvalue
  rw [hcalls]
  exact h S [] e (map_eq_error.1 he) (Fault.isRefusal_api.1 hrefusal)

theorem refusesFirst_throw (fault : Fault) : RefusesFirst (throw fault) := fun _ _ _ _ => rfl

theorem refusesFirst_pure (result : Json) : RefusesFirst (pure result) := fun _ _ _ _ => rfl

theorem refusesFirst_arguments_bind {reader : Params.Reader α} {rest : α → Run}
    (h : ∀ a, RefusesFirst (rest a)) : RefusesFirst (arguments reader params >>= rest) := by
  cases hread : Params.read reader params with
  | none =>
    rw [arguments_of_read_none hread]
    exact refusesFirst_throw .params
  | some a =>
    rw [arguments_of_read hread, pure_bind]
    exact h a

theorem refusesFirst_unary {key : String} {read : Json → Option α} {write : β → Json}
    {f : Config → α → Service β} (hf : ∀ a, (f config a).RefusesFirst) :
    RefusesFirst ((Method.unary key read write f).run config params) :=
  refusesFirst_arguments_bind fun a => refusesFirst_respond write (hf a)

theorem refusesFirst_unaryAtBlock {key : String} {read : Json → Option α} {write : β → Json}
    {f : Config → α → Service β} (hf : ∀ a, (f config a).RefusesFirst) :
    RefusesFirst ((Method.unaryAtBlock key read write f).run config params) :=
  refusesFirst_arguments_bind fun a => refusesFirst_respond write (hf a)

theorem refusesFirst_nullary {key : String} {write : β → Json} {f : Config → Service β}
    (hf : (f config).RefusesFirst) :
    RefusesFirst ((Method.nullary key write f).run config params) := by
  show RefusesFirst (noArguments params >>= fun _ => respond write (f config))
  rw [noArguments, bind_assoc]
  refine refusesFirst_arguments_bind fun given => ?_
  split
  · exact refusesFirst_throw _
  · exact refusesFirst_respond write hf

theorem refusesFirst_getBlockByNumber :
    RefusesFirst (Method.getBlockByNumber.run config params) := by
  refine refusesFirst_arguments_bind fun given => ?_
  obtain ⟨block, full, more⟩ := given
  have hblock := refusesFirst_respond Eth.Block.toJson <|
    Service.refusesFirst_check_bind (y := BlockRef.parse block) fun ref =>
      (Eth.accepts_getBlock ref full).refusesFirst
  simp only
  split
  · exact refusesFirst_throw _
  · exact hblock

/-- The entry of the table for logs. -/
def getLogsMethod : Method :=
  .unary "eth.GetLogs" LogQuery.ofJson? logsToJson fun _ => Eth.getLogs

/-- **A refused call has asked nothing**, unless it asks for logs. -/
theorem refusesFirst_of_mem (config : Config) (params : Option String) {m : Method}
    (hm : m ∈ methods) : m = getLogsMethod ∨ RefusesFirst (m.run config params) := by
  simp only [methods, List.mem_cons, List.not_mem_nil, or_false] at hm
  rcases hm with rfl | rfl | rfl | rfl | rfl | rfl | rfl | rfl | rfl | rfl | rfl | rfl
  · exact .inr (refusesFirst_unaryAtBlock fun address =>
      (Eth.accepts_getCode config address).refusesFirst)
  · exact .inr (refusesFirst_unaryAtBlock (Eth.refusesFirst_call config))
  · exact .inr (refusesFirst_unary fun r => (Eth.accepts_sendTransaction config r).refusesFirst)
  · exact .inr (refusesFirst_unary fun hash => (Eth.accepts_getReceipt hash).refusesFirst)
  · exact .inr (refusesFirst_nullary (Eth.accepts_accounts config).refusesFirst)
  · exact .inr (refusesFirst_arguments_bind fun _ => refusesFirst_pure _)
  · exact .inr (refusesFirst_pure _)
  · exact .inr refusesFirst_getBlockByNumber
  · exact .inr (refusesFirst_nullary Eth.accepts_blockNumber.refusesFirst)
  · exact .inr (refusesFirst_unary Eth.refusesFirst_getTransaction)
  · exact .inl rfl
  · exact .inr (refusesFirst_nullary (Service.accepts_pure _).refusesFirst)

/-! ### Calls that are always refused -/

/-- What is read of the parameters of the method that gives a block. -/
def blockParameters : Params.Reader (String × Bool × Option Json) := do
  let block ← Params.required Json.asText?
  let full ← Params.required Json.asBool?
  let more ← Params.optional Json.asKept?
  return (block, full, more)

theorem run_getLogsMethod {q : LogQuery}
    (hread : Params.read (Params.required LogQuery.ofJson?) params = some q) :
    getLogsMethod.run config params = respond logsToJson (Eth.getLogs q) := by
  show arguments _ params >>= _ = _
  rw [arguments_of_read hread, pure_bind]

/-- A query for logs that is refused has asked nothing, or what its reversed bounds cost. -/
theorem refused_getLogsMethod {fault : Fault}
    (hvalue : (getLogsMethod.run config params).run.valueIn S [] = .error fault)
    (hrefusal : fault.IsRefusal) :
    (getLogsMethod.run config params).run.callsIn S [] = [] ∨
      ∃ q, Params.read (Params.required LogQuery.ofJson?) params = some q ∧
        q.ReversedAfter S ((getLogsMethod.run config params).run.callsIn S []) := by
  cases hread : Params.read (Params.required LogQuery.ofJson?) params with
  | none =>
    left
    show (arguments _ params >>= _ : Run).run.callsIn S [] = []
    rw [arguments_of_read_none hread]
    rfl
  | some q =>
    obtain ⟨houtcome, hcalls⟩ := run_respond (S := S) logsToJson (Eth.getLogs q)
    rw [run_getLogsMethod hread] at hvalue ⊢
    rw [houtcome] at hvalue
    obtain ⟨e, he, rfl⟩ := mapError_eq_error.1 hvalue
    rw [hcalls]
    have hasked := Eth.refused_getLogs (map_eq_error.1 he) (Fault.isRefusal_api.1 hrefusal)
    exact hasked.imp_right fun h => ⟨q, rfl, h⟩

/-- A query with a flaw is refused, unless it fails for a bound that is the earliest block. -/
theorem refused_of_hasFlaw {q : LogQuery}
    (hread : Params.read (Params.required LogQuery.ofJson?) params = some q) (h : q.HasFlaw) :
    (getLogsMethod.run config params).run.callsIn S [] = [] ∧
      ∃ fault, (getLogsMethod.run config params).run.valueIn S [] = .error fault ∧
        (fault.IsRefusal ∨ q.IsEarliest) := by
  obtain ⟨e, he, hrefusal⟩ := Eth.exists_error_of_hasFlaw h
  obtain ⟨hvalue, hcalls⟩ := run_respond (S := S) logsToJson (Eth.getLogs q)
  rw [run_getLogsMethod hread, hvalue, hcalls, Eth.getLogs, he]
  exact ⟨rfl, .api e, rfl, hrefusal⟩

/-- A text that is no block reference is refused, and so is a parameter too many. -/
theorem refused_of_parse {block : String} {full : Bool} {more : Option Json}
    (hread : Params.read blockParameters params = some (block, full, more))
    (h : ¬ (BlockRef.parse block).isOk ∨ more.isSome) :
    (Method.getBlockByNumber.run config params).run.callsIn S [] = [] ∧
      ∃ fault, (Method.getBlockByNumber.run config params).run.valueIn S [] = .error fault ∧
        fault.IsRefusal := by
  have hrun : Method.getBlockByNumber.run config params =
      if more.isSome then throw (.api (.invalidParams "expected a block and a boolean"))
      else respond Eth.Block.toJson
        (Service.check (BlockRef.parse block) >>= fun ref => Eth.getBlock ref full) := by
    show arguments blockParameters params >>= _ = _
    rw [arguments_of_read hread, pure_bind]
    cases more <;> rfl
  rw [hrun]
  by_cases hmore : more.isSome
  · rw [if_pos hmore]
    exact ⟨rfl, _, rfl, rfl⟩
  · rw [if_neg hmore]
    cases hblock : BlockRef.parse block with
    | ok ref => exact absurd (isOk_iff.2 ⟨ref, hblock⟩) (h.resolve_right hmore)
    | error e =>
      exact ⟨rfl, .api e, rfl, Eth.failsWith_parseOrLatest (some block) e hblock⟩

/-- **Refused calls never reach the ledger.** Whatever the parameters of a method of the table are
and whatever the ledger answers: when the call is refused, nothing has been asked, except that a
query for logs whose bounds are reversed may have asked for the height, twice at most. Refused, or
at least failed without a question, is every query with a flaw; refused is every call for a block by
a text that is no block reference. -/
theorem refused_before_asking (config : Config) (S : Session) (params : Option String) :
    (∀ m ∈ methods, ∀ fault, (m.run config params).run.valueIn S [] = .error fault →
      fault.IsRefusal →
      (m.run config params).run.callsIn S [] = [] ∨
      m.key = "eth.GetLogs" ∧
        (∃ q, Params.read (Params.required LogQuery.ofJson?) params = some q ∧
          q.ReversedAfter S ((m.run config params).run.callsIn S [])) ∧
        ((m.run config params).run.callsIn S []).length ≤ 2 ∧
        ∀ c ∈ (m.run config params).run.callsIn S [], c = .height) ∧
    (∀ m, method? "eth.GetLogs" = some m → ∀ q : LogQuery,
      Params.read (Params.required LogQuery.ofJson?) params = some q → q.HasFlaw →
      (m.run config params).run.callsIn S [] = [] ∧
        ∃ fault, (m.run config params).run.valueIn S [] = .error fault ∧
          (fault.IsRefusal ∨ q.IsEarliest)) ∧
    ∀ m, method? "eth.GetBlockByNumber" = some m → ∀ (block : String) (full : Bool)
      (more : Option Json), Params.read blockParameters params = some (block, full, more) →
      ¬ (BlockRef.parse block).isOk ∨ more.isSome →
      (m.run config params).run.callsIn S [] = [] ∧
        ∃ fault, (m.run config params).run.valueIn S [] = .error fault ∧ fault.IsRefusal := by
  refine ⟨fun m hm fault hvalue hrefusal => ?_, fun m hm q hread h => ?_,
    fun m hm block full more hread h => ?_⟩
  · rcases refusesFirst_of_mem config params hm with rfl | hfirst
    · refine (refused_getLogsMethod hvalue hrefusal).imp_right fun ⟨q, hread, h⟩ => ?_
      exact ⟨rfl, ⟨q, hread, h⟩, h.eq_height⟩
    · exact .inl (hfirst S fault hvalue hrefusal)
  · obtain rfl : getLogsMethod = m := Option.some.inj hm
    exact refused_of_hasFlaw hread h
  · obtain rfl : Method.getBlockByNumber = m := Option.some.inj hm
    exact refused_of_parse hread h

end Runs

theorem refused_before_asking_samples :
    (∀ c ∈ (getLogsMethod.run {} (some "[[\"latest\", \"0x0\"]]")).run.callsIn
        (fun _ => Ledger.answersOf Ledger.sampleChain) [], c = .height) ∧
    (getLogsMethod.run {} (some "[[null, null, [\"0x12\"]]]")).run.callsIn
        (fun _ => Ledger.answersOf Ledger.sampleChain) [] = [] ∧
    (Method.getBlockByNumber.run {} (some "[\"0xzz\", true]")).run.callsIn
        (fun _ => Ledger.answersOf Ledger.sampleChain) [] = [] := by
  refine ⟨?_, ?_, ?_⟩
  · have hread : Params.read (Params.required LogQuery.ofJson?)
        (some "[[\"latest\", \"0x0\"]]") =
        some { fromBlock := some "latest", toBlock := some "0x0" } := by
      decide +kernel
    have houtcome : (Eth.getLogs { fromBlock := some "latest", toBlock := some "0x0" }).outcomeIn
        (fun _ => Ledger.answersOf Ledger.sampleChain) [] =
        .error (.invalidParams "first block number greater than last block number") := by
      decide +kernel
    have hvalue : (getLogsMethod.run {} (some "[[\"latest\", \"0x0\"]]")).run.valueIn
        (fun _ => Ledger.answersOf Ledger.sampleChain) [] =
        .error (.api (.invalidParams "first block number greater than last block number")) := by
      rw [run_getLogsMethod hread, (run_respond _ _).1, houtcome]
      rfl
    rcases (refused_before_asking {} (fun _ => Ledger.answersOf Ledger.sampleChain) _).1
      getLogsMethod (List.mem_of_find?_eq_some (p := (·.key == "eth.GetLogs")) rfl) _ hvalue rfl
      with h | ⟨-, -, -, h⟩
    · simp [h]
    · exact h
  · refine ((refused_before_asking {} _ _).2.1 getLogsMethod rfl
      { address := some (.anyOf ["0x12"]) }
      (by decide +kernel) (.address rfl (List.mem_singleton.2 rfl) (by decide))).1
  · have hread : (Params.read blockParameters (some "[\"0xzz\", true]")).map
        (fun given => (given.1, given.2.1)) = some ("0xzz", true) := by
      decide +kernel
    obtain ⟨⟨block, full, more⟩, hread, hgiven⟩ := Option.map_eq_some_iff.1 hread
    obtain ⟨rfl, rfl⟩ := Prod.mk.inj hgiven
    exact ((refused_before_asking {} _ _).2.2 Method.getBlockByNumber rfl _ _ _ hread
      (.inl (by decide))).1

end LedgerBridge.Rpc
