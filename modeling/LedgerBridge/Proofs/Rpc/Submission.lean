import LedgerBridge.Proofs.Eth.ReadOnly
import LedgerBridge.Rpc.Exchange

/-!
# What requests submit

Of all that requests ask of the ledger, only invocations cannot be taken back.

* `Request.submission?` is the invocation that a request asks for;
* `asks_answer`: a request for any other method only reads, and `executes_answer`: a request
  commits its submission, if it has one, and nothing else;
* `executes_answerAll`: neither do requests one after the other, whatever the ledger answers.
-/

namespace LedgerBridge.Rpc

open Eth (CallRequest Config Service)
open Ledger (Access Call Session)
open Ledger.Access (Asks)
open Ledger.Access.Asks (exceptAdapt exceptBind exceptMap exceptPure exceptThrow)

/-! ### Submissions -/

/-- The invocation that a call object stands for. Callee and data lose the mark, unless it stands
alone; in place of a callee that is left out or empty there are forty zeros. -/
def submissionOf (config : Config) (r : CallRequest) : Call :=
  let callee := r.recipient.getD ""
  let zeros := String.ofList (List.replicate 40 '0')
  .execute config.chaincode (if callee = "" then zeros else Hex.bare callee)
    [Utf8.encode (Hex.bare (r.data.getD ""))]

/-- The invocation that a request asks for: its name leads to the method that sends transactions,
and its first parameter is a call object. -/
def Request.submission? (config : Config) (r : Request) : Option Call :=
  if Name.key? r.method = some "eth.SendTransaction" then
    (Params.read (Params.required CallRequest.ofJson?) r.params).map (submissionOf config)
  else none

theorem submissionOf_eq (config : Config) (r : CallRequest) : submissionOf config r =
    .execute config.chaincode (Eth.functionOf r) [Eth.argument r.input] := by
  have hfunction : Eth.functionOf r =
      if r.recipient.getD "" = "" then String.ofList (List.replicate 40 '0')
      else Hex.bare (r.recipient.getD "") := by
    rw [Eth.functionOf, CallRequest.callee]
    cases r.recipient with
    | none => rfl
    | some callee =>
      by_cases hempty : callee = ""
      · subst hempty
        rfl
      · simp only [Option.filter_some, ne_eq, hempty, not_false_eq_true, decide_true, if_true,
          Option.getD_some, if_false]
  rw [hfunction]
  rfl

/-! ### Methods -/

section Methods

variable {α β : Type} {kind : Call → Prop} {config : Config} {params : Option String}

theorem asks_arguments (reader : Params.Reader α) :
    (arguments reader params).run.Asks kind := by
  unfold arguments
  split
  · exact exceptPure _
  · exact exceptThrow _

theorem asks_respond (write : α → Json) {reply : Service α} (h : reply.run.Asks kind) :
    (respond write reply).run.Asks kind :=
  exceptMap (exceptAdapt h _) write

theorem asks_unary {key : String} {read : Json → Option α} {write : β → Json}
    {f : Config → α → Service β} (hf : ∀ a, (f config a).run.Asks kind) :
    ((Method.unary key read write f).run config params).run.Asks kind :=
  exceptBind (asks_arguments _) fun a => asks_respond write (hf a)

theorem asks_unaryAtBlock {key : String} {read : Json → Option α} {write : β → Json}
    {f : Config → α → Service β} (hf : ∀ a, (f config a).run.Asks kind) :
    ((Method.unaryAtBlock key read write f).run config params).run.Asks kind :=
  exceptBind (asks_arguments _) fun a => asks_respond write (hf a)

theorem asks_nullary {key : String} {write : β → Json} {f : Config → Service β}
    (hf : (f config).run.Asks kind) :
    ((Method.nullary key write f).run config params).run.Asks kind := by
  refine exceptBind (exceptBind (asks_arguments _) fun given => ?_) fun _ => asks_respond write hf
  split
  · exact exceptThrow _
  · exact exceptPure _

theorem asks_getBlockByNumber :
    (Method.getBlockByNumber.run config params).run.Asks Call.Reads := by
  refine exceptBind (asks_arguments _) fun given => ?_
  obtain ⟨block, full, more⟩ := given
  have hblock := asks_respond Eth.Block.toJson
    (exceptBind (Service.asks_check (Eth.BlockRef.parse block)) fun ref =>
      Eth.asks_getBlock ref full)
  simp only
  split
  · exact exceptThrow _
  · exact hblock

/-- **All methods but the one that sends transactions only read.** -/
theorem asks_run_of_mem {m : Method} (hm : m ∈ methods) (hkey : m.key ≠ "eth.SendTransaction") :
    (m.run config params).run.Asks Call.Reads := by
  simp only [methods, List.mem_cons, List.not_mem_nil, or_false] at hm
  rcases hm with rfl | rfl | rfl | rfl | rfl | rfl | rfl | rfl | rfl | rfl | rfl | rfl
  · exact asks_unaryAtBlock fun address => Eth.asks_getCode config address
  · exact asks_unaryAtBlock fun r => Eth.asks_call config r
  · exact absurd rfl hkey
  · exact asks_unary Eth.asks_getReceipt
  · exact asks_nullary (Eth.asks_accounts config)
  · exact exceptBind (asks_arguments _) fun _ => exceptPure _
  · exact exceptPure _
  · exact asks_getBlockByNumber
  · exact asks_nullary Eth.asks_blockNumber
  · exact asks_unary Eth.asks_getTransaction
  · exact asks_unary Eth.asks_getLogs
  · exact asks_nullary (exceptPure _)

end Methods

/-! ### Requests -/

section Requests

variable {config : Config} {limit : Nat} (S : Session) (asked : List Call)

/-- The method that sends transactions asks one question, if it can read its parameter. -/
theorem callsIn_sendTransaction (params : Option String) :
    ((Method.unary "eth.SendTransaction" CallRequest.ofJson? .str Eth.sendTransaction).run config
        params).run.callsIn S asked =
      ((Params.read (Params.required CallRequest.ofJson?) params).map
        (submissionOf config)).toList := by
  simp only [Method.unary, arguments]
  cases Params.read (Params.required CallRequest.ofJson?) params with
  | none => rfl
  | some r =>
    simp only [Option.map_some, Option.toList_some, submissionOf_eq]
    change _ :: _ = _
    cases S asked (.execute config.chaincode (Eth.functionOf r) [Eth.argument r.input]) <;> rfl

theorem mem_of_method?_eq {key : String} {m : Method} (h : method? key = some m) :
    m ∈ methods ∧ m.key = key := by
  have hkey := List.find?_some h
  exact ⟨List.mem_of_find?_eq_some h, eq_of_beq hkey⟩

/-- A name leads only to a method of the table, the one with its key. -/
theorem mem_of_ofName_eq {wire : String} {m : Method} (h : Route.ofName wire = .method m) :
    m ∈ methods ∧ Name.key? wire = some m.key := by
  unfold Route.ofName at h
  cases hkey : Name.key? wire with
  | none =>
    rw [hkey] at h
    cases h
  | some key =>
    rw [hkey, Option.elim, Route.ofKey] at h
    split at h
    · cases h
    · cases hm : method? key with
      | none =>
        rw [hm] at h
        cases h
      | some m' =>
        rw [hm] at h
        cases h
        obtain ⟨hmem, hm⟩ := mem_of_method?_eq hm
        exact ⟨hmem, congrArg some hm.symm⟩

/-- A request for any other method only reads, and so does one for no method. -/
theorem asks_answer {r : Request} (h : Name.key? r.method ≠ some "eth.SendTransaction") :
    (r.answer config limit).Asks Call.Reads := by
  unfold Request.answer
  split
  · next m hm =>
    obtain ⟨hmem, hkey⟩ := mem_of_ofName_eq hm
    have hne : m.key ≠ "eth.SendTransaction" := fun hm => h (hkey.trans (congrArg some hm))
    exact (asks_run_of_mem hmem hne).bind fun _ => .done _
  · exact .done _
  · exact .done _
  · exact .done _

/-- A request commits its submission, if it has one, and nothing else. -/
theorem executes_answer (r : Request) :
    ((r.answer config limit).callsIn S asked).filter Call.isExecute =
      (r.submission? config).toList := by
  by_cases hkey : Name.key? r.method = some "eth.SendTransaction"
  · have hroute : Route.ofName r.method = .method
        (.unary "eth.SendTransaction" CallRequest.ofJson? .str Eth.sendTransaction) := by
      rw [Route.ofName, hkey]
      rfl
    rw [Request.answer, hroute, Request.submission?, if_pos hkey]
    simp only
    rw [Access.callsIn_bind, callsIn_sendTransaction]
    cases Params.read (Params.required CallRequest.ofJson?) r.params <;> rfl
  · rw [Request.submission?, if_neg hkey, Option.toList_none, List.filter_eq_nil_iff]
    intro c hc
    rw [(asks_answer hkey).of_mem_callsIn hc]
    exact Bool.false_ne_true

/-- The responses to requests, one after the other. -/
def answerAll (config : Config) (limit : Nat) (requests : List Request) : Access (List Response) :=
  requests.mapM (·.answer config limit)

/-- **Nothing is submitted twice, or by a request that reads.** Whatever the ledger was asked before
and whatever it answers, the invocations that requests commit are their submissions, in their
order. -/
theorem executes_answerAll (config : Config) (limit : Nat) (requests : List Request) :
    ((answerAll config limit requests).callsIn S asked).filter Call.isExecute =
      requests.filterMap (·.submission? config) := by
  unfold answerAll
  induction requests generalizing asked with
  | nil => rfl
  | cons r requests ih =>
    rw [List.mapM_cons, Access.callsIn_bind, Access.callsIn_bind, Access.callsIn_pure,
      List.append_nil, List.filter_append, executes_answer, ih, List.filterMap_cons]
    cases r.submission? config <;> rfl

end Requests

-- On a ledger that always fails: a transaction, a call, and a transaction without its parameter.
example : (answerAll {} 1000
      [⟨.null, "eth_sendTransaction", some "[[\"0xab\", null, null, null, null, \"0x\"]]"⟩,
        ⟨.null, "eth_call", some "[[\"0xab\"]]"⟩,
        ⟨.null, "eth_sendTransaction", some "[]"⟩]).callsIn
      (fun _ _ => .error (.invalidResponse "" "")) [] =
    [.execute "evmcc" "ab" [Utf8.encode "0x"], .query "evmcc" "ab" [[]]] := by
  decide +kernel

end LedgerBridge.Rpc
