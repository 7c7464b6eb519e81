import LedgerBridge.Proofs.Eth.Reply
import LedgerBridge.Proofs.Rpc.Refusal
import LedgerBridge.Proofs.Rpc.Submission

/-!
# Calls without an envelope

A call can be looked up in the table of methods and run, with no request around it.

* `direct config wire params` is what becomes of it;
* `writes_of_mem`, `writable_response`: results and responses are read back from what is written;
* `answer_eq_direct`: the response to a request says what the call without the request does, and the
  ledger is asked the same.
-/

namespace LedgerBridge.Rpc

open Eth (Config Service)
open Json (Writable)
open Ledger (Access Call Session)

/-- What becomes of a call of a method with parameters: its result, or why there is none. -/
def direct (config : Config) (wire : String) (params : Option String) :
    Access (Except ErrorObject Json) :=
  match Name.key? wire with
  | none => return .error .methodNotFound
  | some key =>
    if key = Route.directoryKey then return .ok directory
    else match method? key with
      | none => return .error .methodNotFound
      | some m => do
        let outcome ← (m.run config params).run
        return outcome.mapError Fault.object

/-- An outcome that says the same: the result itself, or an error with the same code and wording. -/
inductive Agrees : (said outcome : Except ErrorObject Json) → Prop
  | result (j : Json) : Agrees (.ok j) (.ok j)
  | error {said e : ErrorObject} (hcode : said.code = e.code)
      (hmessage : said.message = e.message) :
      Agrees (.error said) (.error e)

theorem Agrees.refl (outcome : Except ErrorObject Json) : Agrees outcome outcome := by
  cases outcome with
  | ok j => exact .result j
  | error e => exact .error rfl rfl

/-! ### Results can be written -/

/-- The result of a run, if it has one, can be written. -/
def Writes (run : Run) : Prop :=
  ∀ (S : Session) (j : Json), run.run.valueIn S [] = .ok j → Writable j

section Runs

variable {α β : Type} {config : Config} {params : Option String}

theorem writes_respond {write : α → Json} (h : ∀ a, Writable (write a)) (reply : Service α) :
    Writes (respond write reply) := by
  intro S j hvalue
  rw [(run_respond write reply).1, mapError_eq_ok, map_eq_ok] at hvalue
  obtain ⟨a, -, rfl⟩ := hvalue
  exact h a

theorem writes_pure {j : Json} (h : Writable j) : Writes (pure j) := by
  intro S k hvalue
  obtain rfl := Except.ok.inj hvalue
  exact h

theorem writes_throw (fault : Fault) : Writes (throw fault) := by
  intro S j hvalue
  cases hvalue

theorem writes_arguments_bind {reader : Params.Reader α} {rest : α → Run}
    (h : ∀ a, Writes (rest a)) : Writes (arguments reader params >>= rest) := by
  cases hread : Params.read reader params with
  | none =>
    rw [arguments_of_read_none hread]
    exact writes_throw .params
  | some a =>
    rw [arguments_of_read hread, pure_bind]
    exact h a

theorem writes_unary {key : String} {read : Json → Option α} {write : β → Json}
    {f : Config → α → Service β} (h : ∀ b, Writable (write b)) :
    Writes ((Method.unary key read write f).run config params) :=
  writes_arguments_bind fun _ => writes_respond h _

theorem writes_unaryAtBlock {key : String} {read : Json → Option α} {write : β → Json}
    {f : Config → α → Service β} (h : ∀ b, Writable (write b)) :
    Writes ((Method.unaryAtBlock key read write f).run config params) :=
  writes_arguments_bind fun _ => writes_respond h _

theorem writes_nullary {key : String} {write : β → Json} {f : Config → Service β}
    (h : ∀ b, Writable (write b)) :
    Writes ((Method.nullary key write f).run config params) := by
  show Writes (noArguments params >>= fun _ => respond write (f config))
  rw [noArguments, bind_assoc]
  refine writes_arguments_bind fun given => ?_
  split
  · exact writes_throw _
  · exact writes_respond h _

theorem writes_getBlockByNumber : Writes (Method.getBlockByNumber.run config params) := by
  refine writes_arguments_bind fun given => ?_
  obtain ⟨block, full, more⟩ := given
  simp only
  split
  · exact writes_throw _
  · exact writes_respond Eth.Block.writable_toJson _

/-- **The results of all methods can be written.** -/
theorem writes_of_mem {m : Method} (hm : m ∈ methods) : Writes (m.run config params) := by
  simp only [methods, List.mem_cons, List.not_mem_nil, or_false] at hm
  rcases hm with rfl | rfl | rfl | rfl | rfl | rfl | rfl | rfl | rfl | rfl | rfl | rfl
  · exact writes_unaryAtBlock .text
  · exact writes_unaryAtBlock .text
  · exact writes_unary .text
  · exact writes_unary Eth.Receipt.writable_toJson
  · exact writes_nullary Eth.writable_texts
  · exact writes_arguments_bind fun _ => writes_pure (.text _)
  · exact writes_pure (.text _)
  · exact writes_getBlockByNumber
  · exact writes_nullary .text
  · exact writes_unary Eth.Transaction.writable_toJson
  · exact writes_unary (.array_map Eth.Log.writable_toJson)
  · exact writes_nullary .text

end Runs

/-! ### Responses -/

section Responses

variable (config : Config) (S : Session)

theorem writable_directory : Writable directory := by
  refine .object fun m hm => ?_
  obtain rfl := List.mem_singleton.1 hm
  exact Eth.writable_texts names

theorem writable_id (id : Id) : Writable id.toJson := by
  cases id with
  | null => exact .null
  | number n => exact .number _
  | text s => exact .text s

/-- A response can be written if its result or the data of its error can. -/
theorem writable_response {r : Response} (hresult : ∀ j, r.outcome = .ok j → Writable j)
    (hdata : ∀ e j, r.outcome = .error e → e.data = some j → Writable j) : Writable r.toJson := by
  have houtcome : Writable (Response.outcomeMember r.outcome).2 := by
    cases h : r.outcome with
    | ok j => exact hresult j h
    | error e =>
      refine .object fun m hm => ?_
      rcases List.mem_append.1 hm with hm | hm
      · simp only [List.mem_cons, List.not_mem_nil, or_false] at hm
        rcases hm with rfl | rfl
        · exact .number _
        · exact .text _
      · cases hj : e.data with
        | none =>
          rw [hj] at hm
          cases hm
        | some j =>
          rw [hj] at hm
          obtain rfl := List.mem_singleton.1 hm
          exact hdata e j h hj
  refine .object fun m hm => ?_
  simp only [List.mem_cons, List.not_mem_nil, or_false] at hm
  rcases hm with rfl | rfl | rfl
  · exact .text _
  · exact houtcome
  · exact writable_id r.id

/-- The response says what a call came to, with the id of a request, and can be read back. -/
structure Says (response : Response) (id : Id) (outcome : Except ErrorObject Json) : Prop where
  id_eq : response.id = id
  agrees : Agrees response.outcome outcome
  writable : Writable response.toJson

/-- **A request is answered what the call without the request gives.** The ledger is asked the same,
and if the outcome fits, the response says it. -/
theorem answer_eq_direct (r : Request) (limit : Nat) :
    (r.answer config limit).callsIn S [] = (direct config r.method r.params).callsIn S [] ∧
      (Response.size ⟨r.id, (direct config r.method r.params).valueIn S []⟩ ≤ limit →
        Says ((r.answer config limit).valueIn S []) r.id
          ((direct config r.method r.params).valueIn S [])) := by
  have hplain {e : ErrorObject} (he : e.data = none) :
      Writable (Response.toJson ⟨r.id, .error e⟩) := by
    refine writable_response (fun _ h => by cases h) fun e' j h hj => ?_
    obtain rfl := Except.error.inj h
    rw [he] at hj
    cases hj
  unfold Request.answer direct Route.ofName
  cases Name.key? r.method with
  | none =>
    refine ⟨rfl, fun _ => ⟨rfl, .error rfl rfl, ?_⟩⟩
    refine writable_response (fun _ h => by cases h) fun e j h hj => ?_
    obtain rfl := Except.error.inj h
    obtain rfl := Option.some.inj hj
    exact .text _
  | some key =>
    simp only [Option.elim, Route.ofKey]
    by_cases hdirectory : key = Route.directoryKey
    · rw [if_pos hdirectory, if_pos hdirectory]
      simp only [Access.callsIn_pure, Access.valueIn_pure]
      refine ⟨trivial, fun hfits => ?_⟩
      rw [Response.within_of_size_le hfits]
      refine ⟨rfl, .result directory, writable_response (fun j h => ?_) fun _ _ h => by cases h⟩
      exact Except.ok.inj h ▸ writable_directory
    · rw [if_neg hdirectory, if_neg hdirectory]
      cases hm : method? key with
      | none => exact ⟨rfl, fun _ => ⟨rfl, .error rfl rfl, hplain rfl⟩⟩
      | some m =>
        have hwrites : Writes (m.run config r.params) := writes_of_mem (mem_of_method?_eq hm).1
        refine ⟨?_, fun hfits => ?_⟩
        · simp only [Access.callsIn_bind, Access.callsIn_pure]
        · simp only [Access.valueIn_bind, Access.valueIn_pure] at hfits ⊢
          rw [Response.within_of_size_le hfits]
          refine ⟨rfl, .refl _, ?_⟩
          refine writable_response (fun j h => hwrites S j (mapError_eq_ok.1 h)) fun e j h hj => ?_
          obtain ⟨fault, -, rfl⟩ := mapError_eq_error.1 h
          cases fault <;> cases hj

end Responses

end LedgerBridge.Rpc
