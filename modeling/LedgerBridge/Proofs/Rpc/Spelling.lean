import LedgerBridge.Proofs.Eth.RequestSpelling
import LedgerBridge.Proofs.Eth.Session
import LedgerBridge.Proofs.Ledger.Chain
import LedgerBridge.Rpc.Exchange

/-!
# Calls in other spellings

Clients may write the mark in front of hexadecimal texts or leave it out, and may write the digits
of values in either case: the gateway asks and answers the same.

* `Place key j k`: the value `k` is the first parameter `j` of a method, with its hexadecimal texts
  in other spellings;
* `Respells key params params'`: so are the texts of all parameters;
* `run_of_respells`: the method then computes the same.
-/

namespace LedgerBridge.Rpc

open Eth (BlockRef CallRequest Config LogQuery Service)
open Json (RecordRel TextRel)
open Ledger (Access Call Session)
open Params (Reader nextValue)

/-- The first parameter of the method with a key, and the same in another spelling. -/
inductive Place : (key : String) → Json → Json → Prop
  | code {j k : Json} (h : TextRel Hex.Remarks j k) : Place "eth.GetCode" j k
  | call {j k : Json} (h : RecordRel CallRequest.fields j k) : Place "eth.Call" j k
  | transaction {j k : Json} (h : RecordRel CallRequest.fields j k) :
      Place "eth.SendTransaction" j k
  | receiptOf {j k : Json} (h : TextRel Hex.Remarks j k) : Place "eth.GetTransactionReceipt" j k
  | transactionOf {j k : Json} (h : TextRel Hex.Remarks j k) :
      Place "eth.GetTransactionByHash" j k
  | block {j k : Json} (h : TextRel BlockRef.Respells j k) : Place "eth.GetBlockByNumber" j k
  | logs {j k : Json} (h : RecordRel LogQuery.fields j k) : Place "eth.GetLogs" j k

/-- The parameters of the method with a key, and the same with the first one in another spelling. -/
inductive Respells (key : String) : (params params' : Option String) → Prop
  | same (params : Option String) : Respells key params params
  | first {params params' : Option String} {j k : Json} {rest : Bytes}
      (hj : nextValue (Params.start params) = some (some j, rest))
      (hk : nextValue (Params.start params') = some (some k, rest)) (h : Place key j k) :
      Respells key params params'

/-! ### Parameters -/

section Reading

variable {α β γ : Type} {params params' : Option String} {j k : Json} {rest : Bytes}

/-- The first parameter is read, and then what is left. -/
theorem read_required_bind (hj : nextValue (Params.start params) = some (some j, rest))
    (item : Json → Option α) (f : α → Reader β) :
    Params.read (Params.required item >>= f) params =
      item j >>= fun a => ((f a).run rest).map (·.1) := by
  have hrun : (Params.required item).run (Params.start params) =
      item j >>= fun a => some (a, rest) := by
    show nextValue (Params.start params) >>= _ = _
    rw [hj]
    rfl
  rw [Params.read, StateT.run_bind, hrun]
  cases item j <;> rfl

theorem arguments_bind (reader : Reader α) (f : α → ExceptT Fault Access β) :
    (arguments reader params >>= f) = ((Params.read reader params).map f).getD (throw .params) := by
  unfold arguments
  cases Params.read reader params <;> rfl

variable (hj : nextValue (Params.start params) = some (some j, rest))
  (hk : nextValue (Params.start params') = some (some k, rest))
include hj hk

/-- A method cannot tell first parameters apart if it can do so neither when it reads what is left
nor when it runs. -/
theorem arguments_bind_congr {Q : α → α → Prop} {item : Json → Option α}
    (hitem : Option.Rel Q (item j) (item k)) {f : α → Reader β} {g : β → ExceptT Fault Access γ}
    (hfg : ∀ a b, Q a b → (((f b).run rest).map (·.1)).map g = (((f a).run rest).map (·.1)).map g) :
    (arguments (Params.required item >>= f) params' >>= g) =
      (arguments (Params.required item >>= f) params >>= g) := by
  rw [arguments_bind, arguments_bind, read_required_bind hj, read_required_bind hk]
  congr 1
  obtain ⟨ha, hb⟩ | ⟨a, b, hab, ha, hb⟩ := rel_cases hitem
  · rw [ha, hb]
  · rw [ha, hb]
    exact hfg a b hab

section Methods

variable {Q : α → α → Prop} {read : Json → Option α} (hread : Option.Rel Q (read j) (read k))
  {f : Config → α → Service β} (hf : ∀ a b, Q a b → ∀ config, f config b = f config a)
include hread hf

theorem unary_congr {key : String} {write : β → Json} (config : Config) :
    (Method.unary key read write f).run config params' =
      (Method.unary key read write f).run config params := by
  show (arguments (Params.required read) params' >>= _) =
    (arguments (Params.required read) params >>= _)
  rw [← bind_pure (Params.required read)]
  refine arguments_bind_congr hj hk hread fun a b hab => ?_
  show some (respond write (f config b)) = some (respond write (f config a))
  rw [hf a b hab]

theorem unaryAtBlock_congr {key : String} {write : β → Json} (config : Config) :
    (Method.unaryAtBlock key read write f).run config params' =
      (Method.unaryAtBlock key read write f).run config params := by
  refine arguments_bind_congr hj hk hread fun a b hab => ?_
  rw [StateT.run_bind, StateT.run_bind]
  cases (Params.optional Json.asKept?).run rest with
  | none => rfl
  | some p =>
    show some (respond write (f config b)) = some (respond write (f config a))
    rw [hf a b hab]

end Methods

theorem getBlockByNumber_congr (h : TextRel BlockRef.Respells j k) (config : Config) :
    Method.getBlockByNumber.run config params' = Method.getBlockByNumber.run config params := by
  have hread := Json.rel_asText? BlockRef.Respells.refl h
  refine arguments_bind_congr hj hk hread fun a b hab => ?_
  rw [StateT.run_bind, StateT.run_bind]
  cases (Params.required Json.asBool?).run rest with
  | none => rfl
  | some p =>
    simp only [Option.bind_eq_bind, Option.bind_some, StateT.run_bind]
    cases (Params.optional Json.asKept?).run p.2 with
    | none => rfl
    | some q =>
      simp [hab.parse_eq]

end Reading

/-! ### Calls -/

/-- **A method computes the same for all spellings of its parameters.** -/
theorem run_of_respells {key : String} {m : Method} (hm : method? key = some m) (config : Config)
    {params params' : Option String} (h : Respells key params params') :
    m.run config params' = m.run config params := by
  cases h with
  | same => rfl
  | first hj hk h =>
    cases h with
    | code h =>
      obtain rfl := Option.some.inj hm
      exact unaryAtBlock_congr hj hk (Json.rel_asText? (fun _ => .same) h)
        (fun _ _ => Eth.getCode_of_remarks) config
    | call h =>
      obtain rfl := Option.some.inj hm
      exact unaryAtBlock_congr hj hk (CallRequest.rel_ofJson? h) (fun _ _ => Eth.call_of_respells)
        config
    | transaction h =>
      obtain rfl := Option.some.inj hm
      exact unary_congr hj hk (CallRequest.rel_ofJson? h)
        (fun _ _ => Eth.sendTransaction_of_respells)
        config
    | receiptOf h =>
      obtain rfl := Option.some.inj hm
      exact unary_congr hj hk (Json.rel_asText? (fun _ => .same) h)
        (fun _ _ h _ => Eth.getReceipt_of_remarks h) config
    | transactionOf h =>
      obtain rfl := Option.some.inj hm
      exact unary_congr hj hk (Json.rel_asText? (fun _ => .same) h)
        (fun _ _ h _ => Eth.getTransaction_of_remarks h) config
    | block h =>
      obtain rfl := Option.some.inj hm
      exact getBlockByNumber_congr hj hk h config
    | logs h =>
      obtain rfl := Option.some.inj hm
      exact unary_congr hj hk (LogQuery.rel_ofJson? h) (fun _ _ h _ => Eth.getLogs_of_respells h)
        config

/-- The answer to a request depends on its name only through the key that it asks for. -/
theorem answer_of_respells {wire : String} (config : Config) (limit : Nat) (id : Id)
    {params params' : Option String}
    (h : ∀ key, Name.key? wire = some key → Respells key params params') :
    (⟨id, wire, params'⟩ : Request).answer config limit =
      (⟨id, wire, params⟩ : Request).answer config limit := by
  rw [Request.answer, Request.answer, Route.ofName]
  cases hkey : Name.key? wire with
  | none => rfl
  | some key =>
    simp only [Option.elim, Route.ofKey]
    split_ifs with hdirectory
    · rfl
    · cases hm : method? key with
      | none => rfl
      | some m => simp only [run_of_respells hm config (h key hkey)]

theorem nextValue_text {s : Bytes} (rest : Bytes) {t : String}
    (h : ((nextValue s).map fun p => (p.1.bind Json.asText?, p.2)) = some (some t, rest)) :
    nextValue s = some (some (.str t), rest) := by
  obtain ⟨⟨j?, rest'⟩, hs, hp⟩ := Option.map_eq_some_iff.1 h
  obtain ⟨ht, rfl⟩ := Prod.mk.inj hp
  obtain ⟨j, rfl, hj⟩ := Option.bind_eq_some_iff.1 ht
  cases j with
  | text u =>
    cases hj
    exact hs
  | _ => cases hj

end LedgerBridge.Rpc
