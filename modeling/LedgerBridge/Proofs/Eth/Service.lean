import LedgerBridge.Eth.Service
import LedgerBridge.Proofs.Except

/-!
# Methods on a ledger

What a method answers and what it asks, for a ledger that always answers alike. Both are computed
along the method: a step that fails ends the answer and the questions.

* `SameRun` says that a method cannot tell two ledgers apart; it follows the steps of the method
  (`SameRun.bind`, `sameRun_ask`).
-/

namespace LedgerBridge.Eth.Service

open Ledger (Access Answers Call)

variable {α β : Type} (L : Answers)

/-- The answer of a method on a ledger. -/
def outcome (x : Service α) : Except ApiError α := x.run.value L

/-- The questions that a method asks of a ledger, in order. -/
def calls (x : Service α) : List Call := x.run.calls L

@[simp] theorem outcome_pure (a : α) : (pure a : Service α).outcome L = .ok a := rfl

@[simp] theorem calls_pure (a : α) : (pure a : Service α).calls L = [] := rfl

@[simp] theorem outcome_throw (e : ApiError) : (throw e : Service α).outcome L = .error e := rfl

@[simp] theorem calls_throw (e : ApiError) : (throw e : Service α).calls L = [] := rfl

@[simp] theorem outcome_check (x : Except ApiError α) : (check x).outcome L = x := rfl

@[simp] theorem calls_check (x : Except ApiError α) : (check x).calls L = [] := rfl

theorem check_ok (a : α) : check (.ok a) = (pure a : Service α) := rfl

theorem check_map (g : α → β) (x : Except ApiError α) : check (g <$> x) = g <$> check x := by
  cases x <;> rfl

theorem outcome_ask (failed : String → ApiError) (c : Call) :
    (ask failed c).outcome L = (L c).mapError fun e => failed e.message := by
  change ((Access.call c >>= _ : Access _)).value L = _
  rw [Access.value_bind, Access.value_call]
  cases L c <;> rfl

theorem calls_ask (failed : String → ApiError) (c : Call) : (ask failed c).calls L = [c] := by
  change ((Access.call c >>= _ : Access _)).calls L = _
  rw [Access.calls_bind, Access.value_call, Access.calls_call]
  cases L c <;> rfl

@[simp] theorem outcome_bind (x : Service α) (f : α → Service β) :
    (x >>= f).outcome L = x.outcome L >>= fun a => (f a).outcome L := by
  change (x.run >>= ExceptT.bindCont f : Access _).value L = _
  rw [Access.value_bind]
  unfold outcome
  cases x.run.value L <;> rfl

@[simp] theorem calls_bind (x : Service α) (f : α → Service β) :
    (x >>= f).calls L = x.calls L ++ match x.outcome L with
      | .ok a => (f a).calls L
      | .error _ => [] := by
  change (x.run >>= ExceptT.bindCont f : Access _).calls L = _
  rw [Access.calls_bind]
  unfold outcome calls
  cases x.run.value L <;> rfl

variable {L} in
theorem calls_bind_of_ok {x : Service α} {a : α} (h : x.outcome L = .ok a) (f : α → Service β) :
    (x >>= f).calls L = x.calls L ++ (f a).calls L := by
  rw [calls_bind, h]

variable {L} in
theorem calls_bind_of_error {x : Service α} {e : ApiError} (h : x.outcome L = .error e)
    (f : α → Service β) : (x >>= f).calls L = x.calls L := by
  rw [calls_bind, h, List.append_nil]

@[simp] theorem outcome_map (g : α → β) (x : Service α) :
    (g <$> x).outcome L = g <$> x.outcome L := by
  rw [map_eq_pure_bind, outcome_bind]
  cases x.outcome L <;> rfl

@[simp] theorem calls_map (g : α → β) (x : Service α) : (g <$> x).calls L = x.calls L := by
  rw [map_eq_pure_bind, calls_bind]
  cases x.outcome L <;> simp

/-! ### Two ledgers -/

/-- A method runs alike on two ledgers: it gives the same, and asks the same questions. -/
structure SameRun (L M : Answers) (x : Service α) : Prop where
  outcome : x.outcome L = x.outcome M
  calls : x.calls L = x.calls M

section SameRun

variable {L M : Answers}

theorem sameRun_pure (a : α) : SameRun L M (pure a : Service α) := ⟨rfl, rfl⟩

theorem sameRun_throw (e : ApiError) : SameRun L M (throw e : Service α) := ⟨rfl, rfl⟩

theorem sameRun_check (x : Except ApiError α) : SameRun L M (check x) := ⟨rfl, rfl⟩

theorem sameRun_ask {c : Call} (h : L c = M c) (failed : String → ApiError) :
    SameRun L M (ask failed c) := by
  constructor
  · rw [outcome_ask, outcome_ask, h]
  · rw [calls_ask, calls_ask]

theorem SameRun.bind {x : Service α} (hx : SameRun L M x) {f : α → Service β}
    (hf : ∀ a, SameRun L M (f a)) : SameRun L M (x >>= f) := by
  constructor
  · rw [outcome_bind, outcome_bind, hx.outcome]
    exact bind_congr fun a => (hf a).outcome
  · rw [calls_bind, calls_bind, hx.outcome, hx.calls]
    cases x.outcome M with
    | ok a => exact congrArg _ (hf a).calls
    | error e => rfl

end SameRun

end LedgerBridge.Eth.Service
