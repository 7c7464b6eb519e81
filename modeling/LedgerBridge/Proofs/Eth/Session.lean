import LedgerBridge.Proofs.Eth.Service

/-!
# Methods on a ledger that changes

A ledger may grow while a method runs, so what it answers may depend on what it was asked before. A
`Session` is such a ledger.

* `Service.outcomeIn` and `Service.callsIn` give the result of a method in a session and what it
  asks there, after some questions; both are computed along the method;
* `Service.run_eq_of_agrees`: where the answers along a run are those of a ledger that always
  answers alike, the run is the one on that ledger.
-/

namespace LedgerBridge

open Ledger (Answers Call Access)

/-- A ledger whose answers depend on the questions it was asked before. -/
abbrev Ledger.Session : Type := List Call → Answers

open Ledger (Session)

namespace Ledger.Access

variable {α β : Type} (S : Session)

/-- The result in a session after some questions. -/
def valueIn : (asked : List Call) → Access α → α
  | _, .done a => a
  | asked, .ask c next => (next (S asked c)).valueIn (asked ++ [c])

/-- The questions asked in a session after some others, in order. -/
def callsIn : (asked : List Call) → Access α → List Call
  | _, .done _ => []
  | asked, .ask c next => c :: (next (S asked c)).callsIn (asked ++ [c])

theorem valueIn_pure (asked : List Call) (a : α) : (pure a : Access α).valueIn S asked = a := rfl

theorem callsIn_pure (asked : List Call) (a : α) : (pure a : Access α).callsIn S asked = [] := rfl

theorem valueIn_bind (asked : List Call) (x : Access α) (f : α → Access β) :
    (x >>= f).valueIn S asked =
      (f (x.valueIn S asked)).valueIn S (asked ++ x.callsIn S asked) := by
  change (x.bind f).valueIn S asked = _
  induction x generalizing asked with
  | done a => rw [callsIn, List.append_nil]; rfl
  | ask c next ih =>
    have hnext := ih (S asked c) (asked ++ [c])
    rw [List.append_assoc, List.singleton_append] at hnext
    exact hnext

theorem callsIn_bind (asked : List Call) (x : Access α) (f : α → Access β) :
    (x >>= f).callsIn S asked =
      x.callsIn S asked ++
        (f (x.valueIn S asked)).callsIn S (asked ++ x.callsIn S asked) := by
  change (x.bind f).callsIn S asked = _
  induction x generalizing asked with
  | done a => rw [callsIn, List.append_nil]; rfl
  | ask c next ih =>
    have hnext := ih (S asked c) (asked ++ [c])
    rw [List.append_assoc, List.singleton_append] at hnext
    exact congrArg (c :: ·) hnext

variable {S} in
/-- By induction on the computation: its first question is asked when none of its own has been. -/
theorem run_eq_of_agrees {L : Answers} {asked : List Call} {x : Access α}
    (h : ∀ before c, before ++ [c] <+: x.calls L → S (asked ++ before) c = L c) :
    x.valueIn S asked = x.value L ∧ x.callsIn S asked = x.calls L := by
  induction x generalizing asked with
  | done a => exact ⟨rfl, rfl⟩
  | ask c next ih =>
    have hc : S asked c = L c := by
      have := h [] c (by simp [calls])
      rwa [List.append_nil] at this
    have hrest : ∀ before d, before ++ [d] <+: (next (L c)).calls L →
        S (asked ++ [c] ++ before) d = L d := fun before d hprefix => by
      rw [← List.append_cons]
      exact h (c :: before) d (List.cons_prefix_cons.2 ⟨rfl, hprefix⟩)
    obtain ⟨hvalue, hcalls⟩ := ih (L c) hrest
    rw [valueIn, callsIn, hc, hvalue, hcalls]
    exact ⟨rfl, rfl⟩

end Ledger.Access

namespace Eth.Service

variable {α β : Type} (S : Session)

/-- The answer of a method in a session, after some questions. -/
def outcomeIn (asked : List Call) (x : Service α) : Except ApiError α := x.run.valueIn S asked

/-- The questions that a method asks in a session after some others, in order. -/
def callsIn (asked : List Call) (x : Service α) : List Call := x.run.callsIn S asked

variable {S} {asked : List Call} {x : Service α}

theorem run_eq_of_agrees {L : Answers}
    (h : ∀ before c, before ++ [c] <+: x.calls L → S (asked ++ before) c = L c) :
    x.outcomeIn S asked = x.outcome L ∧ x.callsIn S asked = x.calls L :=
  Access.run_eq_of_agrees h

/-- Of a method that asks one question at most, the first answers are all that counts. -/
theorem run_eq_of_length_le (h : (x.calls (S asked)).length ≤ 1) :
    x.outcomeIn S asked = x.outcome (S asked) ∧ x.callsIn S asked = x.calls (S asked) := by
  refine run_eq_of_agrees fun before c hprefix => ?_
  have hlen := hprefix.length_le.trans h
  rw [List.length_append, List.length_singleton] at hlen
  obtain rfl : before = [] := List.eq_nil_of_length_eq_zero (by omega)
  rw [List.append_nil]

theorem run_bind_of_ok {a : α} (h : x.outcomeIn S asked = .ok a) (f : α → Service β) :
    (x >>= f).outcomeIn S asked = (f a).outcomeIn S (asked ++ x.callsIn S asked) ∧
      (x >>= f).callsIn S asked =
        x.callsIn S asked ++ (f a).callsIn S (asked ++ x.callsIn S asked) := by
  change (x.run >>= ExceptT.bindCont f : Access _).valueIn S asked = _ ∧
    (x.run >>= ExceptT.bindCont f : Access _).callsIn S asked = _
  unfold outcomeIn at h
  rw [Access.valueIn_bind, Access.callsIn_bind, h]
  exact ⟨rfl, rfl⟩

theorem run_bind_of_error {e : ApiError} (h : x.outcomeIn S asked = .error e)
    (f : α → Service β) :
    (x >>= f).outcomeIn S asked = .error e ∧ (x >>= f).callsIn S asked = x.callsIn S asked := by
  change (x.run >>= ExceptT.bindCont f : Access _).valueIn S asked = _ ∧
    (x.run >>= ExceptT.bindCont f : Access _).callsIn S asked = _
  unfold outcomeIn at h
  rw [Access.valueIn_bind, Access.callsIn_bind, h]
  exact ⟨rfl, List.append_nil _⟩

end Eth.Service

end LedgerBridge
