import LedgerBridge.Text.Case

/-!
# Method names

Clients write `namespace_method`. The table of methods is looked up under `namespace.Method`, where
the method starts with a capital.

* `Name.key? wire` is the key that a wire name asks for, if it has a namespace and a method;
* `Name.wire key` is the wire name of a key.

Only the first separator counts, and only the first letter of the method changes.
-/

namespace LedgerBridge.Rpc.Name

/-- The parts in front of and behind the first separator. -/
def splitFirst (separator : Char) : List Char → Option (List Char × List Char)
  | [] => none
  | c :: r =>
    if c = separator then some ([], r)
    else (splitFirst separator r).map fun p => (c :: p.1, p.2)

/-- The key that a wire name asks for. -/
def key? (wire : String) : Option String :=
  match splitFirst '_' wire.toList with
  | some (space, first :: rest) => some (String.ofList (space ++ '.' :: (Case.upper first ++ rest)))
  | _ => none

/-- The wire name of a key. A text without a namespace is its own. -/
def wire (key : String) : String :=
  match splitFirst '.' key.toList with
  | some (space, first :: rest) => String.ofList (space ++ '_' :: (Case.lower first ++ rest))
  | some (space, []) => String.ofList (space ++ ['_'])
  | none => key

theorem splitFirst_append {separator : Char} {space : List Char} (h : separator ∉ space)
    (rest : List Char) :
    splitFirst separator (space ++ separator :: rest) = some (space, rest) := by
  induction space with
  | nil => simp [splitFirst]
  | cons c r ih =>
    have hc : c ≠ separator := fun e => h (e ▸ List.mem_cons_self)
    have hr : separator ∉ r := fun m => h (List.mem_cons_of_mem _ m)
    simp [splitFirst, hc, ih hr]

theorem eq_append_of_splitFirst {separator : Char} {cs space rest : List Char}
    (h : splitFirst separator cs = some (space, rest)) :
    cs = space ++ separator :: rest ∧ separator ∉ space := by
  induction cs generalizing space with
  | nil => cases h
  | cons c r ih =>
    by_cases hc : c = separator
    · simp only [splitFirst, hc, if_true, Option.some.injEq, Prod.mk.injEq] at h
      obtain ⟨rfl, rfl⟩ := h
      simp [hc]
    · simp only [splitFirst, hc, if_false, Option.map_eq_some_iff, Prod.mk.injEq] at h
      obtain ⟨⟨a, b⟩, hab, rfl, rfl⟩ := h
      obtain ⟨rfl, hn⟩ := ih hab
      exact ⟨rfl, by simpa [Ne.symm hc] using hn⟩

end LedgerBridge.Rpc.Name
