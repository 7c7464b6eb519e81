import LedgerBridge.Json.Reader

/-!
# Records in JSON

A record is written as an object or as the list of its members in order. This module reads the
members that a record declares, whatever their values are, from either form.

* `Record.slots ms shape` gives for each declared member its value, if it is there. In an object
  unknown names are ignored and a member given twice, under whichever of its names, is refused; a
  list may be shorter only by members which may be left out of it, and never longer;
* `splitShape?` finds the form of a record in a text and keeps the values as bytes;
* `required` and `orElse` read a slot, `text?` and `optionalText?` one that holds a text.
-/

namespace LedgerBridge.Json

/-- A member that a record declares. -/
structure Member where
  /-- Its name, and other names that are understood. -/
  names : List String
  /-- Whether a list may end before it. -/
  trailing : Bool := false

/-- The two forms of a record, over any form of values. -/
inductive Shape (V : Type) where
  | listed (values : List V)
  | named (members : List (Option String × V))

/-- The form of a record that a value has. -/
def shape? : Json → Option (Shape Json)
  | .array items => some (.listed items)
  | .object members => some (.named members)
  | _ => none

/-- The form of the record that a text is, with the values as bytes. -/
def splitShape? (s : Bytes) : Option (Shape Bytes) :=
  (.listed <$> splitArray? s) <|> (.named <$> splitObject? s)

namespace Record

variable {V : Type}

/-- The values which an object gives for a member. -/
def valuesOf (m : Member) (members : List (Option String × V)) : List V :=
  members.filterMap fun p => if p.1.any (m.names.contains ·) then some p.2 else none

/-- The only value of a member, if there is one; `none` when there are several. -/
def onlyValue : List V → Option (Option V)
  | [] => some none
  | [v] => some (some v)
  | _ => none

/-- The value of each declared member. -/
def slots (declared : List Member) : Shape V → Option (List (Option V))
  | .listed values =>
    if values.length ≤ declared.length ∧ (declared.drop values.length).all (·.trailing) then
      some (values.map some ++ List.replicate (declared.length - values.length) none)
    else none
  | .named members =>
    if members.all (·.1.isSome) then declared.mapM fun m => onlyValue (valuesOf m members)
    else none

/-- The value in a slot that must not be empty. -/
def required {α : Type} (read : V → Option α) (slot : Option V) : Option α := slot.bind read

/-- The value in a slot, or another one if it is empty. -/
def orElse {α : Type} (read : V → Option α) (missing : α) : Option V → Option α
  | none => some missing
  | some v => read v

end Record

/-- The text in a slot that must not be empty. -/
def Record.text? (slot : Option Json) : Option String := Record.required asText? slot

/-- The text in a slot, if there is one; null is none. -/
def Record.optionalText? (slot : Option Json) : Option (Option String) :=
  Record.orElse (asOptional? asText?) none slot

/-- The values of the members that a record declares, from a JSON value. -/
def slots? (declared : List Member) (j : Json) : Option (List (Option Json)) :=
  j.shape?.bind (Record.slots declared)

end LedgerBridge.Json
