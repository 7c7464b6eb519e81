import LedgerBridge.Proofs.Except
import LedgerBridge.Proofs.Json.Related

/-!
# Records however they are written

A record has fields, each of which goes by some names. It is written as an object, with its fields
in any order and anywhere among members of other names, or as the list of its first fields in order.

* `given members names`: the values that an object gives under some names. `slots?_zip`: an object
  with different names gives each field its value;
* `Presents fields slots j`: the value `j` is a record with such fields, of which each has the value
  in its slot, if there is one;
* `slots?_of_presents`, `slots?_of_twice`: the values of the fields are read off every such record,
  and no object is read that gives a field twice;
* `Nullable` and `orElse_of_nullable`: a field without a value may be null.
-/

namespace LedgerBridge.Json

open Record (onlyValue valuesOf)

theorem asList?_map {α : Type} {read : Json → Option α} {write : α → Json}
    (hread : ∀ a, read (write a) = some a) (as : List α) :
    asList? read (.array (as.map write)) = some as := by
  show (as.map write).mapM read = some as
  rw [mapM_eq_some_iff, List.forall₂_map_left_iff, List.forall₂_same]
  exact fun a _ => hread a

/-! ### Objects -/

/-- The values that an object gives under some names. -/
def given (members : List (String × Json)) (names : List String) : List Json :=
  (members.filter fun m => m.1 ∈ names).map (·.2)

theorem given_append (ms ns : List (String × Json)) (names : List String) :
    given (ms ++ ns) names = given ms names ++ given ns names := by
  unfold given
  rw [List.filter_append, List.map_append]

theorem valuesOf_eq_given (m : Member) (members : List (String × Json)) :
    valuesOf m (members.map fun p => (some p.1, p.2)) = given members m.names := by
  unfold valuesOf given
  rw [List.filterMap_map, ← List.filterMap_eq_map, List.filterMap_filter]
  refine List.filterMap_congr fun p _ => ?_
  simp

theorem onlyValue_toList {V : Type} (slot : Option V) : onlyValue slot.toList = some slot := by
  cases slot <;> rfl

theorem onlyValue_of_two_le {V : Type} {vs : List V} (h : 2 ≤ vs.length) : onlyValue vs = none := by
  rcases vs with _ | ⟨v, _ | ⟨w, vs⟩⟩
  · simp at h
  · simp at h
  · rfl

theorem slots?_record (declared : List Member) (members : List (String × Json)) :
    slots? declared (.record members) =
      declared.mapM fun m => onlyValue (given members m.names) := by
  have hnames : (members.map fun p => (some p.1, p.2)).all (fun p => p.1.isSome) = true := by
    simp
  unfold slots? record shape?
  rw [Option.bind_some, Record.slots, if_pos hnames]
  simp only [valuesOf_eq_given]

theorem given_cons (m : String × Json) (ms : List (String × Json)) (names : List String) :
    given (m :: ms) names = if m.1 ∈ names then m.2 :: given ms names else given ms names := by
  by_cases h : m.1 ∈ names <;> simp [given, h]

theorem given_eq_nil {ms : List (String × Json)} {names : List String}
    (h : ∀ m ∈ ms, m.1 ∉ names) : given ms names = [] := by
  rw [given, List.filter_eq_nil_iff.2 (by simpa using h), List.map_nil]

/-- In an object with different names, each name gives the value behind it. -/
theorem given_zip {names : List String} (hnames : names.Nodup) {values : List Json}
    (hlen : names.length = values.length) :
    List.Forall₂ (fun name value => given (names.zip values) [name] = [value]) names values := by
  induction names generalizing values with
  | nil =>
    obtain rfl := List.eq_nil_of_length_eq_zero hlen.symm
    exact .nil
  | cons name names ih =>
    obtain ⟨value, values, rfl⟩ := List.exists_cons_of_length_eq_add_one hlen.symm
    obtain ⟨hname, hnames⟩ := List.nodup_cons.1 hnames
    have hlen := Nat.succ.inj hlen
    have hother {other : String} {v : Json} (h : (other, v) ∈ names.zip values) : name ≠ other :=
      (ne_of_mem_of_not_mem (List.of_mem_zip h).1 hname).symm
    refine .cons ?_ (List.forall₂_iff_zip.2 ⟨hlen, fun {other v} hp => ?_⟩)
    · rw [List.zip_cons_cons, given_cons, if_pos (List.mem_singleton_self name),
        given_eq_nil fun m hm h => hother hm (List.mem_singleton.1 h).symm]
    · rw [List.zip_cons_cons, given_cons, if_neg fun h => hother hp (List.mem_singleton.1 h)]
      exact (List.forall₂_iff_zip.1 (ih hnames hlen)).2 hp

theorem slots?_zip {names : List String} (hnames : names.Nodup) (values : List Json)
    (hlen : names.length = values.length) :
    slots? (names.map fun name => ⟨[name], false⟩) (.record (names.zip values)) =
      some (values.map some) := by
  rw [slots?_record, mapM_eq_some_iff, List.forall₂_map_left_iff, List.forall₂_map_right_iff]
  exact (given_zip hnames hlen).imp fun name value h => by rw [h]; rfl

/-- **No object is read that gives a field twice**, under whichever of its names. -/
theorem slots?_of_twice {declared : List Member} {members : List (String × Json)}
    {names : List String} (hnames : names ∈ declared.map (·.names))
    (h : 2 ≤ (given members names).length) : slots? declared (.record members) = none := by
  obtain ⟨m, hm, rfl⟩ := List.mem_map.1 hnames
  rw [slots?_record]
  exact mapM_eq_none_of_mem hm (onlyValue_of_two_le h)

/-! ### Records -/

/-- A record whose fields, each with its names, have the values in the slots. -/
inductive Presents (fields : List (List String)) (slots : List (Option Json)) : Json → Prop where
  /-- An object gives every field with a value once, and no other field. -/
  | named {members : List (String × Json)}
      (h : List.Forall₂ (fun names slot => given members names = slot.toList) fields slots) :
      Presents fields slots (.record members)
  /-- A list has the values of the first fields; the last ones may be missing. -/
  | listed {values : List Json} {missing : Nat} (hlen : fields.length = values.length + missing)
      (hslots : slots = values.map some ++ List.replicate missing none) :
      Presents fields slots (.array values)

theorem Presents.length_eq {fields : List (List String)} {slots : List (Option Json)} {j : Json}
    (h : Presents fields slots j) : fields.length = slots.length := by
  cases h with
  | named h => exact h.length_eq
  | listed hlen hslots => simp [hslots, hlen]

/-- **The fields of a record are read however it is written.** A list may end before fields which
may be left out of it. -/
theorem slots?_of_presents {declared : List Member} {slots : List (Option Json)} {j : Json}
    (h : Presents (declared.map (·.names)) slots j)
    (htrailing : List.Forall₂ (fun m slot => slot = none → m.trailing = true) declared slots) :
    slots? declared j = some slots := by
  cases h with
  | named h =>
    rw [slots?_record, mapM_eq_some_iff]
    refine (List.forall₂_map_left_iff.1 h).imp fun m slot hslot => ?_
    rw [hslot, onlyValue_toList]
  | @listed values missing hlen hslots =>
    rw [List.length_map] at hlen
    -- the slots behind the values are empty
    have hlast := List.forall₂_drop values.length htrailing
    have hempty : List.replicate missing none =
        (declared.drop values.length).map fun _ => (none : Option Json) := by
      rw [List.map_const', List.length_drop, hlen, Nat.add_sub_cancel_left]
    rw [hslots, List.drop_left' (List.length_map _), hempty, List.forall₂_map_right_iff,
      List.forall₂_same] at hlast
    have hall : (declared.drop values.length).all (·.trailing) = true :=
      List.all_eq_true.2 fun m hm => hlast m hm rfl
    unfold slots? shape?
    rw [Option.bind_some, Record.slots, if_pos ⟨by omega, hall⟩, hslots, hlen,
      Nat.add_sub_cancel_left]

/-! ### Fields that may be null -/

/-- What may be in the slot of a field: its value, and if it has none, nothing or null. -/
inductive Nullable (value : Option Json) : Option Json → Prop where
  | same : Nullable value value
  | null (h : value = none) : Nullable value (some .null)

section Nullable

variable {α : Type} {read : Json → Option α} {write : α → Json}
  (hread : ∀ a, read (write a) = some a) (hnull : ∀ a, write a ≠ .null)
include hread hnull

theorem asOptional?_elim (x : Option α) : asOptional? read (x.elim .null write) = some x := by
  cases x with
  | none => rfl
  | some a =>
    show asOptional? read (write a) = some (some a)
    rw [asOptional?_of_ne (hnull a), hread]
    rfl

theorem orElse_of_nullable {x : Option α} {slot : Option Json} (h : Nullable (x.map write) slot) :
    Record.orElse (asOptional? read) none slot = some x := by
  cases h with
  | null h =>
    rw [Option.map_eq_none_iff.1 h]
    rfl
  | same =>
    cases x with
    | none => rfl
    | some a => exact asOptional?_elim hread hnull (some a)

end Nullable

theorem optionalText?_of_nullable {x : Option String} {slot : Option Json}
    (h : Nullable (x.map .str) slot) : Record.optionalText? slot = some x :=
  @orElse_of_nullable _ asText? .str (fun _ => rfl) (fun s => by simp) _ _ h

end LedgerBridge.Json
