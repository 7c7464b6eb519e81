import Mathlib.Tactic
import LedgerBridge.Json.Record

/-!
# Values that are read alike

Two JSON values which differ in some texts only. A reader of such values either fails on both, or
reads values from them that are related in turn.

* `rel_cases`, `rel_bind`, `rel_mapM`: results of readers that are related step by step;
* `TextRel R`: the same value, or two texts that `R` relates; `ListRel R`: the same value, or two
  lists with members that `R` relates, one by one;
* `RecordRel fields`: records, as lists or as objects, of which the value of each declared member
  may differ as its field says. What is read of the slots is related (`rel_slots?`).
-/

namespace LedgerBridge

/-! ### Results that are related -/

section Rel

variable {α β γ δ : Type} {R : α → β → Prop} {Q : γ → δ → Prop}

theorem rel_refl {R : α → α → Prop} (hR : ∀ a, R a a) (x : Option α) : Option.Rel R x x := by
  cases x with
  | none => exact .none
  | some a => exact .some (hR a)

theorem rel_cases {x : Option α} {y : Option β} (h : Option.Rel R x y) :
    (x = none ∧ y = none) ∨ ∃ a b, R a b ∧ x = some a ∧ y = some b := by
  cases h with
  | none => exact .inl ⟨rfl, rfl⟩
  | some hab => exact .inr ⟨_, _, hab, rfl, rfl⟩

theorem isSome_eq_of_rel {x : Option α} {y : Option β} (h : Option.Rel R x y) :
    y.isSome = x.isSome := by
  cases h <;> rfl

theorem rel_bind {x : Option α} {y : Option β} (h : Option.Rel R x y) {f : α → Option γ}
    {g : β → Option δ} (hfg : ∀ a b, R a b → Option.Rel Q (f a) (g b)) :
    Option.Rel Q (x >>= f) (y >>= g) := by
  cases h with
  | none => exact .none
  | some hab => exact hfg _ _ hab

theorem rel_map {x : Option α} {y : Option β} (h : Option.Rel R x y) {f : α → γ} {g : β → δ}
    (hfg : ∀ a b, R a b → Q (f a) (g b)) : Option.Rel Q (f <$> x) (g <$> y) := by
  cases h with
  | none => exact .none
  | some hab => exact .some (hfg _ _ hab)

theorem rel_mapM {f : α → Option γ} {g : β → Option δ}
    (hfg : ∀ a b, R a b → Option.Rel Q (f a) (g b)) {l : List α} {m : List β}
    (h : List.Forall₂ R l m) : Option.Rel (List.Forall₂ Q) (l.mapM f) (m.mapM g) := by
  induction h with
  | nil => exact .some .nil
  | cons hab _ ih =>
    rw [List.mapM_cons, List.mapM_cons]
    exact rel_bind (hfg _ _ hab) fun _ _ hcd => rel_bind ih fun _ _ hrest =>
      .some (.cons hcd hrest)

end Rel

namespace Json

/-! ### Texts and lists -/

/-- The same value, or two texts that are related. -/
inductive TextRel (R : String → String → Prop) : Json → Json → Prop
  | same (j : Json) : TextRel R j j
  | text {s t : String} (h : R s t) : TextRel R (.str s) (.str t)

/-- The same value, or two lists of values that are related one by one. -/
inductive ListRel (R : Json → Json → Prop) : Json → Json → Prop
  | same (j : Json) : ListRel R j j
  | items {js ks : List Json} (h : List.Forall₂ R js ks) : ListRel R (.array js) (.array ks)

theorem TextRel.eq_null_iff {R : String → String → Prop} {j k : Json} (h : TextRel R j k) :
    j = .null ↔ k = .null := by
  cases h <;> simp

theorem ListRel.eq_null_iff {R : Json → Json → Prop} {j k : Json} (h : ListRel R j k) :
    j = .null ↔ k = .null := by
  cases h <;> simp

section Readers

variable {α : Type} {Q : α → α → Prop} {j k : Json}

theorem rel_asText? {R : String → String → Prop} (hR : ∀ s, R s s) (h : TextRel R j k) :
    Option.Rel R j.asText? k.asText? := by
  cases h with
  | same => exact rel_refl hR _
  | text h => exact .some h

theorem asOptional?_of_ne {item : Json → Option α} (h : j ≠ .null) :
    j.asOptional? item = some <$> item j := by
  cases j <;> first | rfl | exact absurd rfl h

theorem rel_asOptional? {item : Json → Option α} (hnull : j = .null ↔ k = .null)
    (h : Option.Rel Q (item j) (item k)) :
    Option.Rel (Option.Rel Q) (j.asOptional? item) (k.asOptional? item) := by
  by_cases hj : j = .null
  · rw [hj, hnull.1 hj]
    exact .some .none
  · rw [asOptional?_of_ne hj, asOptional?_of_ne fun hk => hj (hnull.2 hk)]
    exact rel_map h fun _ _ => .some

theorem rel_asList? {R : Json → Json → Prop} {item : Json → Option α} (hR : ∀ j, R j j)
    (hitem : ∀ j k, R j k → Option.Rel Q (item j) (item k)) (h : ListRel R j k) :
    Option.Rel (List.Forall₂ Q) (j.asList? item) (k.asList? item) := by
  cases h with
  | items h => exact rel_mapM hitem h
  | same =>
    cases j with
    | array items => exact rel_mapM hitem (List.forall₂_same.2 fun j _ => hR j)
    | _ => exact .none

end Readers

/-! ### Records -/

/-- A declared member, with a relation of values that it may have. -/
abbrev Field : Type := Member × (Json → Json → Prop)

/-- The values of a list may differ as the fields say, one by one; what stands behind some of them
may be the same. -/
inductive Listed : List Field → List Json → List Json → Prop
  | same (fields : List Field) (js : List Json) : Listed fields js js
  | cons {field : Field} {fields : List Field} {j k : Json} {js ks : List Json}
      (h : field.2 j k) (hrest : Listed fields js ks) :
      Listed (field :: fields) (j :: js) (k :: ks)

/-- Members of an object have the same names in both lists, and values which differ as the fields
say. -/
def Named (fields : List Field) :
    List (Option String × Json) → List (Option String × Json) → Prop :=
  List.Forall₂ fun p q =>
    p.1 = q.1 ∧ ∀ field ∈ fields, p.1.any (field.1.names.contains ·) → field.2 p.2 q.2

/-- The same value, or two records of the same form. A list has the values of the members in order;
an object has them under their names, and what other names have does not matter. -/
inductive RecordRel (fields : List Field) : Json → Json → Prop
  | same (j : Json) : RecordRel fields j j
  | listed {js ks : List Json} (h : Listed fields js ks) : RecordRel fields (.array js) (.array ks)
  | named {ms ns : List (Option String × Json)} (h : Named fields ms ns) :
      RecordRel fields (.object ms) (.object ns)

/-- Slots of which each is empty in both lists, or filled with related values. -/
inductive Slots : List Field → List (Option Json) → List (Option Json) → Prop
  | nil : Slots [] [] []
  | cons {field : Field} {fields : List Field} {v w : Option Json} {vs ws : List (Option Json)}
      (h : Option.Rel field.2 v w) (hrest : Slots fields vs ws) :
      Slots (field :: fields) (v :: vs) (w :: ws)

section Records

open Record (onlyValue valuesOf)

variable {fields : List Field}

theorem Listed.length_eq {js ks : List Json} (h : Listed fields js ks) : js.length = ks.length := by
  induction h with
  | same => rfl
  | cons _ _ ih => rw [List.length_cons, List.length_cons, ih]

theorem Slots.refl (hrefl : ∀ field ∈ fields, ∀ j, field.2 j j) {vs : List (Option Json)}
    (hlen : vs.length = fields.length) : Slots fields vs vs := by
  induction fields generalizing vs with
  | nil =>
    rw [List.eq_nil_of_length_eq_zero hlen]
    exact .nil
  | cons field fields ih =>
    obtain ⟨hfield, hrefl⟩ := List.forall_mem_cons.1 hrefl
    cases vs with
    | nil => cases hlen
    | cons v vs => exact .cons (rel_refl hfield v) (ih hrefl (Nat.succ.inj hlen))

/-- A list that is not too long fills the first slots. -/
theorem Listed.slots (hrefl : ∀ field ∈ fields, ∀ j, field.2 j j) {js ks : List Json}
    (h : Listed fields js ks) (hlen : js.length ≤ fields.length) :
    Slots fields (js.map some ++ List.replicate (fields.length - js.length) none)
      (ks.map some ++ List.replicate (fields.length - ks.length) none) := by
  induction h with
  | same fields js =>
    refine Slots.refl hrefl ?_
    rw [List.length_append, List.length_map, List.length_replicate]
    omega
  | @cons field fields j k js ks hjk _ ih =>
    rw [List.length_cons, List.length_cons, List.length_cons, Nat.add_sub_add_right,
      Nat.add_sub_add_right]
    exact .cons (.some hjk) (ih (List.forall_mem_cons.1 hrefl).2 (Nat.le_of_succ_le_succ hlen))

theorem Listed.rel_slots (hrefl : ∀ field ∈ fields, ∀ j, field.2 j j) {js ks : List Json}
    (h : Listed fields js ks) :
    Option.Rel (Slots fields) (Record.slots (fields.map (·.1)) (.listed js))
      (Record.slots (fields.map (·.1)) (.listed ks)) := by
  have hslots := h.slots hrefl
  rw [Record.slots, Record.slots, ← h.length_eq, List.length_map]
  rw [← h.length_eq] at hslots
  split
  · next hlen => exact .some (hslots hlen.1)
  · exact .none

theorem rel_onlyValue {R : Json → Json → Prop} {vs ws : List Json} (h : List.Forall₂ R vs ws) :
    Option.Rel (Option.Rel R) (onlyValue vs) (onlyValue ws) := by
  rcases h with _ | ⟨hvw, _ | ⟨_, _⟩⟩
  · exact .some .none
  · exact .some (.some hvw)
  · exact .none

theorem Named.valuesOf {ms ns : List (Option String × Json)} (h : Named fields ms ns)
    {field : Field} (hfield : field ∈ fields) :
    List.Forall₂ field.2 (Record.valuesOf field.1 ms) (Record.valuesOf field.1 ns) := by
  refine List.rel_filterMap (fun p q hpq => ?_) h
  obtain ⟨hname, hvalue⟩ := hpq
  rw [← hname]
  split
  · next hany => exact .some (hvalue field hfield hany)
  · exact .none

theorem Named.all_isSome {ms ns : List (Option String × Json)} (h : Named fields ms ns) :
    (ms.all fun p => p.1.isSome) = ns.all fun p => p.1.isSome := by
  induction h with
  | nil => rfl
  | cons hpq _ ih => rw [List.all_cons, List.all_cons, hpq.1, ih]

theorem rel_mapM_slots {f g : Member → Option (Option Json)}
    (h : ∀ field ∈ fields, Option.Rel (Option.Rel field.2) (f field.1) (g field.1)) :
    Option.Rel (Slots fields) ((fields.map (·.1)).mapM f) ((fields.map (·.1)).mapM g) := by
  induction fields with
  | nil => exact .some .nil
  | cons field fields ih =>
    obtain ⟨hfield, h⟩ := List.forall_mem_cons.1 h
    rw [List.map_cons, List.mapM_cons, List.mapM_cons]
    exact rel_bind hfield fun _ _ hvw => rel_bind (ih h) fun _ _ hrest => .some (.cons hvw hrest)

theorem Named.rel_slots {ms ns : List (Option String × Json)} (h : Named fields ms ns) :
    Option.Rel (Slots fields) (Record.slots (fields.map (·.1)) (.named ms))
      (Record.slots (fields.map (·.1)) (.named ns)) := by
  rw [Record.slots, Record.slots, h.all_isSome]
  split
  · exact rel_mapM_slots fun field hfield => rel_onlyValue (h.valuesOf hfield)
  · exact .none

/-- **Records which differ as their fields say are read alike.** -/
theorem rel_slots? (hrefl : ∀ field ∈ fields, ∀ j, field.2 j j) {j k : Json}
    (h : RecordRel fields j k) :
    Option.Rel (Slots fields) (slots? (fields.map (·.1)) j) (slots? (fields.map (·.1)) k) := by
  cases h with
  | listed h => exact h.rel_slots hrefl
  | named h => exact h.rel_slots
  | same =>
    cases j with
    | array js => exact (Listed.same fields js).rel_slots hrefl
    | object ms =>
      refine Named.rel_slots (List.forall₂_same.2 fun p _ => ?_)
      exact ⟨rfl, fun field hfield _ => hrefl field hfield p.2⟩
    | _ => exact .none

end Records

/-! ### Slots that are read -/

section Slots

variable {α : Type} {Q : α → α → Prop}

theorem rel_orElse {R : Json → Json → Prop} {read : Json → Option α} {missing : α}
    (hread : ∀ j k, R j k → Option.Rel Q (read j) (read k)) (hmissing : Q missing missing)
    {v w : Option Json} (h : Option.Rel R v w) :
    Option.Rel Q (Record.orElse read missing v) (Record.orElse read missing w) := by
  cases h with
  | none => exact .some hmissing
  | some h => exact hread _ _ h

theorem rel_optionalText? {R : String → String → Prop} (hR : ∀ s, R s s) {v w : Option Json}
    (h : Option.Rel (TextRel R) v w) :
    Option.Rel (Option.Rel R) (Record.optionalText? v) (Record.optionalText? w) :=
  rel_orElse (fun _ _ hjk => rel_asOptional? hjk.eq_null_iff (rel_asText? hR hjk)) .none h

end Slots

end Json

end LedgerBridge
