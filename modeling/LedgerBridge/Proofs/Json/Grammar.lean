import LedgerBridge.Proofs.Json.Reading

/-!
# The grammar of JSON

A value has many spellings: white space may stand around every part of it, texts and names may be
escaped, and numbers be written with a fraction or an exponent.

* `Spelled j w`: the bytes `w` spell the value `j`;
* `parse?_of_spelled`: every spelling of a value is read as that value.
-/

namespace LedgerBridge.Json

/-- A member of an object as it is written. -/
structure WrittenMember where
  name : Option String
  value : Json
  beforeName : Bytes
  /-- What stands between the quotes of the name. -/
  spelledName : Bytes
  beforeColon : Bytes
  spelledValue : Bytes

namespace WrittenMember

/-- The member itself. -/
def member (m : WrittenMember) : Option String × Json := (m.name, m.value)

/-- The bytes of a member. -/
def bytes (m : WrittenMember) : Bytes :=
  m.beforeName ++ 0x22 :: (m.spelledName ++ 0x22 :: (m.beforeColon ++ 0x3a :: m.spelledValue))

/-- The name is spelled, and only white space stands around it. -/
structure IsNamed (m : WrittenMember) : Prop where
  isBlank_beforeName : IsBlank m.beforeName
  textSpelled : TextSpelled m.name m.spelledName
  isBlank_beforeColon : IsBlank m.beforeColon

theorem length_spelledValue_le (m : WrittenMember) : m.spelledValue.length ≤ m.bytes.length := by
  simp only [bytes, List.length_append, List.length_cons]
  omega

end WrittenMember

/-- The bytes that spell a value. -/
inductive Spelled : Json → Bytes → Prop where
  | null : Spelled .null [0x6e, 0x75, 0x6c, 0x6c]
  | true : Spelled (.bool true) [0x74, 0x72, 0x75, 0x65]
  | false : Spelled (.bool false) [0x66, 0x61, 0x6c, 0x73, 0x65]
  | number {x : Number} {w : Bytes} (h : x.Spelled w) : Spelled (.number x) w
  | text {t : Option String} {w : Bytes} (h : TextSpelled t w) :
      Spelled (.text t) (0x22 :: (w ++ [0x22]))
  | emptyArray {gap : Bytes} (h : IsBlank gap) : Spelled (.array []) (0x5b :: (gap ++ [0x5d]))
  | array {items : List (Json × Bytes)} (h : ∀ p ∈ items, Spelled p.1 p.2) :
      Spelled (.array (items.map (·.1))) (0x5b :: ([0x2c].intercalate (items.map (·.2)) ++ [0x5d]))
  | emptyObject {gap : Bytes} (h : IsBlank gap) : Spelled (.object []) (0x7b :: (gap ++ [0x7d]))
  | object {members : List WrittenMember} (hnames : ∀ m ∈ members, m.IsNamed)
      (hvalues : ∀ m ∈ members, Spelled m.value m.spelledValue) :
      Spelled (.object (members.map (·.member)))
        (0x7b :: ([0x2c].intercalate (members.map (·.bytes)) ++ [0x7d]))
  | blank {j : Json} {front w behind : Bytes} (hfront : IsBlank front) (h : Spelled j w)
      (hbehind : IsBlank behind) : Spelled j (front ++ (w ++ behind))

namespace Spelled

variable {j : Json} {w : Bytes}

theorem length_pos (h : Spelled j w) : 0 < w.length := by
  induction h with
  | number h =>
    obtain ⟨b, r, rfl, -⟩ := h.exists_cons
    exact Nat.succ_pos _
  | blank _ _ _ ih =>
    rw [List.length_append, List.length_append]
    omega
  | _ => exact Nat.succ_pos _

/-- A list whose values are spelled, with nothing but commas between them. -/
theorem array_of_forall₂ {js : List Json} {ws : List Bytes} (h : List.Forall₂ Spelled js ws) :
    Spelled (.array js) (0x5b :: ([0x2c].intercalate ws ++ [0x5d])) := by
  have hlen := h.length_eq
  have hitems := @Spelled.array (js.zip ws) fun p hp => List.forall₂_zip h hp
  rwa [List.map_fst_zip hlen.le, List.map_snd_zip hlen.ge] at hitems

end Spelled

theorem length_le_intercalate {w : Bytes} {ws : List Bytes} (h : w ∈ ws) :
    w.length ≤ ([0x2c].intercalate ws).length := by
  induction ws with
  | nil => cases h
  | cons v vs ih =>
    cases vs with
    | nil =>
      rw [List.mem_singleton.1 h, List.intercalate_singleton]
    | cons u us =>
      rw [List.intercalate_cons_cons, List.length_append, List.length_append]
      rcases List.mem_cons.1 h with rfl | h
      · omega
      · have := ih h
        omega

theorem Spelled.exists_fuel {j : Json} {w : Bytes} (h : Spelled j w) {fuel : Nat}
    (hf : w.length ≤ fuel) : ∃ k, fuel = k + 1 := by
  have hpos := h.length_pos
  exact ⟨fuel - 1, by omega⟩

/-- A reader with enough fuel for the bytes of a value reads it off them. -/
theorem Spelled.reads {j : Json} {w : Bytes} (h : Spelled j w) {fuel : Nat}
    (hf : w.length ≤ fuel) : Reads (readValue fuel) w j := by
  -- the parts of a value have fewer bytes than the value, so less fuel is enough for them
  induction h generalizing fuel with
  | null =>
    obtain ⟨fuel, rfl⟩ := null.exists_fuel hf
    exact reads_word (.inl ⟨rfl, rfl⟩)
  | true =>
    obtain ⟨fuel, rfl⟩ := true.exists_fuel hf
    exact reads_word (.inr (.inl ⟨rfl, rfl⟩))
  | false =>
    obtain ⟨fuel, rfl⟩ := false.exists_fuel hf
    exact reads_word (.inr (.inr ⟨rfl, rfl⟩))
  | number h =>
    obtain ⟨fuel, rfl⟩ := (number h).exists_fuel hf
    exact reads_number h
  | text h =>
    obtain ⟨fuel, rfl⟩ := (text h).exists_fuel hf
    exact reads_text (readText_spelled h)
  | emptyArray h =>
    obtain ⟨fuel, rfl⟩ := (emptyArray h).exists_fuel hf
    exact reads_array (readSeries_blank (.inl rfl) h)
  | @array items h ih =>
    obtain ⟨fuel, rfl⟩ := (array h).exists_fuel hf
    refine reads_array (readSeries_eq (.inl rfl) (isItem_readValue fuel) ?_)
    rw [List.forall₂_map_left_iff, List.forall₂_map_right_iff, List.forall₂_same]
    intro p hp
    have hle := length_le_intercalate (List.mem_map_of_mem (f := (·.2)) hp)
    simp only [List.length_cons, List.length_append] at hf
    exact ih p hp (by omega)
  | emptyObject h =>
    obtain ⟨fuel, rfl⟩ := (emptyObject h).exists_fuel hf
    exact reads_object (readSeries_blank (.inr rfl) h)
  | @object members hnames hvalues ih =>
    obtain ⟨fuel, rfl⟩ := (object hnames hvalues).exists_fuel hf
    refine reads_object (readSeries_eq (.inr rfl) (isItem_readMember _) ?_)
    rw [List.forall₂_map_left_iff, List.forall₂_map_right_iff, List.forall₂_same]
    intro m hm
    have hle := length_le_intercalate (List.mem_map_of_mem (f := (·.bytes)) hm)
    have hvalue := m.length_spelledValue_le
    simp only [List.length_cons, List.length_append] at hf
    obtain ⟨hbefore, htext, hcolon⟩ := hnames m hm
    exact reads_member hbefore hcolon (readText_spelled htext) (ih m hm (by omega))
  | blank hfront _ hbehind ih =>
    refine Reads.padded (isItem_readValue fuel).skip (ih ?_) hfront hbehind
    rw [List.length_append, List.length_append] at hf
    omega

/-- **Every spelling of a value is read as that value.** -/
theorem parse?_of_spelled {j : Json} {w : Bytes} (h : Spelled j w) : parse? w = some j := by
  obtain ⟨r, hread, hr⟩ := h.reads le_rfl [] ends_nil
  rw [List.append_nil] at hread
  unfold parse? readFront
  rw [hread, Option.bind_eq_bind, Option.bind_some]
  exact if_pos hr

end LedgerBridge.Json
