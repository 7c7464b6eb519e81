import LedgerBridge.Proofs.Json.Grammar

/-!
# JSON read back

What is written for a value is one of its spellings, so it is read as that value.

* `Writable` are the values of which all texts and names are spelled by characters;
* `spelled_bytes` says that what is written for them spells them;
* `parse?_render` says that a value that is written and read again is the same value.
-/

namespace LedgerBridge.Json

/-- All texts and names of a value are spelled by characters. -/
inductive Writable : Json → Prop where
  | null : Writable .null
  | bool (b : Bool) : Writable (.bool b)
  | number (x : Number) : Writable (.number x)
  | text (s : String) : Writable (.str s)
  | array {items : List Json} (h : ∀ j ∈ items, Writable j) : Writable (.array items)
  | object {members : List (String × Json)} (h : ∀ m ∈ members, Writable m.2) :
      Writable (.record members)

theorem Writable.array_map {α : Type} {write : α → Json} (h : ∀ a, Writable (write a))
    (as : List α) :
    Writable (.array (as.map write)) :=
  .array (List.forall_mem_map.2 fun a _ => h a)

/-- The bytes that are written for a value. -/
def bytes (j : Json) : Bytes := (write j).flatMap String.utf8EncodeChar

/-- The bytes that are written for a member of an object. -/
def memberBytes (m : String × Json) : Bytes :=
  0x22 :: ((m.1.toList.flatMap writeChar).flatMap String.utf8EncodeChar ++
    0x22 :: 0x3a :: bytes m.2)

theorem encode_render (j : Json) : Utf8.encode j.render = bytes j := Utf8.encode_ofList _

theorem flatMap_commaSeparated (ps : List (List Char)) :
    (commaSeparated ps).flatMap String.utf8EncodeChar =
      [0x2c].intercalate (ps.map fun p => p.flatMap String.utf8EncodeChar) := by
  induction ps with
  | nil => rfl
  | cons p ps ih =>
    cases ps with
    | nil => simp [commaSeparated]
    | cons q qs =>
      rw [commaSeparated.eq_def]
      simp only [List.flatMap_append, List.flatMap_cons, ih, List.map_cons]
      rw [List.intercalate_cons_cons, List.append_assoc]
      rfl

theorem writeAll_eq (js : List Json) : writeAll js = js.map write := by
  induction js with
  | nil => rfl
  | cons j js ih => rw [writeAll, ih, List.map_cons]

theorem writeMembers_eq (ms : List (Option String × Json)) :
    writeMembers ms = ms.map writeMember := by
  induction ms with
  | nil => rfl
  | cons m ms ih => rw [writeMembers, ih, List.map_cons]

theorem bytes_text (s : String) : bytes (.str s) =
    0x22 :: ((s.toList.flatMap writeChar).flatMap String.utf8EncodeChar ++ [0x22]) := by
  simp [bytes, write, writeText]
  rfl

theorem bytes_array (js : List Json) :
    bytes (.array js) = 0x5b :: ([0x2c].intercalate (js.map bytes) ++ [0x5d]) := by
  simp [bytes, write, writeAll_eq, flatMap_commaSeparated]
  rfl

theorem bytes_record (ms : List (String × Json)) :
    bytes (.record ms) = 0x7b :: ([0x2c].intercalate (ms.map memberBytes) ++ [0x7d]) := by
  have hmember (m : String × Json) :
      (writeMember (some m.1, m.2)).flatMap String.utf8EncodeChar = memberBytes m := by
    simp [writeMember, writeText, memberBytes, bytes]
    rfl
  simp [bytes, record, write, writeMembers_eq, flatMap_commaSeparated, hmember, Function.comp_def]
  rfl

/-- What is written for a member, as a member of an object that is written. -/
def writtenMember (m : String × Json) : WrittenMember where
  name := m.1
  value := m.2
  beforeName := []
  spelledName := (m.1.toList.flatMap writeChar).flatMap String.utf8EncodeChar
  beforeColon := []
  spelledValue := bytes m.2

theorem isNamed_writtenMember (m : String × Json) : (writtenMember m).IsNamed :=
  ⟨by simp [writtenMember, IsBlank], textSpelled_writeText m.1, by simp [writtenMember, IsBlank]⟩

/-- What is written for a value spells it. -/
theorem spelled_bytes {j : Json} (hj : Writable j) : Spelled j (bytes j) := by
  induction hj with
  | null => exact .null
  | bool b =>
    cases b with
    | true => exact .true
    | false => exact .false
  | number x => exact .number (spelled_writeNumber x)
  | text s =>
    rw [bytes_text]
    exact .text (textSpelled_writeText s)
  | @array items _ ih =>
    rw [bytes_array]
    refine .array_of_forall₂ ?_
    rw [List.forall₂_map_right_iff, List.forall₂_same]
    exact ih
  | @object members _ ih =>
    have hobject := @Spelled.object (members.map writtenMember)
      (List.forall_mem_map.2 fun m _ => isNamed_writtenMember m) (List.forall_mem_map.2 ih)
    rw [List.map_map, List.map_map] at hobject
    rw [bytes_record]
    exact hobject

/-- **A value is read back from what is written for it.** -/
theorem parse?_render {j : Json} (hj : Writable j) : parse? (Utf8.encode j.render) = some j := by
  rw [encode_render]
  exact parse?_of_spelled (spelled_bytes hj)

end LedgerBridge.Json
