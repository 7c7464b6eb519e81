import LedgerBridge.Json.Record
import LedgerBridge.Proofs.Json.Continue

/-!
# Objects as they are written

* `IsToken v j`: the bytes of one value, with nothing around them;
* `Entry`: a member of an object as it is written, in any way and with white space around its parts;
* `splitShape?_objectText`: objects whose members are written so are taken apart into them;
* `Record.valuesOf_named`: the values that a record declares under one name are those of the members
  with that name.
-/

namespace LedgerBridge.Json

/-! ### Values -/

/-- The bytes of one value, with nothing around them. -/
structure IsToken (v : Bytes) (j : Json) : Prop where
  skip : skipSpace v = v
  read : readFront v = some (j, [])

theorem IsToken.parse?_eq {v : Bytes} {j : Json} (h : IsToken v j) : parse? v = some j := by
  rw [parse?, h.read]
  rfl

/-- A text in quotes. -/
theorem isToken_text {s : Bytes} {t : String} (h : readText s = some (some t, [])) :
    IsToken (0x22 :: s) (.str t) := by
  refine ⟨skipSpace_cons (by decide) s, ?_⟩
  rw [readFront, List.length_cons, readValue, skipSpace_cons (by decide)]
  simp only [if_true, h, Option.bind_eq_bind, Option.bind_some]
  rfl

/-- The bytes of a value are found among white space. -/
theorem IsToken.reads_spanFront {v front behind : Bytes} {j : Json} (h : IsToken v j)
    (hfront : IsBlank front) (hbehind : IsBlank behind) :
    Reads spanFront (front ++ (v ++ behind)) v := by
  intro rest hrest
  refine ⟨behind ++ rest, ?_, skipSpace_blank_append hbehind rest⟩
  have hne : skipSpace v ≠ [] := by
    rw [h.skip]
    rintro rfl
    cases h.read
  have hskip : skipSpace (front ++ (v ++ behind) ++ rest) = v ++ (behind ++ rest) := by
    rw [List.append_assoc, skipSpace_blank_append hfront, List.append_assoc,
      skipSpace_append hne, h.skip]
  have hread : readFront (v ++ (behind ++ rest)) = some (j, behind ++ rest) :=
    continues_readValue (by simp) h.read (ends_blank_append hbehind hrest)
  rw [spanFront, hskip]
  simp only [hread, Option.bind_eq_bind, Option.bind_some]
  simp

/-! ### Objects -/

/-- A member of an object as it is written. -/
structure Entry where
  name : String
  value : Json
  /-- What stands between the quotes of the name. -/
  spelledName : Bytes
  spelledValue : Bytes
  beforeName : Bytes := []
  beforeColon : Bytes := []
  beforeValue : Bytes := []
  behindValue : Bytes := []
  readText_name : readText (spelledName ++ [0x22]) = some (some name, [])
  isToken_value : IsToken spelledValue value
  isBlank_beforeName : IsBlank beforeName := by decide
  isBlank_beforeColon : IsBlank beforeColon := by decide
  isBlank_beforeValue : IsBlank beforeValue := by decide
  isBlank_behindValue : IsBlank behindValue := by decide

/-- The bytes of a member. -/
def Entry.text (e : Entry) : Bytes :=
  e.beforeName ++ 0x22 :: (e.spelledName ++ 0x22 :: (e.beforeColon ++ 0x3a ::
    (e.beforeValue ++ (e.spelledValue ++ e.behindValue))))

/-- The bytes of an object, with `behind` behind it. -/
def objectText (entries : List Entry) (behind : Bytes) : Bytes :=
  0x7b :: ([0x2c].intercalate (entries.map Entry.text) ++ 0x7d :: behind)

theorem Entry.reads_text (e : Entry) :
    Reads (readMember spanFront) e.text (some e.name, e.spelledValue) := by
  refine reads_member e.isBlank_beforeName e.isBlank_beforeColon (fun t => ?_)
    (e.isToken_value.reads_spanFront e.isBlank_beforeValue e.isBlank_behindValue)
  simpa using readText_append t e.readText_name

/-- **An object is taken apart into its members, however they are written.** -/
theorem splitShape?_objectText (entries : List Entry) {behind : Bytes} (h : IsBlank behind) :
    splitShape? (objectText entries behind) =
      some (.named (entries.map fun e => (some e.name, e.spelledValue))) := by
  have hmembers : List.Forall₂ (Reads (readMember spanFront)) (entries.map Entry.text)
      (entries.map fun e => (some e.name, e.spelledValue)) := by
    rw [List.forall₂_map_left_iff, List.forall₂_map_right_iff, List.forall₂_same]
    exact fun e _ => e.reads_text
  have hseries := readSeries_eq (.inr rfl) (isItem_readMember spanFront) hmembers behind
  have hobject : splitObject? (objectText entries behind) =
      some (entries.map fun e => (some e.name, e.spelledValue)) := by
    rw [splitObject?, readWhole, objectText, skipSpace_cons (by decide)]
    simp only [if_true, hseries, Option.bind_eq_bind, Option.bind_some, skipSpace_blank h]
    rfl
  have harray : splitArray? (objectText entries behind) = none := by
    rw [splitArray?, readWhole, objectText, skipSpace_cons (by decide)]
    rfl
  rw [splitShape?, hobject, harray]
  rfl

/-- A member that is declared under one name has the values given under that name. -/
theorem Record.valuesOf_named {V : Type} (name : String) (trailing : Bool)
    (members : List (Option String × V)) : valuesOf { names := [name], trailing } members =
      (members.filter fun m => m.1 = some name).map (·.2) := by
  induction members with
  | nil => rfl
  | cons m members ih =>
    have hm : m.1.any ([name].contains ·) = decide (m.1 = some name) := by
      cases m.1 <;> simp
    rw [valuesOf, List.filterMap_cons, hm, List.filter_cons]
    split_ifs with h
    · rw [List.map_cons, ← ih]
      rfl
    · exact ih

end LedgerBridge.Json
