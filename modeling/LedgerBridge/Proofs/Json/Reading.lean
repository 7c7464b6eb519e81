import Mathlib.Data.List.DropRight
import LedgerBridge.Proofs.Json.Number
import LedgerBridge.Proofs.Json.Text

/-!
# Reading JSON part by part

* `Reads read w a`: the reader takes the bytes `w` off the front of any input in which nothing goes
  on with them, up to white space, and gives `a`. White space around them does not matter
  (`Reads.padded`);
* `readSeries_eq`, `reads_member` and the `reads_` lemmas of each kind of value build readings of
  lists and objects out of those of their parts, so that every part may be spelled as it likes.
-/

namespace LedgerBridge.Json

variable {α : Type}

/-- The reader takes `w` off the front of an input, up to white space behind it, and gives `a`. -/
def Reads (read : Bytes → Option (α × Bytes)) (w : Bytes) (a : α) : Prop :=
  ∀ rest, Ends rest → ∃ r, read (w ++ rest) = some (a, r) ∧ skipSpace r = skipSpace rest

/-! ### White space -/

theorem skipSpace_cons {b : UInt8} (h : isSpace b = false) (r : Bytes) :
    skipSpace (b :: r) = b :: r := by
  simp [skipSpace, h]

theorem skipSpace_skipSpace (s : Bytes) : skipSpace (skipSpace s) = skipSpace s :=
  List.dropWhile_idempotent _ s

theorem skipSpace_append {s : Bytes} (h : skipSpace s ≠ []) (t : Bytes) :
    skipSpace (s ++ t) = skipSpace s ++ t := by
  rw [skipSpace, List.dropWhile_append, if_neg (by simpa [skipSpace] using h)]
  rfl

/-- White space, if anything. -/
def IsBlank (s : Bytes) : Prop := ∀ b ∈ s, isSpace b = true

instance : DecidablePred IsBlank := fun s => List.decidableBAll (fun b => isSpace b = true) s

section Blank

variable {gap : Bytes} (hgap : IsBlank gap)
include hgap

theorem skipSpace_blank_append (s : Bytes) : skipSpace (gap ++ s) = skipSpace s :=
  List.dropWhile_append_of_pos hgap

theorem skipSpace_blank : skipSpace gap = [] := by
  rw [← List.append_nil gap, skipSpace_blank_append hgap]
  rfl

theorem ends_blank_append {rest : Bytes} (h : Ends rest) : Ends (gap ++ rest) := by
  cases gap with
  | nil => exact h
  | cons b gap =>
    have hb := hgap b List.mem_cons_self
    simp only [isSpace, Bool.or_eq_true, decide_eq_true_eq] at hb
    refine ends_cons ?_
    rcases hb with ((rfl | rfl) | rfl) | rfl <;> decide

end Blank

/-- A reader that passes over white space reads what stands among it. -/
theorem Reads.padded {item : Bytes → Option (α × Bytes)} (hskip : ∀ s, item (skipSpace s) = item s)
    {w front behind : Bytes} {a : α} (h : Reads item w a) (hfront : IsBlank front)
    (hbehind : IsBlank behind) : Reads item (front ++ (w ++ behind)) a := by
  intro rest hrest
  obtain ⟨r, hread, hr⟩ := h (behind ++ rest) (ends_blank_append hbehind hrest)
  refine ⟨r, ?_, by rw [hr, skipSpace_blank_append hbehind]⟩
  rw [List.append_assoc, List.append_assoc, ← hskip, skipSpace_blank_append hfront, hskip, hread]

/-! ### Series -/

/-- A reader of the items of a series: it passes over white space, and finds none at the end of the
input nor at the closing mark. -/
structure IsItem (close : UInt8) (item : Bytes → Option (α × Bytes)) : Prop where
  skip (s : Bytes) : item (skipSpace s) = item s
  nil : item [] = none
  close (r : Bytes) : item (close :: r) = none

section Series

variable {close : UInt8} {item : Bytes → Option (α × Bytes)} (hclose : close = 0x5d ∨ close = 0x7d)
include hclose

theorem skipSpace_close (rest : Bytes) : skipSpace (close :: rest) = close :: rest := by
  rcases hclose with rfl | rfl <;> rfl

theorem ends_close (rest : Bytes) : Ends (close :: rest) := by
  rcases hclose with rfl | rfl <;> exact ends_cons (by decide)

theorem readItems_eq {w : Bytes} {ws : List Bytes} {a : α} {as : List α} (hw : Reads item w a)
    (hws : List.Forall₂ (Reads item) ws as) (before : List α) (rest : Bytes) {fuel : Nat}
    (hf : ([0x2c].intercalate (w :: ws) ++ close :: rest).length ≤ fuel) :
    readItems close item fuel before ([0x2c].intercalate (w :: ws) ++ close :: rest) =
      some (before.reverse ++ a :: as, rest) := by
  have hcomma : close ≠ 0x2c := by rcases hclose with rfl | rfl <;> decide
  induction hws generalizing w a before fuel with
  | nil =>
    rw [List.intercalate_singleton] at hf ⊢
    obtain ⟨fuel, rfl⟩ : ∃ k, fuel = k + 1 := ⟨fuel - 1, by simp at hf; omega⟩
    obtain ⟨r, hread, hr⟩ := hw _ (ends_close hclose rest)
    rw [skipSpace_close hclose] at hr
    rw [readItems, hread, Option.bind_eq_bind, Option.bind_some]
    simp [hr]
  | @cons v b vs bs hv _ ih =>
    rw [List.intercalate_cons_cons] at hf ⊢
    obtain ⟨fuel, rfl⟩ : ∃ k, fuel = k + 1 := ⟨fuel - 1, by simp at hf; omega⟩
    simp only [List.append_assoc, List.cons_append, List.nil_append] at hf ⊢
    -- the item leaves the comma, up to white space in front of it
    obtain ⟨r, hread, hr⟩ := hw (0x2c :: ([0x2c].intercalate (v :: vs) ++ close :: rest))
      (ends_cons (by decide))
    rw [skipSpace_cons (by decide)] at hr
    rw [readItems, hread, Option.bind_eq_bind, Option.bind_some]
    simp only [hr]
    rw [if_neg hcomma.symm, if_pos trivial, ih hv (a :: before)]
    · simp
    · simp only [List.length_append, List.length_cons] at hf ⊢
      omega

/-- Nothing but white space is a series without items. -/
theorem readSeries_blank {gap : Bytes} (hgap : IsBlank gap) (rest : Bytes) :
    readSeries close item (gap ++ close :: rest) = some ([], rest) := by
  unfold readSeries
  rw [skipSpace_blank_append hgap, skipSpace_close hclose]
  exact if_pos rfl

/-- A series whose items are read is read. -/
theorem readSeries_eq (hitem : IsItem close item) {ws : List Bytes} {as : List α}
    (hws : List.Forall₂ (Reads item) ws as) (rest : Bytes) :
    readSeries close item ([0x2c].intercalate ws ++ close :: rest) = some (as, rest) := by
  cases hws with
  | nil =>
    rw [List.intercalate_nil]
    exact readSeries_blank hclose (by simp [IsBlank]) rest
  | @cons w a ws as hw hws =>
    -- white space in front of the first item is passed over before it is looked at
    have hstart : skipSpace w ≠ [] := by
      intro hnil
      obtain ⟨r, hread, -⟩ := hw [] ends_nil
      rw [List.append_nil, ← hitem.skip, hnil, hitem.nil] at hread
      cases hread
    have hskip : Reads item (skipSpace w) a := by
      intro rest hrest
      obtain ⟨r, hread, hr⟩ := hw rest hrest
      refine ⟨r, ?_, hr⟩
      rw [← skipSpace_append hstart, hitem.skip, hread]
    have happend (w : Bytes) : ∃ tail, [0x2c].intercalate (w :: ws) ++ close :: rest = w ++ tail ∧
        ∀ v, [0x2c].intercalate (v :: ws) ++ close :: rest = v ++ tail := by
      cases ws with
      | nil => exact ⟨close :: rest, by simp, by simp⟩
      | cons v vs =>
        exact ⟨0x2c :: ([0x2c].intercalate (v :: vs) ++ close :: rest), by simp, by simp⟩
    obtain ⟨tail, hw', hv'⟩ := happend w
    rw [readSeries, hw', skipSpace_append hstart, ← hv' (skipSpace w)]
    obtain ⟨b, r, hbr⟩ := List.exists_cons_of_ne_nil hstart
    have hrun := readItems_eq hclose hskip hws [] rest le_rfl
    have hne : b ≠ close := by
      rintro rfl
      obtain ⟨r', hread, -⟩ := hskip [] ends_nil
      rw [List.append_nil, hbr, hitem.close] at hread
      cases hread
    rw [hv', hbr, List.cons_append] at hrun ⊢
    exact (if_neg hne).trans hrun

end Series

/-! ### Values -/

theorem isItem_readValue (fuel : Nat) : IsItem 0x5d (readValue fuel) := by
  cases fuel with
  | zero => exact ⟨fun _ => rfl, rfl, fun _ => rfl⟩
  | succ fuel =>
    refine ⟨fun s => ?_, rfl, fun r => ?_⟩
    · rw [readValue, readValue, skipSpace_skipSpace]
    · rw [readValue, skipSpace_cons (by decide)]
      rfl

theorem isItem_readMember (value : Bytes → Option (α × Bytes)) :
    IsItem 0x7d (readMember value) := by
  refine ⟨fun s => ?_, rfl, fun r => ?_⟩
  · rw [readMember, readMember, skipSpace_skipSpace]
  · rw [readMember, skipSpace_cons (by decide)]
    rfl

variable {fuel : Nat}

theorem reads_text {body : Bytes} {t : Option String}
    (h : ∀ rest, readText (body ++ 0x22 :: rest) = some (t, rest)) :
    Reads (readValue (fuel + 1)) (0x22 :: (body ++ [0x22])) (.text t) := by
  intro rest _
  refine ⟨rest, ?_, rfl⟩
  rw [List.cons_append, List.append_assoc, readValue, skipSpace_cons (by decide)]
  show (readText (body ++ 0x22 :: rest) >>= _) = _
  rw [h]
  rfl

theorem reads_array {inside : Bytes} {js : List Json}
    (h : ∀ rest, readSeries 0x5d (readValue fuel) (inside ++ 0x5d :: rest) = some (js, rest)) :
    Reads (readValue (fuel + 1)) (0x5b :: (inside ++ [0x5d])) (.array js) := by
  intro rest _
  refine ⟨rest, ?_, rfl⟩
  rw [List.cons_append, List.append_assoc, readValue, skipSpace_cons (by decide)]
  show (readSeries 0x5d (readValue fuel) (inside ++ 0x5d :: rest) >>= _) = _
  rw [h]
  rfl

/-- A member is its name, a colon and its value, with white space around the name. -/
theorem reads_member {value : Bytes → Option (α × Bytes)} {front spelled gap w : Bytes}
    {name : Option String} {v : α} (hfront : IsBlank front) (hgap : IsBlank gap)
    (hname : ∀ rest, readText (spelled ++ 0x22 :: rest) = some (name, rest))
    (hv : Reads value w v) :
    Reads (readMember value) (front ++ 0x22 :: (spelled ++ 0x22 :: (gap ++ 0x3a :: w)))
      (name, v) := by
  intro rest hrest
  obtain ⟨r, hread, hr⟩ := hv rest hrest
  refine ⟨r, ?_, hr⟩
  simp only [List.append_assoc, List.cons_append]
  rw [readMember, skipSpace_blank_append hfront, skipSpace_cons (by decide)]
  simp only [hname, Option.bind_eq_bind, Option.bind_some]
  rw [skipSpace_blank_append hgap, skipSpace_cons (by decide)]
  simp only [hread, Option.bind_some]
  rfl

theorem reads_object {inside : Bytes} {ms : List (Option String × Json)}
    (h : ∀ rest, readSeries 0x7d (readMember (readValue fuel)) (inside ++ 0x7d :: rest) =
      some (ms, rest)) :
    Reads (readValue (fuel + 1)) (0x7b :: (inside ++ [0x7d])) (.object ms) := by
  intro rest _
  refine ⟨rest, ?_, rfl⟩
  rw [List.cons_append, List.append_assoc, readValue, skipSpace_cons (by decide)]
  show (readSeries 0x7d (readMember (readValue fuel)) (inside ++ 0x7d :: rest) >>= _) = _
  rw [h]
  rfl

theorem reads_word {w : Bytes} {j : Json} (hw : w = [0x6e, 0x75, 0x6c, 0x6c] ∧ j = .null ∨
    w = [0x74, 0x72, 0x75, 0x65] ∧ j = .bool true ∨
    w = [0x66, 0x61, 0x6c, 0x73, 0x65] ∧ j = .bool false) : Reads (readValue (fuel + 1)) w j := by
  intro rest _
  refine ⟨rest, ?_, rfl⟩
  rcases hw with ⟨rfl, rfl⟩ | ⟨rfl, rfl⟩ | ⟨rfl, rfl⟩ <;>
  · simp only [List.cons_append, List.nil_append]
    rw [readValue, skipSpace_cons (by decide)]
    simp [readWord]

theorem reads_number {w : Bytes} {x : Number} (h : x.Spelled w) :
    Reads (readValue (fuel + 1)) w (.number x) := by
  intro rest hrest
  refine ⟨rest, ?_, rfl⟩
  have hread := readNumber_spelled h hrest
  obtain ⟨b, r, rfl, hb⟩ := h.exists_cons
  have hne (c : UInt8) (hc : isDigit c = false ∧ c ≠ 0x2d) : b ≠ c := by
    rintro rfl
    rcases hb with hb | hb
    · exact absurd hb (by simp [hc.1])
    · exact hc.2 hb
  have hspace : isSpace b = false := by
    simp [isSpace, hne 0x20 (by decide), hne 0x09 (by decide), hne 0x0a (by decide),
      hne 0x0d (by decide)]
  rw [List.cons_append] at hread ⊢
  rw [readValue, skipSpace_cons hspace]
  simp only [hne 0x22 (by decide), hne 0x5b (by decide), hne 0x7b (by decide), hne 0x74 (by decide),
    hne 0x66 (by decide), hne 0x6e (by decide), if_false, hread]
  rfl

end LedgerBridge.Json
