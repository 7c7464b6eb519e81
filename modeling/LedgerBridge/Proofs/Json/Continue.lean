import LedgerBridge.Proofs.Json.RoundTrip

/-!
# Values in front of more text

A value that is read off some bytes is read alike off longer ones, unless a number goes on behind
it.

* `Continues read read'`: what `read` takes off some bytes, `read'` takes off more of them. A reader
  of values with more fuel continues one with less (`continues_readValue`);
* `exists_spelled_of_readPiecesFrom`: a text that is read stands there spelled.
-/

namespace LedgerBridge.Json

variable {α : Type}

/-- What the first reader takes off some bytes, the second one takes off them when more follow that
do not go on with a number. -/
def Continues (read read' : Bytes → Option (α × Bytes)) : Prop :=
  ∀ ⦃s : Bytes⦄ ⦃a : α⦄ ⦃r rest : Bytes⦄, read s = some (a, r) → Ends rest →
    read' (s ++ rest) = some (a, r ++ rest)

theorem Continues.map {β : Type} {read read' : Bytes → Option (α × Bytes)}
    (h : Continues read read') (f : α → β) :
    Continues (fun s => do let (a, r) ← read s; return (f a, r))
      (fun s => do let (a, r) ← read' s; return (f a, r)) := by
  intro s b r rest hmap hrest
  obtain ⟨⟨a, r'⟩, hread, hb⟩ := Option.bind_eq_some_iff.1 hmap
  obtain ⟨rfl, rfl⟩ := Prod.mk.inj (Option.some.inj hb)
  simp only [h hread hrest, Option.bind_eq_bind, Option.bind_some]
  rfl

/-! ### Numbers -/

theorem takeWhile_isDigit_append (s : Bytes) {rest : Bytes} (h : Ends rest) :
    (s ++ rest).takeWhile isDigit = s.takeWhile isDigit := by
  induction s with
  | nil =>
    cases rest with
    | nil => rfl
    | cons b r => simp [(h b rfl).1]
  | cons b s ih => simp only [List.cons_append, List.takeWhile_cons, ih]

/-- What stands behind the digits in front. -/
theorem drop_length_takeWhile {s ds : Bytes} (h : s.takeWhile isDigit = ds) (rest : Bytes) :
    (s ++ rest).drop ds.length = s.drop ds.length ++ rest := by
  subst h
  exact List.drop_append_of_le_length (List.takeWhile_prefix isDigit).length_le

theorem continues_readInteger : Continues readInteger readInteger := by
  intro s ds r rest h hrest
  unfold readInteger at h ⊢
  rw [takeWhile_isDigit_append s hrest]
  split at h
  · cases h
  · next d hd =>
    obtain ⟨rfl, rfl⟩ := Prod.mk.inj (Option.some.inj h)
    exact congrArg some (Prod.ext rfl (drop_length_takeWhile hd rest))
  · next d ds _ hd =>
    split_ifs at h with hzero
    obtain ⟨rfl, rfl⟩ := Prod.mk.inj (Option.some.inj h)
    rw [if_neg hzero]
    exact congrArg some (Prod.ext rfl (drop_length_takeWhile hd rest))

theorem continues_readFraction : Continues readFraction readFraction := by
  intro s ds r rest h hrest
  unfold readFraction at h
  split at h
  · next s =>
    rw [List.cons_append, readFraction, takeWhile_isDigit_append s hrest]
    split at h
    · cases h
    · next hds =>
      obtain ⟨rfl, rfl⟩ := Prod.mk.inj (Option.some.inj h)
      exact congrArg some (Prod.ext rfl (drop_length_takeWhile rfl rest))
  · next hpoint =>
    obtain ⟨rfl, rfl⟩ := Prod.mk.inj (Option.some.inj h)
    refine readFraction_of_head fun b hb => ?_
    cases s with
    | nil => exact (hrest b hb).2.1
    | cons c s =>
      rintro rfl
      obtain rfl := Option.some.inj hb
      exact hpoint s rfl

/-- The sign of an exponent, if it has one, and what stands behind it. -/
def exponentSign (s : Bytes) : Bool × Bytes :=
  match s with
  | 0x2d :: r => (true, r)
  | 0x2b :: r => (false, r)
  | _ => (false, s)

theorem readExponent_cons (e : UInt8) (s : Bytes) : readExponent (e :: s) =
    if e = 0x65 ∨ e = 0x45 then
      match (exponentSign s).2.takeWhile isDigit with
      | [] => none
      | ds => some (
        some (if (exponentSign s).1 then -(digitsValue 0 ds : Int) else digitsValue 0 ds),
          (exponentSign s).2.drop ds.length)
    else some (none, e :: s) := rfl

theorem exponentSign_append {s : Bytes} (h : s ≠ []) (rest : Bytes) :
    exponentSign (s ++ rest) = ((exponentSign s).1, (exponentSign s).2 ++ rest) := by
  obtain ⟨c, s, rfl⟩ := List.exists_cons_of_ne_nil h
  by_cases hminus : c = 0x2d
  · subst hminus
    rfl
  by_cases hplus : c = 0x2b
  · subst hplus
    rfl
  have hnone (r : Bytes) : exponentSign (c :: r) = (false, c :: r) := by
    unfold exponentSign
    split
    · next heq => exact absurd (List.cons.inj heq).1 hminus
    · next heq => exact absurd (List.cons.inj heq).1 hplus
    · rfl
  rw [List.cons_append, hnone, hnone, List.cons_append]

theorem continues_readExponent : Continues readExponent readExponent := by
  intro s a r rest h hrest
  cases s with
  | nil =>
    obtain ⟨rfl, rfl⟩ := Prod.mk.inj (Option.some.inj h)
    exact readExponent_of_ends hrest
  | cons e s =>
    rw [readExponent_cons] at h
    rw [List.cons_append, readExponent_cons]
    by_cases he : e = 0x65 ∨ e = 0x45
    · rw [if_pos he] at h ⊢
      have hs : s ≠ [] := by
        rintro rfl
        cases h
      rw [exponentSign_append hs, takeWhile_isDigit_append _ hrest]
      split at h
      · cases h
      · obtain ⟨rfl, rfl⟩ := Prod.mk.inj (Option.some.inj h)
        exact congrArg some (Prod.ext rfl (drop_length_takeWhile rfl rest))
    · rw [if_neg he] at h ⊢
      obtain ⟨rfl, rfl⟩ := Prod.mk.inj (Option.some.inj h)
      rfl

theorem continues_readUnsigned (negative : Bool) :
    Continues (readUnsigned negative) (readUnsigned negative) := by
  intro s x r rest h hrest
  unfold readUnsigned at h ⊢
  obtain ⟨⟨whole, r1⟩, hwhole, h⟩ := Option.bind_eq_some_iff.1 h
  obtain ⟨⟨fraction, r2⟩, hfraction, h⟩ := Option.bind_eq_some_iff.1 h
  obtain ⟨⟨exponent, r3⟩, hexponent, h⟩ := Option.bind_eq_some_iff.1 h
  simp only [continues_readInteger hwhole hrest, continues_readFraction hfraction hrest,
    continues_readExponent hexponent hrest, Option.bind_eq_bind, Option.bind_some]
  simp only at h
  split_ifs at h ⊢ <;>
  · obtain ⟨rfl, rfl⟩ := Prod.mk.inj (Option.some.inj h)
    rfl

theorem readNumber_of_ne {b : UInt8} (hb : b ≠ 0x2d) (s : Bytes) :
    readNumber (b :: s) = readUnsigned false (b :: s) := by
  unfold readNumber
  split
  · next heq => exact absurd (List.cons.inj heq).1 hb
  · rfl

theorem continues_readNumber : Continues readNumber readNumber := by
  intro s x r rest h hrest
  cases s with
  | nil => cases h
  | cons b s =>
    by_cases hb : b = 0x2d
    · subst hb
      exact continues_readUnsigned true h hrest
    · rw [readNumber_of_ne hb] at h
      rw [List.cons_append, readNumber_of_ne hb]
      exact continues_readUnsigned false h hrest

/-! ### Texts and words -/

/-- The pieces that are read stand there spelled, up to the closing quote. -/
theorem exists_spelled_of_readPiecesFrom {before ps : List Piece} {s r : Bytes}
    (h : readPiecesFrom before s = some (ps, r)) : ∃ qs ws, ps = before.reverse ++ qs ∧
      List.Forall₂ Piece.Spelled qs ws ∧ s = ws.flatten ++ 0x22 :: r := by
  have hcons {before : List Piece} {s w : Bytes} {p : Piece} (hp : p.Spelled w)
      (h : ∃ qs ws, ps = (p :: before).reverse ++ qs ∧ List.Forall₂ Piece.Spelled qs ws ∧
        s = ws.flatten ++ 0x22 :: r) :
      ∃ qs ws, ps = before.reverse ++ qs ∧ List.Forall₂ Piece.Spelled qs ws ∧
        w ++ s = ws.flatten ++ 0x22 :: r := by
    obtain ⟨qs, ws, rfl, hws, rfl⟩ := h
    exact ⟨p :: qs, w :: ws, by simp, .cons hp hws, by simp⟩
  fun_induction readPiecesFrom before s with
  | case2 before s =>
    obtain ⟨rfl, rfl⟩ := Prod.mk.inj (Option.some.inj h)
    exact ⟨[], [], by simp, .nil, rfl⟩
  | case4 before b s hquote hcontrol hslash ih =>
    exact hcons (.plain hcontrol hquote hslash) (ih h)
  | case6 before b hquote hcontrol hslash h3 h2 h1 h0 s u hunit ih =>
    obtain rfl := not_not.1 hslash
    exact hcons (.unit hunit) (ih h)
  | case9 before b hquote hcontrol hslash letter s hletter e hescape ih =>
    obtain rfl := not_not.1 hslash
    exact hcons (.escape hescape) (ih h)
  | _ => cases h

theorem readText_append {s r : Bytes} {t : Option String} (rest : Bytes)
    (h : readText s = some (t, r)) : readText (s ++ rest) = some (t, r ++ rest) := by
  obtain ⟨⟨ps, r'⟩, hread, h⟩ := Option.bind_eq_some_iff.1 h
  obtain ⟨rfl, rfl⟩ := Prod.mk.inj (Option.some.inj h)
  obtain ⟨qs, ws, hps, hws, rfl⟩ := exists_spelled_of_readPiecesFrom hread
  rw [List.append_assoc, List.cons_append, readText, readPieces_spelled hws, hps]
  rfl

theorem continues_readText : Continues readText readText :=
  fun _ _ _ rest h _ => readText_append rest h

theorem readWord_bind_append {word s r : Bytes} {a : α} (b : α) (rest : Bytes)
    (h : (readWord word s >>= fun r => some (b, r)) = some (a, r)) :
    (readWord word (s ++ rest) >>= fun r => some (b, r)) = some (a, r ++ rest) := by
  obtain ⟨r', hread, h⟩ := Option.bind_eq_some_iff.1 h
  obtain ⟨rfl, rfl⟩ := Prod.mk.inj (Option.some.inj h)
  unfold readWord at hread ⊢
  split_ifs at hread with hword
  rw [List.isPrefixOf_iff_prefix] at hword
  obtain ⟨t, rfl⟩ := hword
  obtain rfl := Option.some.inj hread
  rw [List.append_assoc, if_pos (List.isPrefixOf_iff_prefix.2 (List.prefix_append _ _))]
  simp

/-! ### Series and members -/

theorem skipSpace_append_of_cons {s r : Bytes} {b : UInt8} (h : skipSpace s = b :: r)
    (rest : Bytes) : skipSpace (s ++ rest) = b :: (r ++ rest) := by
  rw [skipSpace_append (by rw [h]; exact List.cons_ne_nil _ _), h, List.cons_append]

section Series

variable {close : UInt8} {item item' : Bytes → Option (α × Bytes)} (hitem : Continues item item')
include hitem

theorem continues_readItems {fuel fuel' : Nat} (hf : fuel ≤ fuel') (before : List α) :
    Continues (readItems close item fuel before) (readItems close item' fuel' before) := by
  intro s as r rest h hrest
  induction fuel generalizing fuel' before s with
  | zero => cases h
  | succ fuel ih =>
    obtain ⟨fuel', rfl⟩ : ∃ k, fuel' = k + 1 := ⟨fuel' - 1, by omega⟩
    rw [readItems] at h ⊢
    obtain ⟨⟨a, r'⟩, hread, h⟩ := Option.bind_eq_some_iff.1 h
    rw [hitem hread hrest, Option.bind_eq_bind, Option.bind_some]
    cases hskip : skipSpace r' with
    | nil =>
      simp only [hskip] at h
      cases h
    | cons b r'' =>
      simp only [hskip] at h
      simp only [skipSpace_append_of_cons hskip]
      split_ifs at h ⊢
      · obtain ⟨rfl, rfl⟩ := Prod.mk.inj (Option.some.inj h)
        rfl
      · exact ih (Nat.le_of_succ_le_succ hf) (a :: before) h

theorem continues_readSeries : Continues (readSeries close item) (readSeries close item') := by
  intro s as r rest h hrest
  unfold readSeries at h ⊢
  cases hskip : skipSpace s with
  | nil =>
    rw [hskip] at h
    cases h
  | cons b r' =>
    rw [skipSpace_append_of_cons hskip]
    rw [hskip] at h
    simp only at h ⊢
    split_ifs at h ⊢
    · obtain ⟨rfl, rfl⟩ := Prod.mk.inj (Option.some.inj h)
      rfl
    · exact continues_readItems hitem (by simp) [] h hrest

theorem continues_readMember : Continues (readMember item) (readMember item') := by
  intro s m r rest h hrest
  unfold readMember at h
  split at h
  · next r1 hname =>
    obtain ⟨⟨name, r2⟩, htext, h⟩ := Option.bind_eq_some_iff.1 h
    simp only at h
    split at h
    · next r3 hcolon =>
      obtain ⟨⟨v, r4⟩, hvalue, h⟩ := Option.bind_eq_some_iff.1 h
      obtain ⟨rfl, rfl⟩ := Prod.mk.inj (Option.some.inj h)
      rw [readMember, skipSpace_append_of_cons hname]
      simp only [readText_append rest htext, Option.bind_eq_bind, Option.bind_some]
      rw [skipSpace_append_of_cons hcolon]
      simp only [hitem hvalue hrest, Option.bind_some]
      rfl
    · cases h
  · cases h

end Series

/-! ### Values -/

/-- A reader with at least as much fuel reads the same value. -/
theorem continues_readValue {fuel fuel' : Nat} (hf : fuel ≤ fuel') :
    Continues (readValue fuel) (readValue fuel') := by
  induction fuel generalizing fuel' with
  | zero =>
    intro s j r rest h
    cases h
  | succ fuel ih =>
    obtain ⟨fuel', rfl⟩ : ∃ k, fuel' = k + 1 := ⟨fuel' - 1, by omega⟩
    have hitem := ih (Nat.le_of_succ_le_succ hf)
    intro s j r rest h hrest
    rw [readValue] at h ⊢
    cases hskip : skipSpace s with
    | nil =>
      rw [hskip] at h
      cases h
    | cons b s' =>
      rw [skipSpace_append_of_cons hskip]
      rw [hskip] at h
      simp only at h ⊢
      split_ifs at h ⊢
      · exact continues_readText.map Json.text h hrest
      · exact (continues_readSeries hitem).map Json.array h hrest
      · exact (continues_readSeries (continues_readMember hitem)).map Json.object h hrest
      · exact readWord_bind_append _ rest h
      · exact readWord_bind_append _ rest h
      · exact readWord_bind_append _ rest h
      · rw [← List.cons_append]
        exact continues_readNumber.map Json.number h hrest

end LedgerBridge.Json
