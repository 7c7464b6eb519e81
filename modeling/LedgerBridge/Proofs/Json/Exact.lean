import LedgerBridge.Proofs.Json.Continue
import LedgerBridge.Proofs.Text.Utf8

/-!
# Nothing but the grammar is read

* `Takes read P`: what the reader takes off the front of some bytes, stands there as `P` says;
* `takes_readValue`: what is read as a value is a spelling of it;
* `parse?_eq_some_iff`: the texts that are read as a value are its spellings. So no bytes spell two
  values (`Spelled.unique`).

A text is the part with an argument in it. Its bytes may be given one by one and as code units, and
only a character's own bytes, all of them, make the character: those behind the first one start none
(`exists_bytes_of_assembleFrom`).
-/

namespace LedgerBridge.Json

variable {α : Type}

/-- What the reader takes off the front of some bytes, stands there as the relation says. -/
def Takes (read : Bytes → Option (α × Bytes)) (P : α → Bytes → Prop) : Prop :=
  ∀ ⦃s : Bytes⦄ ⦃a : α⦄ ⦃r : Bytes⦄, read s = some (a, r) → ∃ w, s = w ++ r ∧ P a w

/-! ### Numbers -/

theorem digits_append_drop (s : Bytes) :
    s.takeWhile isDigit ++ s.drop (s.takeWhile isDigit).length = s := by
  have htake := List.prefix_iff_eq_take.1 (@List.takeWhile_prefix _ s isDigit)
  exact (congrArg (· ++ _) htake).trans (List.take_append_drop _ s)

theorem areDigits_takeWhile {s ds : Bytes} (h : s.takeWhile isDigit = ds) (hne : ds ≠ []) :
    AreDigits ds := by
  subst h
  exact ⟨hne, fun b hb => List.mem_takeWhile_imp hb⟩

theorem takes_readInteger : Takes readInteger fun ds w => w = ds ∧ IsInteger ds := by
  intro s ds r h
  unfold readInteger at h
  have hs := digits_append_drop s
  split at h
  · cases h
  · next d hd =>
    obtain ⟨rfl, rfl⟩ := Prod.mk.inj (Option.some.inj h)
    rw [hd] at hs
    exact ⟨[d], hs.symm, rfl, areDigits_takeWhile hd (List.cons_ne_nil _ _), by simp⟩
  · next d ds _ hd =>
    split_ifs at h with hzero
    obtain ⟨rfl, rfl⟩ := Prod.mk.inj (Option.some.inj h)
    rw [hd] at hs
    exact ⟨d :: ds, hs.symm, rfl, areDigits_takeWhile hd (List.cons_ne_nil _ _), by simp [hzero]⟩

theorem takes_readFraction : Takes readFraction FractionSpelled := by
  intro s ds r h
  unfold readFraction at h
  split at h
  · next s =>
    have hs := digits_append_drop s
    split at h
    · cases h
    · next hne =>
      obtain ⟨rfl, rfl⟩ := Prod.mk.inj (Option.some.inj h)
      exact ⟨_, congrArg (0x2e :: ·) hs.symm, .digits (areDigits_takeWhile rfl hne)⟩
  · obtain ⟨rfl, rfl⟩ := Prod.mk.inj (Option.some.inj h)
    exact ⟨[], rfl, .absent⟩

theorem exponentSign_cases (s : Bytes) : (∃ r, s = 0x2d :: r ∧ exponentSign s = (true, r)) ∨
    (∃ r, s = 0x2b :: r ∧ exponentSign s = (false, r)) ∨ exponentSign s = (false, s) := by
  unfold exponentSign
  split
  · next r => exact .inl ⟨r, rfl, rfl⟩
  · next r => exact .inr (.inl ⟨r, rfl, rfl⟩)
  · exact .inr (.inr rfl)

theorem takes_readExponent : Takes readExponent ExponentSpelled := by
  intro s e r h
  cases s with
  | nil =>
    obtain ⟨rfl, rfl⟩ := Prod.mk.inj (Option.some.inj h)
    exact ⟨[], rfl, .absent⟩
  | cons letter s =>
    rw [readExponent_cons] at h
    by_cases hletter : letter = 0x65 ∨ letter = 0x45
    · rw [if_pos hletter] at h
      have hs := digits_append_drop (exponentSign s).2
      split at h
      · cases h
      · next hne =>
        obtain ⟨rfl, rfl⟩ := Prod.mk.inj (Option.some.inj h)
        have hds := areDigits_takeWhile rfl hne
        rcases exponentSign_cases s with ⟨r, rfl, hsign⟩ | ⟨r, rfl, hsign⟩ | hsign
        · rw [hsign] at hs hds ⊢
          exact ⟨_, congrArg (letter :: 0x2d :: ·) hs.symm, .minus hletter hds⟩
        · rw [hsign] at hs hds ⊢
          exact ⟨_, congrArg (letter :: 0x2b :: ·) hs.symm, .plus hletter hds⟩
        · rw [hsign] at hs hds ⊢
          exact ⟨_, congrArg (letter :: ·) hs.symm, .unsigned hletter hds⟩
    · rw [if_neg hletter] at h
      obtain ⟨rfl, rfl⟩ := Prod.mk.inj (Option.some.inj h)
      exact ⟨[], rfl, .absent⟩

theorem takes_readUnsigned (negative : Bool) : Takes (readUnsigned negative) fun x w =>
    x.Spelled ((if negative then [0x2d] else []) ++ w) := by
  intro s x r h
  unfold readUnsigned at h
  obtain ⟨⟨ds, r1⟩, hwhole, h⟩ := Option.bind_eq_some_iff.1 h
  obtain ⟨⟨fs, r2⟩, hfraction, h⟩ := Option.bind_eq_some_iff.1 h
  obtain ⟨⟨e, r3⟩, hexponent, h⟩ := Option.bind_eq_some_iff.1 h
  obtain ⟨u, hs, hu, hds⟩ := takes_readInteger hwhole
  obtain ⟨w, hr1, hfs⟩ := takes_readFraction hfraction
  obtain ⟨v, hr2, he⟩ := takes_readExponent hexponent
  have hx : x = .ofParts negative ds fs e ∧ r = r3 := by
    unfold Number.ofParts
    simp only at h
    split_ifs at h ⊢ <;>
    · obtain ⟨rfl, rfl⟩ := Prod.mk.inj (Option.some.inj h)
      exact ⟨rfl, rfl⟩
  obtain ⟨rfl, rfl⟩ := hx
  refine ⟨ds ++ (w ++ v), ?_, .mk negative hds hfs he⟩
  rw [hs, hu, hr1, hr2, List.append_assoc, List.append_assoc]

theorem takes_readNumber : Takes readNumber Number.Spelled := by
  intro s x r h
  cases s with
  | nil => cases h
  | cons b s =>
    by_cases hb : b = 0x2d
    · subst hb
      obtain ⟨w, rfl, hw⟩ := takes_readUnsigned true h
      exact ⟨0x2d :: w, rfl, hw⟩
    · rw [readNumber_of_ne hb] at h
      exact takes_readUnsigned false h

/-! ### Texts -/

theorem assembleFrom_append (before more : Bytes) (ps : List Piece) :
    assembleFrom (before ++ more) ps = (assembleFrom before ps).map (more.reverse ++ ·) := by
  fun_induction assembleFrom before ps with
  | case1 before => simp [assembleFrom]
  | case2 before b r ih => rw [assembleFrom, ← ih, List.cons_append]
  | case3 before u r hlow =>
    rw [assembleFrom.eq_def]
    simp [hlow]
  | case4 before u hlow hhigh v r hv ih =>
    rw [assembleFrom.eq_def]
    simp [hlow, hhigh, hv, ← ih]
  | case5 before u hlow hhigh v r hv =>
    rw [assembleFrom.eq_def]
    simp [hlow, hhigh, hv]
  | case6 before u r hlow hhigh hr =>
    rw [assembleFrom.eq_def]
    simp [hlow, hhigh]
  | case7 before u r hlow hhigh ih =>
    rw [assembleFrom.eq_def]
    simp [hlow, hhigh, ← ih]

/-- Pieces behind some bytes make what they make alone. -/
theorem exists_of_assembleFrom {before x : Bytes} {ps : List Piece}
    (h : assembleFrom before ps = some x) : ∃ y, x = before.reverse ++ y ∧
      assembleFrom [] ps = some y := by
  rw [← List.nil_append before, assembleFrom_append, Option.map_eq_some_iff] at h
  obtain ⟨y, hy, rfl⟩ := h
  exact ⟨y, rfl, hy⟩

theorem lt_of_codeUnit? {h3 h2 h1 h0 : UInt8} {u : Nat} (h : codeUnit? h3 h2 h1 h0 = some u) :
    u < 0x10000 := by
  unfold codeUnit? at h
  obtain ⟨n3, h3, h⟩ := Option.bind_eq_some_iff.1 h
  obtain ⟨n2, h2, h⟩ := Option.bind_eq_some_iff.1 h
  obtain ⟨n1, h1, h⟩ := Option.bind_eq_some_iff.1 h
  obtain ⟨n0, h0, h⟩ := Option.bind_eq_some_iff.1 h
  obtain rfl := Option.some.inj h
  have := Hex.lt_of_value? h3
  have := Hex.lt_of_value? h2
  have := Hex.lt_of_value? h1
  have := Hex.lt_of_value? h0
  omega

/-- The units are those of four digits. -/
def AreUnits (ps : List Piece) : Prop := ∀ u, .unit u ∈ ps → u < 0x10000

theorem AreUnits.of_append {ps qs : List Piece} (h : AreUnits (ps ++ qs)) : AreUnits qs :=
  fun u hu => h u (List.mem_append_right ps hu)

theorem pieces_ofNat {u : Nat} (hu : u < 0x10000) (hlow : ¬ isLowSurrogate u)
    (hhigh : ¬ isHighSurrogate u) : Pieces (Char.ofNat u) [.unit u] := by
  have hchar : (Char.ofNat u).toNat = u := by
    simp only [isLowSurrogate, isHighSurrogate, Bool.and_eq_true, decide_eq_true_eq] at hlow hhigh
    rw [Char.ofNat, dif_pos (show u < 0xd800 ∨ 0xdfff < u ∧ u < 0x110000 by omega)]
    rfl
  have hpieces := @Pieces.unit (Char.ofNat u)
  rwa [hchar] at hpieces

/-- What makes bytes starts with a byte, or with the units of a character. -/
theorem assembleFrom_cases {ps : List Piece} {x : Bytes} (hunits : AreUnits ps)
    (h : assembleFrom [] ps = some x) : (ps = [] ∧ x = []) ∨
      (∃ b qs y, ps = [.byte b] ++ qs ∧ x = b :: y ∧ assembleFrom [] qs = some y) ∨
      ∃ c us qs y, ps = us ++ qs ∧ Pieces c us ∧ x = String.utf8EncodeChar c ++ y ∧
        assembleFrom [] qs = some y := by
  cases ps with
  | nil =>
    cases h
    exact .inl ⟨rfl, rfl⟩
  | cons p ps =>
    right
    cases p with
    | byte b =>
      rw [assembleFrom] at h
      obtain ⟨y, rfl, hy⟩ := exists_of_assembleFrom h
      exact .inl ⟨b, ps, y, rfl, rfl, hy⟩
    | unit u =>
      right
      rw [assembleFrom.eq_def] at h
      simp only at h
      split_ifs at h with hlow hhigh
      · split at h
        · next v qs =>
          split_ifs at h with hv
          obtain ⟨y, hx, hy⟩ := exists_of_assembleFrom h
          rw [List.append_nil, List.reverse_reverse] at hx
          exact ⟨pairChar u v, [.unit u, .unit v], qs, y, rfl, .pair hhigh hv rfl, hx, hy⟩
        · cases h
      · obtain ⟨y, hx, hy⟩ := exists_of_assembleFrom h
        rw [List.append_nil, List.reverse_reverse] at hx
        have hu := hunits u List.mem_cons_self
        exact ⟨Char.ofNat u, [.unit u], ps, y, rfl, pieces_ofNat hu hlow hhigh, hx, hy⟩

/-- Bytes that start no character are made by themselves. -/
theorem exists_bytes_of_assembleFrom {ps : List Piece} {tail x : Bytes} (hunits : AreUnits ps)
    (htail : ∀ b ∈ tail, ¬ b.IsUTF8FirstByte) (h : assembleFrom [] ps = some (tail ++ x)) :
    ∃ qs, ps = tail.map .byte ++ qs ∧ assembleFrom [] qs = some x := by
  induction tail generalizing ps with
  | nil => exact ⟨ps, rfl, h⟩
  | cons b tail ih =>
    obtain ⟨hb, htail⟩ := List.forall_mem_cons.1 htail
    rcases assembleFrom_cases hunits h with
      ⟨-, hx⟩ | ⟨b', qs, y, rfl, hx, hqs⟩ | ⟨c, us, qs, y, -, -, hx, -⟩
    · cases hx
    · obtain ⟨rfl, rfl⟩ := List.cons.inj hx
      obtain ⟨rest, rfl, hrest⟩ := ih hunits.of_append htail hqs
      exact ⟨rest, rfl, hrest⟩
    · obtain ⟨b', w, hw⟩ := List.exists_cons_of_ne_nil (@String.utf8EncodeChar_ne_nil c)
      have hfirst := @UInt8.isUTF8FirstByte_getElem_zero_utf8EncodeChar c
      simp only [hw, List.getElem_cons_zero] at hfirst
      rw [hw] at hx
      exact absurd ((List.cons.inj hx).1 ▸ hfirst) hb

theorem not_isUTF8FirstByte_of_mem_tail {c : Char} {b d : UInt8} {tail : Bytes}
    (hc : String.utf8EncodeChar c = b :: tail) (hd : d ∈ tail) : ¬ d.IsUTF8FirstByte := by
  obtain ⟨i, hi, rfl⟩ := List.getElem_of_mem hd
  have hfirst := @UInt8.isUTF8FirstByte_getElem_utf8EncodeChar c (i + 1) (by simpa [hc] using hi)
  simp only [hc, List.getElem_cons_succ] at hfirst
  simp [hfirst]

/-- What makes the bytes of characters is made of pieces of these characters. -/
theorem exists_pieces_of_assembleFrom {cs : List Char} {ps : List Piece} (hunits : AreUnits ps)
    (h : assembleFrom [] ps = some (cs.flatMap String.utf8EncodeChar)) :
    ∃ pss, List.Forall₂ Pieces cs pss ∧ pss.flatten = ps := by
  induction cs generalizing ps with
  | nil =>
    rcases assembleFrom_cases hunits h with
      ⟨rfl, -⟩ | ⟨b, qs, y, -, hx, -⟩ | ⟨c, us, qs, y, -, -, hx, -⟩
    · exact ⟨[], .nil, rfl⟩
    · cases hx
    · exact absurd (List.append_eq_nil_iff.1 hx.symm).1 String.utf8EncodeChar_ne_nil
  | cons c cs ih =>
    rw [List.flatMap_cons] at h
    obtain ⟨b, tail, hc⟩ := List.exists_cons_of_ne_nil (@String.utf8EncodeChar_ne_nil c)
    rcases assembleFrom_cases hunits h with
      ⟨-, hx⟩ | ⟨b', qs, y, rfl, hx, hqs⟩ | ⟨c', us, qs, y, rfl, hus, hx, hqs⟩
    · exact absurd (List.append_eq_nil_iff.1 hx).1 String.utf8EncodeChar_ne_nil
    · -- with its first byte, all bytes of the character are given one by one
      rw [hc, List.cons_append] at hx
      obtain ⟨rfl, rfl⟩ := List.cons.inj hx
      obtain ⟨rest, rfl, hrest⟩ := exists_bytes_of_assembleFrom hunits.of_append
        (fun d => not_isUTF8FirstByte_of_mem_tail hc) hqs
      obtain ⟨pss, hpss, rfl⟩ := ih hunits.of_append.of_append hrest
      refine ⟨(String.utf8EncodeChar c).map .byte :: pss, .cons .bytes hpss, ?_⟩
      rw [hc]
      rfl
    · -- the units are those of the character, as its bytes are in front
      have hhead : (String.ofList (c :: cs)).toList.head? = some c' :=
        Utf8.head?_of_encode_eq (by rw [Utf8.encode_ofList]; exact hx)
      obtain rfl : c = c' := by simpa using hhead
      rw [← List.append_cancel_left hx] at hqs
      obtain ⟨pss, hpss, rfl⟩ := ih hunits.of_append hqs
      exact ⟨us :: pss, .cons hus hpss, rfl⟩

theorem areUnits_of_spelled {ps : List Piece} {ws : List Bytes}
    (h : List.Forall₂ Piece.Spelled ps ws) : AreUnits ps := by
  intro u hu
  induction h with
  | nil => cases hu
  | cons hp _ ih =>
    rcases List.mem_cons.1 hu with rfl | hu
    · cases hp with
      | unit h => exact lt_of_codeUnit? h
    · exact ih hu

theorem takes_readText : Takes readText fun t w => ∃ v, w = v ++ [0x22] ∧ TextSpelled t v := by
  intro s t r h
  obtain ⟨⟨ps, r'⟩, hread, h⟩ := Option.bind_eq_some_iff.1 h
  obtain ⟨rfl, rfl⟩ := Prod.mk.inj (Option.some.inj h)
  obtain ⟨qs, ws, hps, hws, rfl⟩ := exists_spelled_of_readPiecesFrom hread
  obtain rfl : ps = qs := hps
  refine ⟨ws.flatten ++ [0x22], by simp, _, rfl, ?_⟩
  cases ht : assemble ps with
  | none => exact .broken hws ht
  | some t =>
    obtain ⟨x, hx, hdecode⟩ := Option.bind_eq_some_iff.1 ht
    rw [Utf8.decode?_eq_some_iff.1 hdecode] at hx
    obtain ⟨pss, hpss, rfl⟩ := exists_pieces_of_assembleFrom (areUnits_of_spelled hws) hx
    exact .chars hpss hws

/-! ### Series and members -/

theorem exists_blank_append_skipSpace (s : Bytes) : ∃ gap, IsBlank gap ∧ s = gap ++ skipSpace s :=
  ⟨s.takeWhile isSpace, fun _ hb => List.mem_takeWhile_imp hb, List.takeWhile_append_dropWhile.symm⟩

/-- White space may stand around what the relation relates. -/
structure AllowsBlank (P : α → Bytes → Prop) : Prop where
  front {a : α} {gap w : Bytes} (hgap : IsBlank gap) (h : P a w) : P a (gap ++ w)
  behind {a : α} {gap w : Bytes} (hgap : IsBlank gap) (h : P a w) : P a (w ++ gap)

theorem allowsBlank_spelled : AllowsBlank Spelled where
  front hgap h := by simpa using Spelled.blank hgap h (List.forall_mem_nil _)
  behind hgap h := .blank (List.forall_mem_nil _) h hgap

section Series

variable {close : UInt8} {item : Bytes → Option (α × Bytes)} {P : α → Bytes → Prop}
  (hitem : Takes item P) (hP : AllowsBlank P)
include hitem hP

theorem exists_spelled_of_readItems {fuel : Nat} {before as : List α} {s r : Bytes}
    (h : readItems close item fuel before s = some (as, r)) : ∃ a bs w ws,
      as = before.reverse ++ a :: bs ∧ P a w ∧ List.Forall₂ P bs ws ∧
        s = [0x2c].intercalate (w :: ws) ++ close :: r := by
  induction fuel generalizing before s with
  | zero => cases h
  | succ fuel ih =>
    rw [readItems] at h
    obtain ⟨⟨a, r'⟩, hread, h⟩ := Option.bind_eq_some_iff.1 h
    obtain ⟨w, hs, hw⟩ := hitem hread
    obtain ⟨gap, hgap, hr'⟩ := exists_blank_append_skipSpace r'
    -- white space up to the comma or the closing mark belongs to the item
    have hw := hP.behind hgap hw
    cases hskip : skipSpace r' with
    | nil =>
      simp only [hskip] at h
      cases h
    | cons b r'' =>
      simp only [hskip] at h hr'
      rw [hs, hr', ← List.append_assoc]
      split_ifs at h with hclose hcomma
      · obtain ⟨rfl, rfl⟩ := Prod.mk.inj (Option.some.inj h)
        refine ⟨a, [], w ++ gap, [], by simp, hw, .nil, ?_⟩
        rw [List.intercalate_singleton, hclose]
      · obtain ⟨a', bs, w', ws, rfl, hw', hws, rfl⟩ := ih h
        refine ⟨a, a' :: bs, w ++ gap, w' :: ws, by simp, hw, .cons hw' hws, ?_⟩
        rw [List.intercalate_cons_cons, hcomma]
        simp

/-- Between the marks of a series stands white space, or its items with commas between them. -/
theorem takes_readSeries : Takes (readSeries close item) fun as w => ∃ v, w = v ++ [close] ∧
    (as = [] ∧ IsBlank v ∨ ∃ ws, List.Forall₂ P as ws ∧ v = [0x2c].intercalate ws) := by
  intro s as r h
  obtain ⟨gap, hgap, hs⟩ := exists_blank_append_skipSpace s
  unfold readSeries at h
  cases hskip : skipSpace s with
  | nil =>
    rw [hskip] at h
    cases h
  | cons b r' =>
    rw [hskip] at h hs
    simp only at h
    split_ifs at h with hclose
    · obtain ⟨rfl, rfl⟩ := Prod.mk.inj (Option.some.inj h)
      exact ⟨gap ++ [close], by simp [hs, hclose], gap, rfl, .inl ⟨rfl, hgap⟩⟩
    · obtain ⟨a, bs, w, ws, rfl, hw, hws, hrest⟩ := exists_spelled_of_readItems hitem hP h
      refine ⟨[0x2c].intercalate ((gap ++ w) :: ws) ++ [close], ?_, _, rfl,
        .inr ⟨_, .cons (hP.front hgap hw) hws, rfl⟩⟩
      rw [hs, hrest]
      cases ws <;> simp

end Series

/-- A member that stands among white space, and whose value is spelled. -/
def MemberSpelled (p : Option String × Json) (w : Bytes) : Prop :=
  ∃ m : WrittenMember, m.member = p ∧ m.bytes = w ∧ m.IsNamed ∧ Spelled m.value m.spelledValue

theorem allowsBlank_memberSpelled : AllowsBlank MemberSpelled where
  front := by
    rintro _ gap _ hgap ⟨m, rfl, rfl, ⟨hfront, htext, hcolon⟩, hvalue⟩
    refine ⟨{ m with beforeName := gap ++ m.beforeName }, rfl, ?_, ⟨?_, htext, hcolon⟩, hvalue⟩
    · simp [WrittenMember.bytes]
    · exact List.forall_mem_append.2 ⟨hgap, hfront⟩
  behind := by
    rintro _ gap _ hgap ⟨m, rfl, rfl, ⟨hfront, htext, hcolon⟩, hvalue⟩
    refine ⟨{ m with spelledValue := m.spelledValue ++ gap }, rfl, ?_, ⟨hfront, htext, hcolon⟩,
      allowsBlank_spelled.behind hgap hvalue⟩
    simp [WrittenMember.bytes]

theorem takes_readMember {value : Bytes → Option (Json × Bytes)} (h : Takes value Spelled) :
    Takes (readMember value) MemberSpelled := by
  intro s p r hread
  obtain ⟨front, hfront, hs⟩ := exists_blank_append_skipSpace s
  unfold readMember at hread
  split at hread
  · next r1 hname =>
    obtain ⟨⟨name, r2⟩, htext, hread⟩ := Option.bind_eq_some_iff.1 hread
    obtain ⟨_, hr1, w, rfl, hw⟩ := takes_readText htext
    obtain ⟨gap, hgap, hr2⟩ := exists_blank_append_skipSpace r2
    simp only at hread
    split at hread
    · next r3 hcolon =>
      obtain ⟨⟨v, r4⟩, hvalue, hread⟩ := Option.bind_eq_some_iff.1 hread
      obtain ⟨rfl, rfl⟩ := Prod.mk.inj (Option.some.inj hread)
      obtain ⟨u, hr3, hu⟩ := h hvalue
      refine ⟨_, ?_, ⟨name, v, front, w, gap, u⟩, rfl, rfl, ⟨hfront, hw, hgap⟩, hu⟩
      rw [hs, hname, hr1, hr2, hcolon, hr3]
      simp [WrittenMember.bytes]
    · cases hread
  · cases hread

theorem Spelled.object_of_forall₂ {ps : List (Option String × Json)} {ws : List Bytes}
    (h : List.Forall₂ MemberSpelled ps ws) :
    Spelled (.object ps) (0x7b :: ([0x2c].intercalate ws ++ [0x7d])) := by
  have hmembers : ∃ ms : List WrittenMember, ms.map (·.member) = ps ∧ ms.map (·.bytes) = ws ∧
      ∀ m ∈ ms, m.IsNamed ∧ Spelled m.value m.spelledValue := by
    induction h with
    | nil => exact ⟨[], rfl, rfl, by simp⟩
    | cons hm _ ih =>
      obtain ⟨m, rfl, rfl, hm⟩ := hm
      obtain ⟨ms, rfl, rfl, hms⟩ := ih
      exact ⟨m :: ms, rfl, rfl, List.forall_mem_cons.2 ⟨hm, hms⟩⟩
  obtain ⟨ms, rfl, rfl, hms⟩ := hmembers
  exact .object (fun m hm => (hms m hm).1) fun m hm => (hms m hm).2

/-! ### Values -/

theorem eq_append_of_readWord {word s r : Bytes} {a b : α}
    (h : (readWord word s >>= fun r => some (b, r)) = some (a, r)) : b = a ∧ s = word ++ r := by
  obtain ⟨r', hread, h⟩ := Option.bind_eq_some_iff.1 h
  obtain ⟨rfl, rfl⟩ := Prod.mk.inj (Option.some.inj h)
  unfold readWord at hread
  split_ifs at hread with hword
  rw [List.isPrefixOf_iff_prefix] at hword
  obtain ⟨t, rfl⟩ := hword
  obtain rfl := Option.some.inj hread
  simp

/-- What is read as a value spells it. -/
theorem takes_readValue (fuel : Nat) : Takes (readValue fuel) Spelled := by
  induction fuel with
  | zero =>
    intro s j r h
    cases h
  | succ fuel ih =>
    intro s j r h
    obtain ⟨gap, hgap, hs⟩ := exists_blank_append_skipSpace s
    -- white space in front belongs to the value
    suffices ∃ w, skipSpace s = w ++ r ∧ Spelled j w by
      obtain ⟨w, hw, hj⟩ := this
      exact ⟨gap ++ w, by rw [hs, hw, List.append_assoc], allowsBlank_spelled.front hgap hj⟩
    rw [readValue] at h
    cases hskip : skipSpace s with
    | nil =>
      rw [hskip] at h
      cases h
    | cons b s' =>
      rw [hskip] at h
      simp only at h
      split_ifs at h with htext harray hobject htrue hfalse hnull
      · obtain ⟨⟨t, r'⟩, hread, h⟩ := Option.bind_eq_some_iff.1 h
        obtain ⟨rfl, rfl⟩ := Prod.mk.inj (Option.some.inj h)
        obtain ⟨_, rfl, w, rfl, hw⟩ := takes_readText hread
        exact ⟨_, by simp [htext], .text hw⟩
      · obtain ⟨⟨items, r'⟩, hread, h⟩ := Option.bind_eq_some_iff.1 h
        obtain ⟨rfl, rfl⟩ := Prod.mk.inj (Option.some.inj h)
        obtain ⟨_, rfl, w, rfl, hw⟩ := takes_readSeries ih allowsBlank_spelled hread
        refine ⟨0x5b :: (w ++ [0x5d]), by simp [harray], ?_⟩
        rcases hw with ⟨rfl, hblank⟩ | ⟨ws, hws, rfl⟩
        · exact .emptyArray hblank
        · exact .array_of_forall₂ hws
      · obtain ⟨⟨members, r'⟩, hread, h⟩ := Option.bind_eq_some_iff.1 h
        obtain ⟨rfl, rfl⟩ := Prod.mk.inj (Option.some.inj h)
        obtain ⟨_, rfl, w, rfl, hw⟩ :=
          takes_readSeries (takes_readMember ih) allowsBlank_memberSpelled hread
        refine ⟨0x7b :: (w ++ [0x7d]), by simp [hobject], ?_⟩
        rcases hw with ⟨rfl, hblank⟩ | ⟨ws, hws, rfl⟩
        · exact .emptyObject hblank
        · exact .object_of_forall₂ hws
      · obtain ⟨rfl, rfl⟩ := eq_append_of_readWord h
        exact ⟨_, by rw [htrue]; rfl, .true⟩
      · obtain ⟨rfl, rfl⟩ := eq_append_of_readWord h
        exact ⟨_, by rw [hfalse]; rfl, .false⟩
      · obtain ⟨rfl, rfl⟩ := eq_append_of_readWord h
        exact ⟨_, by rw [hnull]; rfl, .null⟩
      · obtain ⟨⟨x, r'⟩, hread, h⟩ := Option.bind_eq_some_iff.1 h
        obtain ⟨rfl, rfl⟩ := Prod.mk.inj (Option.some.inj h)
        obtain ⟨w, hw, hx⟩ := takes_readNumber hread
        exact ⟨w, hw, .number hx⟩

/-- **The reader reads the grammar and nothing else**: a text is read as a value if and only if it
spells that value. -/
theorem parse?_eq_some_iff {w : Bytes} {j : Json} : parse? w = some j ↔ Spelled j w := by
  refine ⟨fun h => ?_, parse?_of_spelled⟩
  obtain ⟨⟨j', r⟩, hread, h⟩ := Option.bind_eq_some_iff.1 h
  simp only at h
  split_ifs at h with hr
  obtain rfl := Option.some.inj h
  obtain ⟨w, rfl, hw⟩ := takes_readValue _ hread
  obtain ⟨gap, hgap, hgap'⟩ := exists_blank_append_skipSpace r
  rw [hr, List.append_nil] at hgap'
  exact allowsBlank_spelled.behind (hgap' ▸ hgap) hw

/-- No bytes spell two values. -/
theorem Spelled.unique {w : Bytes} {j j' : Json} (h : Spelled j w) (h' : Spelled j' w) : j = j' :=
  Option.some.inj ((parse?_of_spelled h).symm.trans (parse?_of_spelled h'))

end LedgerBridge.Json
