import LedgerBridge.Proofs.Protobuf.RoundTrip

/-!
# The grammar of the wire

What the bytes of a field are, whatever a message makes of it: a key, and a value whose shape the
key tells.

* `IsVarint`, `IsKey`, `IsValue` and `IsField` are the grammar. A varint need not be the shortest
  of its number;
* the readers accept it and nothing else (`readVarint_eq_ok_iff`, `readKey_eq_ok_iff`,
  `readDelimited_eq_ok`, `skipField_eq_ok`), so that no value is the front of another one
  (`IsValue.eq_of_append_eq`);
* `IsVarint.length_writeVarint_le` and `length_writeVarint_add_le` bound what is written for a
  number by what was read.
-/

namespace LedgerBridge.Protobuf

variable {β : Type}

/-- A reader is told by the front of its input what to take. -/
theorem Reads.unique {read : Bytes → Except DecodeError (β × Bytes)} {v w x y : Bytes} {b c : β}
    (hv : Reads read v b) (hw : Reads read w c) (h : v ++ x = w ++ y) : v = w ∧ b = c ∧ x = y := by
  have heq := hv x
  rw [h, hw y] at heq
  obtain ⟨rfl, rfl⟩ := Prod.mk.inj (Except.ok.inj heq)
  exact ⟨List.append_cancel_right h, rfl, rfl⟩

/-! ### Varints -/

/-- Digits in base 128, the least significant first, with the number they spell. All but the last
have the top bit. -/
inductive Digits : Bytes → Nat → Prop
  | last {b : UInt8} (h : b < 0x80) : Digits [b] b.toNat
  | more {b : UInt8} {w : Bytes} {n : Nat} (h : ¬ b < 0x80) (rest : Digits w n) :
      Digits (b :: w) (b.toNat % 128 + 128 * n)

/-- A varint of a number of 64 bits. -/
structure IsVarint (w : Bytes) (n : Nat) : Prop where
  digits : Digits w n
  length_le : w.length ≤ 10
  lt : n < UInt64.size

theorem Digits.length_pos {w : Bytes} {n : Nat} (h : Digits w n) : 0 < w.length := by
  cases h <;> exact Nat.succ_pos _

theorem Digits.readVarintWithin_eq {w : Bytes} {n : Nat} (h : Digits w n) {left : Nat}
    (hlen : w.length ≤ left + 1) (hn : n < varintBound left) (rest : Bytes) :
    readVarintWithin (left + 1) (w ++ rest) = .ok (n, rest) := by
  induction h generalizing left with
  | @last b h =>
    have hlast : ¬ (left = 0 ∧ 1 < b) := by
      rintro ⟨rfl, hb⟩
      rw [varintBound] at hn
      rw [UInt8.lt_iff_toNat_lt] at hb
      simp only [UInt8.reduceToNat] at hb
      omega
    rw [List.singleton_append, readVarintWithin, if_pos h, if_neg hlast]
  | @more b w n h hw ih =>
    have hpos := hw.length_pos
    rw [List.length_cons] at hlen
    obtain ⟨left, rfl⟩ : ∃ k, left = k + 1 := ⟨left - 1, by omega⟩
    rw [varintBound] at hn
    rw [List.cons_append, readVarintWithin, if_neg h, ih (by omega) (by omega)]
    rfl

theorem two_le_varintBound (left : Nat) : 2 ≤ varintBound left := by
  induction left with
  | zero => exact le_rfl
  | succ left ih =>
    rw [varintBound]
    omega

theorem toNat_lt_varintBound {left : Nat} {b : UInt8} (hb : b < 0x80)
    (hlast : ¬ (left = 0 ∧ 1 < b)) : b.toNat < varintBound left := by
  rw [UInt8.lt_iff_toNat_lt] at hb hlast
  simp only [UInt8.reduceToNat] at hb hlast
  cases left with
  | zero =>
    rw [varintBound]
    omega
  | succ left =>
    have hbound := two_le_varintBound left
    rw [varintBound]
    omega

/-- By induction on the bytes that may be read, the last of which has one bit. -/
theorem digits_of_readVarintWithin {left n : Nat} {s r : Bytes}
    (h : readVarintWithin left s = .ok (n, r)) :
    ∃ w, s = w ++ r ∧ Digits w n ∧ w.length ≤ left ∧ n < varintBound (left - 1) := by
  fun_induction readVarintWithin left s generalizing n with
  | case1 left b s hb hlast => cases h
  | case2 left b s hb hlast =>
    cases h
    exact ⟨[b], rfl, .last hb, by simp, toNat_lt_varintBound hb hlast⟩
  | case3 left b s hb ih =>
    obtain ⟨⟨m, r'⟩, hm, h⟩ := bind_eq_ok.1 h
    cases h
    obtain ⟨w, rfl, hw, hlen, hbound⟩ := ih hm
    have hpos := hw.length_pos
    obtain ⟨left, rfl⟩ : ∃ k, left = k + 1 := ⟨left - 1, by omega⟩
    rw [Nat.add_sub_cancel] at hbound
    refine ⟨b :: w, rfl, .more hb hw, ?_, ?_⟩
    · rw [List.length_cons]
      omega
    · rw [Nat.succ_sub_one, varintBound]
      omega
  | case4 => cases h

theorem IsVarint.reads {w : Bytes} {n : Nat} (h : IsVarint w n) : Reads readVarint w n :=
  fun rest => h.digits.readVarintWithin_eq h.length_le h.lt rest

/-- Exactly the varints are read. -/
theorem readVarint_eq_ok_iff {s r : Bytes} {n : Nat} :
    readVarint s = .ok (n, r) ↔ ∃ w, s = w ++ r ∧ IsVarint w n := by
  constructor
  · intro h
    obtain ⟨w, hs, hw, hlen, hn⟩ := digits_of_readVarintWithin h
    exact ⟨w, hs, hw, hlen, hn⟩
  · rintro ⟨w, rfl, hw⟩
    exact hw.reads r

/-! ### Keys -/

/-- The key of a field: a varint below `2 ^ 32`, and the number of the field is not zero. -/
structure IsKey (head : Bytes) (key : Key) : Prop where
  varint : IsVarint head (key.number * 8 + key.wire.code)
  lt : key.number * 8 + key.wire.code < UInt32.size
  number_pos : 0 < key.number

theorem WireType.code_of_ofCode? {code : Nat} {w : WireType} (h : ofCode? code = some w) :
    w.code = code := by
  unfold ofCode? at h
  split at h <;> cases h <;> rfl

theorem IsKey.reads {head : Bytes} {key : Key} (h : IsKey head key) : Reads readKey head key := by
  intro rest
  have hcode := key.wire.code_lt
  have hmod : (key.number * 8 + key.wire.code) % 8 = key.wire.code := by omega
  have hdiv : (key.number * 8 + key.wire.code) / 8 = key.number := by omega
  rw [readKey, h.varint.reads rest, ok_bind]
  simp only [Nat.not_le.2 h.lt, hmod, hdiv, WireType.ofCode?_code, h.number_pos.ne', if_false,
    pure_eq_ok]

/-- Exactly the keys are read. -/
theorem readKey_eq_ok_iff {s r : Bytes} {key : Key} :
    readKey s = .ok (key, r) ↔ ∃ head, s = head ++ r ∧ IsKey head key := by
  constructor
  · intro h
    obtain ⟨⟨n, r'⟩, hn, hchecks⟩ := bind_eq_ok.1 h
    obtain ⟨head, rfl, hhead⟩ := readVarint_eq_ok_iff.1 hn
    simp only at hchecks
    split at hchecks
    · cases hchecks
    · next hlt =>
      split at hchecks
      · cases hchecks
      · next wire hwire =>
        split at hchecks
        · cases hchecks
        · next hzero =>
          cases hchecks
          have hcode := WireType.code_of_ofCode? hwire
          have heq : n / 8 * 8 + wire.code = n := by omega
          exact ⟨head, rfl, heq.symm ▸ hhead, heq.symm ▸ Nat.not_le.1 hlt,
            Nat.pos_of_ne_zero hzero⟩
  · rintro ⟨head, rfl, hhead⟩
    exact hhead.reads r

theorem IsKey.length_pos {head : Bytes} {key : Key} (h : IsKey head key) : 0 < head.length :=
  h.varint.digits.length_pos

/-! ### Values -/

/-- The value of a field behind its key. A group is closed by a key with its own number, and holds
fields up to there. -/
inductive IsValue : Key → Bytes → Prop
  | varint {number : Nat} {w : Bytes} {n : Nat} (h : IsVarint w n) : IsValue ⟨number, .varint⟩ w
  | sixtyFourBit {number : Nat} {w : Bytes} (h : w.length = 8) :
      IsValue ⟨number, .sixtyFourBit⟩ w
  | thirtyTwoBit {number : Nat} {w : Bytes} (h : w.length = 4) :
      IsValue ⟨number, .thirtyTwoBit⟩ w
  | lengthDelimited {number : Nat} {head w : Bytes} (h : IsVarint head w.length) :
      IsValue ⟨number, .lengthDelimited⟩ (head ++ w)
  | closing {number : Nat} {head : Bytes} (h : IsKey head ⟨number, .endGroup⟩) :
      IsValue ⟨number, .startGroup⟩ head
  | member {number : Nat} {key : Key} {head body w : Bytes} (hhead : IsKey head key)
      (hbody : IsValue key body) (hrest : IsValue ⟨number, .startGroup⟩ w) :
      IsValue ⟨number, .startGroup⟩ (head ++ (body ++ w))

/-- A field: its key and its value. -/
inductive IsField : Key → Bytes → Prop
  | intro {key : Key} {head body : Bytes} (hhead : IsKey head key) (hbody : IsValue key body) :
      IsField key (head ++ body)

theorem IsValue.wire_ne_endGroup {key : Key} {w : Bytes} (h : IsValue key w) :
    key.wire ≠ .endGroup := by
  cases h <;> exact WireType.noConfusion

/-- No value is the front of another one. -/
theorem IsValue.eq_of_append_eq {key : Key} {v w x y : Bytes} (hv : IsValue key v)
    (hw : IsValue key w) (h : v ++ x = w ++ y) : v = w ∧ x = y := by
  induction hv generalizing w x y with
  | varint hv =>
    cases hw with
    | varint hw =>
      obtain ⟨hvw, -, hxy⟩ := hv.reads.unique hw.reads h
      exact ⟨hvw, hxy⟩
  | sixtyFourBit hv =>
    cases hw with
    | sixtyFourBit hw => exact List.append_inj h (hv.trans hw.symm)
  | thirtyTwoBit hv =>
    cases hw with
    | thirtyTwoBit hw => exact List.append_inj h (hv.trans hw.symm)
  | lengthDelimited hv =>
    cases hw with
    | lengthDelimited hw =>
      rw [List.append_assoc, List.append_assoc] at h
      obtain ⟨rfl, hlen, h⟩ := hv.reads.unique hw.reads h
      obtain ⟨rfl, rfl⟩ := List.append_inj h hlen
      exact ⟨rfl, rfl⟩
  | closing hv =>
    cases hw with
    | closing hw =>
      obtain ⟨hvw, -, hxy⟩ := hv.reads.unique hw.reads h
      exact ⟨hvw, hxy⟩
    | member hw hbody _ =>
      rw [List.append_assoc] at h
      obtain ⟨-, rfl, -⟩ := hv.reads.unique hw.reads h
      exact absurd rfl hbody.wire_ne_endGroup
  | member hv hbody _ ihbody ihrest =>
    cases hw with
    | closing hw =>
      rw [List.append_assoc] at h
      obtain ⟨-, rfl, -⟩ := hv.reads.unique hw.reads h
      exact absurd rfl hbody.wire_ne_endGroup
    | member hw hbody' hrest' =>
      simp only [List.append_assoc] at h
      obtain ⟨rfl, rfl, h⟩ := hv.reads.unique hw.reads h
      obtain ⟨rfl, hbehind⟩ := ihbody hbody' h
      obtain ⟨rfl, hxy⟩ := ihrest hrest' hbehind
      exact ⟨rfl, hxy⟩

/-- A byte string behind its length is what a field with a length holds. -/
theorem readDelimited_eq_ok {s b r : Bytes} (h : readDelimited s = .ok (b, r)) :
    ∃ head, s = head ++ b ++ r ∧ IsVarint head b.length := by
  obtain ⟨⟨n, r'⟩, hn, hcheck⟩ := bind_eq_ok.1 h
  obtain ⟨head, rfl, hhead⟩ := readVarint_eq_ok_iff.1 hn
  simp only at hcheck
  split at hcheck
  · cases hcheck
  · next hlen =>
    cases hcheck
    refine ⟨head, by simp, ?_⟩
    rw [List.length_take, Nat.min_eq_left (Nat.not_lt.1 hlen)]
    exact hhead

/-! ### Passing over fields -/

/-- The reader passes over `w` in front of any input. -/
def Skips (skip : Bytes → Except DecodeError Bytes) (w : Bytes) : Prop :=
  ∀ rest, skip (w ++ rest) = .ok rest

theorem skipBytes_append {n : Nat} {w : Bytes} (h : w.length = n) : Skips (skipBytes n) w := by
  intro rest
  rw [skipBytes, if_pos (by simp [h]), ← h, List.drop_left]

theorem skipBytes_eq_ok {n : Nat} {s r : Bytes} (h : skipBytes n s = .ok r) :
    ∃ w, s = w ++ r ∧ w.length = n := by
  unfold skipBytes at h
  split at h
  · next hlen =>
    cases h
    exact ⟨s.take n, (List.take_append_drop n s).symm, by simp [hlen]⟩
  · cases h

/-- A group is passed over member by member. -/
theorem skipGroup_eq_ok {skip : Key → Bytes → Except DecodeError Bytes}
    (hskip : ∀ {key s r}, skip key s = .ok r →
      ∃ w, s = w ++ r ∧ IsValue key w ∧ Skips (skip key) w)
    {number fuel : Nat} {s r : Bytes} (h : skipGroup skip number fuel s = .ok r) :
    ∃ w, s = w ++ r ∧ IsValue ⟨number, .startGroup⟩ w ∧
      ∀ {fuel}, w.length ≤ fuel → Skips (skipGroup skip number fuel) w := by
  induction fuel generalizing s with
  | zero => cases h
  | succ fuel ih =>
    rw [skipGroup] at h
    obtain ⟨⟨key, r'⟩, hkey, hmember⟩ := bind_eq_ok.1 h
    obtain ⟨head, rfl, hhead⟩ := readKey_eq_ok_iff.1 hkey
    have hpos := hhead.length_pos
    simp only at hmember
    split at hmember
    · next hend =>
      split at hmember
      · next hnumber =>
        cases hmember
        obtain ⟨_, _⟩ := key
        subst hend hnumber
        refine ⟨head, rfl, .closing hhead, fun {fuel} hfuel rest => ?_⟩
        obtain ⟨fuel, rfl⟩ : ∃ k, fuel = k + 1 := ⟨fuel - 1, by omega⟩
        rw [skipGroup, hhead.reads rest, ok_bind]
        simp
      · cases hmember
    · next hend =>
      obtain ⟨r'', hskipped, hgroup⟩ := bind_eq_ok.1 hmember
      obtain ⟨body, rfl, hbody, hskips⟩ := hskip hskipped
      obtain ⟨w, rfl, hw, hrest⟩ := ih hgroup
      refine ⟨head ++ (body ++ w), by simp, .member hhead hbody hw, fun {fuel} hfuel rest => ?_⟩
      simp only [List.length_append] at hfuel
      obtain ⟨fuel, rfl⟩ : ∃ k, fuel = k + 1 := ⟨fuel - 1, by omega⟩
      rw [skipGroup, List.append_assoc, hhead.reads, ok_bind]
      simp only [hend, if_false]
      rw [List.append_assoc, hskips, ok_bind]
      exact hrest (by omega) rest

/-- Exactly a value is passed over. -/
theorem skipField_eq_ok {depth : Nat} {key : Key} {s r : Bytes}
    (h : skipField depth key s = .ok r) :
    ∃ w, s = w ++ r ∧ IsValue key w ∧ Skips (skipField depth key) w := by
  induction depth generalizing key s r with
  | zero => cases h
  | succ depth ih =>
    obtain ⟨number, wire⟩ := key
    rw [skipField.eq_def] at h
    cases wire with
    | varint =>
      obtain ⟨⟨n, r'⟩, hn, h⟩ := bind_eq_ok.1 h
      cases h
      obtain ⟨w, rfl, hw⟩ := readVarint_eq_ok_iff.1 hn
      refine ⟨w, rfl, .varint hw, fun rest => ?_⟩
      simp only [skipField, hw.reads rest, ok_bind, pure_eq_ok]
    | sixtyFourBit =>
      obtain ⟨w, rfl, hw⟩ := skipBytes_eq_ok h
      exact ⟨w, rfl, .sixtyFourBit hw, skipBytes_append hw⟩
    | thirtyTwoBit =>
      obtain ⟨w, rfl, hw⟩ := skipBytes_eq_ok h
      exact ⟨w, rfl, .thirtyTwoBit hw, skipBytes_append hw⟩
    | lengthDelimited =>
      obtain ⟨⟨n, r'⟩, hn, hbytes⟩ := bind_eq_ok.1 h
      obtain ⟨head, rfl, hhead⟩ := readVarint_eq_ok_iff.1 hn
      obtain ⟨w, rfl, rfl⟩ := skipBytes_eq_ok hbytes
      refine ⟨head ++ w, by simp, .lengthDelimited hhead, fun rest => ?_⟩
      rw [List.append_assoc]
      simp only [skipField, hhead.reads (w ++ rest), ok_bind, skipBytes_append rfl rest]
    | startGroup =>
      obtain ⟨w, rfl, hw, hskips⟩ := skipGroup_eq_ok ih h
      exact ⟨w, rfl, hw, fun rest => hskips (by simp) rest⟩
    | endGroup => cases h

/-- Only groups can be too deep to be passed over. -/
theorem IsValue.skips {depth : Nat} {key : Key} {w : Bytes} (h : IsValue key w)
    (hgroup : key.wire ≠ .startGroup) : Skips (skipField (depth + 1) key) w := by
  intro rest
  cases h with
  | varint h => simp only [skipField, h.reads rest, ok_bind, pure_eq_ok]
  | sixtyFourBit h => exact skipBytes_append h rest
  | thirtyTwoBit h => exact skipBytes_append h rest
  | @lengthDelimited number head w h =>
    rw [List.append_assoc]
    simp only [skipField, h.reads (w ++ rest), ok_bind, skipBytes_append rfl rest]
  | closing _ => exact absurd rfl hgroup
  | member _ _ _ => exact absurd rfl hgroup

/-! ### Lengths -/

theorem length_writeVarintWithin_mono {left m n : Nat} (h : m ≤ n) :
    (writeVarintWithin left m).length ≤ (writeVarintWithin left n).length := by
  induction left generalizing m n with
  | zero => exact le_rfl
  | succ left ih =>
    rw [writeVarintWithin, writeVarintWithin]
    split
    · split <;> simp
    · rw [if_neg (by omega)]
      exact Nat.succ_le_succ (ih (Nat.div_le_div_right h))

/-- One bit more takes at most one byte more. -/
theorem length_writeVarintWithin_le_succ {left m n : Nat} (h : m ≤ 2 * n + 1) :
    (writeVarintWithin left m).length ≤ (writeVarintWithin left n).length + 1 := by
  induction left generalizing m n with
  | zero => exact Nat.zero_le _
  | succ left ih =>
    rw [writeVarintWithin, writeVarintWithin]
    split
    · simp
    · split
      · next hn =>
        -- what is left of `m` is one bit
        cases left with
        | zero => simp [writeVarintWithin]
        | succ left =>
          rw [writeVarintWithin, if_pos (by omega)]
          simp
      · exact Nat.succ_le_succ (ih (by omega))

theorem length_writeVarint_pos (n : Nat) : 0 < (writeVarint n).length := by
  rw [writeVarint, writeVarintWithin]
  split <;> simp

theorem length_writeVarint_mono {m n : Nat} (h : m ≤ n) :
    (writeVarint m).length ≤ (writeVarint n).length :=
  length_writeVarintWithin_mono h

/-- A sum takes no more bytes than its terms. -/
theorem length_writeVarint_add_le (m n : Nat) :
    (writeVarint (m + n)).length ≤ (writeVarint m).length + (writeVarint n).length := by
  wlog h : m ≤ n generalizing m n
  · rw [Nat.add_comm m n, Nat.add_comm (writeVarint m).length]
    exact this n m (Nat.le_of_not_le h)
  · have hpos := length_writeVarint_pos m
    have hle : (writeVarint (m + n)).length ≤ (writeVarint n).length + 1 :=
      length_writeVarintWithin_le_succ (by omega)
    omega

theorem length_writeVarint_double_le (n : Nat) :
    (writeVarint (2 * n)).length ≤ (writeVarint n).length + 1 :=
  length_writeVarintWithin_le_succ (by omega)

theorem Digits.length_writeVarintWithin_le {w : Bytes} {n : Nat} (h : Digits w n) (left : Nat) :
    (writeVarintWithin left n).length ≤ w.length := by
  induction h generalizing left with
  | @last b h =>
    rw [UInt8.lt_iff_toNat_lt] at h
    cases left with
    | zero => simp [writeVarintWithin]
    | succ left => simp [writeVarintWithin, show b.toNat < 128 from h]
  | @more b w n h hw ih =>
    have hpos := hw.length_pos
    cases left with
    | zero => simp [writeVarintWithin]
    | succ left =>
      rw [writeVarintWithin]
      split
      · simp
      · have hdiv : (b.toNat % 128 + 128 * n) / 128 = n := by omega
        rw [hdiv]
        exact Nat.succ_le_succ (ih left)

/-- What is written for a number is no longer than any of its varints. -/
theorem IsVarint.length_writeVarint_le {w : Bytes} {n : Nat} (h : IsVarint w n) :
    (writeVarint n).length ≤ w.length :=
  h.digits.length_writeVarintWithin_le 10

theorem IsKey.length_writeKey_le {head : Bytes} {key : Key} (h : IsKey head key) :
    (writeKey key).length ≤ head.length :=
  h.varint.length_writeVarint_le

end LedgerBridge.Protobuf
