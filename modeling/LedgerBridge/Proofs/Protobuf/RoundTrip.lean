import LedgerBridge.Proofs.Except
import LedgerBridge.Protobuf.Format

/-!
# Messages read back

What the canonical writer of a format produces, its reader takes back, whatever stands behind it.

* `Reads read w b`: the reader takes the bytes `w` off the front of any input and gives `b`;
* `Kind.Merges` and `Format.Merges` are the runs of a reader over the occurrences of one field and
  over the fields of a message: they say how bytes change a value or a record, one occurrence after
  the other;
* `Format.Lawful` is what makes a format a good one: its numbers are distinct, and its fields,
  written from a record, restore that record. `Lawful.decode_encode` is the round trip.

Lengths are written as numbers of 64 bits, so every law asks for fewer than `2 ^ 64` bytes.
-/

namespace LedgerBridge.Protobuf

variable {α β : Type}

/-- The reader takes `w` off the front of any input, and gives `b`. -/
def Reads (read : Bytes → Except DecodeError (β × Bytes)) (w : Bytes) (b : β) : Prop :=
  ∀ rest, read (w ++ rest) = .ok (b, rest)

theorem reads_varint {n : Nat} (h : n < UInt64.size) : Reads readVarint (writeVarint n) n :=
  readVarint_writeVarint h

theorem reads_key {k : Key} (h0 : 0 < k.number) (h : k.number < 536870912) :
    Reads readKey (writeKey k) k :=
  readKey_writeKey h0 h

theorem reads_delimited_of_reads {head b : Bytes} (h : Reads readVarint head b.length) :
    Reads readDelimited (head ++ b) b := by
  intro rest
  rw [readDelimited, List.append_assoc, h (b ++ rest)]
  simp only [ok_bind]
  rw [if_neg (by simp), List.take_left, List.drop_left, pure_eq_ok]

theorem reads_delimited {b : Bytes} (h : b.length < UInt64.size) :
    Reads readDelimited (writeVarint b.length ++ b) b :=
  reads_delimited_of_reads (reads_varint h)

/-- A key is never written as nothing. -/
theorem ne_nil_of_reads_key {head : Bytes} {k : Key} (h : Reads readKey head k) : head ≠ [] := by
  rintro rfl
  have := h []
  simp [readKey, readVarint, readVarintWithin, refuse] at this

/-! ### Runs -/

/-- The occurrences `w` of a field turn its value `b` into `b'`. -/
inductive Kind.Merges (k : Kind β) (depth number : Nat) : β → Bytes → β → Prop where
  | nil (b : β) : Merges k depth number b [] b
  | cons {b b' b'' : β} {body w : Bytes} (step : Reads (k.merge depth b) body b')
      (run : Merges k depth number b' w b'') :
      Merges k depth number b (writeKey ⟨number, k.wire⟩ ++ (body ++ w)) b''

/-- The fields `w` of a message turn the record `a` into `a'`. -/
inductive Format.Merges (f : Format α) (depth : Nat) : α → Bytes → α → Prop where
  | nil (a : α) : Merges f depth a [] a
  | cons {a a' a'' : α} {key : Key} {head body w : Bytes} (head_reads : Reads readKey head key)
      (step : Reads (f.mergeField depth key a) body a') (run : Merges f depth a' w a'') :
      Merges f depth a (head ++ (body ++ w)) a''

namespace Format

variable {f : Format α} {depth : Nat}

theorem Merges.trans {a b c : α} {v w : Bytes} (hv : f.Merges depth a v b)
    (hw : f.Merges depth b w c) : f.Merges depth a (v ++ w) c := by
  induction hv with
  | nil => exact hw
  | cons hh hs _ ih => simpa using Merges.cons hh hs (ih hw)

/-- The reader of a message follows a run up to its end. -/
theorem Merges.mergeFields_eq {a a' : α} {w : Bytes} (h : f.Merges depth a w a') (rest : Bytes)
    {fuel : Nat} (hf : w.length ≤ fuel) :
    f.mergeFields depth rest.length fuel a (w ++ rest) = .ok (a', rest) := by
  induction h generalizing fuel with
  | nil a => cases fuel <;> simp [mergeFields]
  | @cons a b c key head body w hh hs _ ih =>
    -- a key is at least one byte, so one unit of fuel for each byte is enough
    have hpos : 0 < head.length := List.length_pos_iff.2 (ne_nil_of_reads_key hh)
    simp only [List.length_append] at hf
    obtain ⟨fuel, rfl⟩ : ∃ k, fuel = k + 1 := ⟨fuel - 1, by omega⟩
    have hmore : ¬ (head ++ (body ++ w) ++ rest).length ≤ rest.length := by
      simp only [List.length_append]; omega
    rw [mergeFields, if_neg hmore, List.append_assoc, hh]
    simp only [ok_bind]
    rw [List.append_assoc, hs]
    exact ih (by omega)

/-- A run over a whole input is what decoding it gives. -/
theorem Merges.decode_eq {a : α} {w : Bytes} (h : f.Merges levels f.missing w a) :
    f.decode w = .ok a := by
  have hrun := h.mergeFields_eq [] (le_refl w.length)
  rw [List.append_nil] at hrun
  rw [decode, ← List.length_nil (α := UInt8), hrun]
  rfl

/-- A message behind its length is read by the run over its fields. -/
theorem Merges.reads_delimited_of_reads {a a' : α} {head w : Bytes} (h : f.Merges depth a w a')
    (hhead : Reads readVarint head w.length) :
    Reads (f.mergeDelimited (depth + 1) a) (head ++ w) a' := by
  intro rest
  have hstop : (w ++ rest).length - w.length = rest.length := by simp
  have hfuel : w.length ≤ (w ++ rest).length := by simp
  have hrun := h.mergeFields_eq rest hfuel
  rw [mergeDelimited, List.append_assoc, hhead (w ++ rest)]
  simp only [ok_bind]
  rw [if_neg (by simp), hstop, hrun]
  simp only [ok_bind, if_true, pure_eq_ok]

theorem Merges.reads_delimited {a a' : α} {w : Bytes} (h : f.Merges depth a w a')
    (hw : w.length < UInt64.size) :
    Reads (f.mergeDelimited (depth + 1) a) (writeVarint w.length ++ w) a' :=
  h.reads_delimited_of_reads (reads_varint hw)

/-- A format of at most `levels` nested messages reads back what it writes. -/
def RoundTrips (f : Format α) (levels : Nat) : Prop :=
  ∀ ⦃depth : Nat⦄ ⦃a : α⦄, levels ≤ depth → (f.encode a).length < UInt64.size →
    f.Merges depth f.missing (f.encode a) a

end Format

/-! ### Kinds -/

namespace Kind

/-- A kind whose values hold at most `levels` nested messages reads back what it writes. -/
def RoundTrips (k : Kind β) (levels : Nat) : Prop :=
  ∀ ⦃depth number : Nat⦄ ⦃b : β⦄, levels ≤ depth → (k.write number b).length < UInt64.size →
    k.Merges depth number k.missing (k.write number b) b

variable {depth number levels : Nat}

theorem Merges.single {k : Kind β} {b b' : β} {body : Bytes}
    (h : Reads (k.merge depth b) body b') :
    k.Merges depth number b (writeKey ⟨number, k.wire⟩ ++ body) b' := by
  simpa using Merges.cons h (Merges.nil b')

/-- A list grows by one occurrence after the other. -/
theorem Merges.flatMap {k : Kind (List β)} {body : β → Bytes} {bs : List β} (before : List β)
    (h : ∀ b ∈ bs, ∀ before, Reads (k.merge depth before) (body b) (before ++ [b])) :
    k.Merges depth number before (bs.flatMap fun b => writeKey ⟨number, k.wire⟩ ++ body b)
      (before ++ bs) := by
  induction bs generalizing before with
  | nil => simpa using Merges.nil before
  | cons b bs ih =>
    have hb := h b List.mem_cons_self before
    have hbs := ih (before ++ [b]) fun c hc => h c (List.mem_cons_of_mem _ hc)
    simpa using Merges.cons hb hbs

theorem length_le_writeDelimited (number : Nat) (b : Bytes) :
    b.length ≤ (writeDelimited number b).length := by
  simp only [writeDelimited, List.length_append]
  omega

theorem writeDelimited_eq (number : Nat) (b : Bytes) :
    writeDelimited number b =
      writeKey ⟨number, .lengthDelimited⟩ ++ (writeVarint b.length ++ b) := by
  rw [writeDelimited, List.append_assoc]

theorem length_le_flatMap {w : β → Bytes} {b : β} {bs : List β} (h : b ∈ bs) :
    (w b).length ≤ (bs.flatMap w).length := by
  obtain ⟨before, behind, rfl⟩ := List.append_of_mem h
  simp only [List.flatMap_append, List.flatMap_cons, List.length_append]
  omega

/-- A kind that leaves the missing value out, and writes any other one behind its key. -/
theorem roundTrips_of_elided {k : Kind β} {w : β → Bytes}
    (hmissing : ∀ number, k.write number k.missing = [])
    (hwrite : ∀ number b, b ≠ k.missing →
      k.write number b = writeKey ⟨number, k.wire⟩ ++ w b)
    (hr : ∀ depth b, (w b).length < UInt64.size → Reads (k.merge depth k.missing) (w b) b) :
    k.RoundTrips levels := by
  intro depth number b _ hb
  by_cases h : b = k.missing
  · rw [h, hmissing]
    exact Merges.nil _
  · rw [hwrite number b h] at hb ⊢
    rw [List.length_append] at hb
    exact Merges.single (hr depth b (lt_of_le_of_lt le_add_self hb))

theorem roundTrips_uint64 : uint64.RoundTrips levels := by
  refine roundTrips_of_elided (w := fun n => writeVarint n.toNat) (fun _ => rfl) ?_ ?_
  · intro number n hn
    exact if_neg hn
  · intro depth n _ rest
    simp [uint64, reads_varint n.toNat_lt rest]

/-- The low half of a number written with its sign is the number. -/
theorem toInt32_ofNat_toInt64 (n : Int32) :
    (UInt32.ofNat n.toInt64.toUInt64.toNat).toInt32 = n := by
  apply Int32.toBitVec_inj.1
  change BitVec.ofNat 32 (n.toBitVec.signExtend 64).toNat = n.toBitVec
  rw [BitVec.ofNat_toNat]
  -- below bit 32 the extended number has the bits of the number itself
  refine BitVec.eq_of_getElem_eq fun i hi => ?_
  rw [BitVec.getElem_setWidth, BitVec.getLsbD_signExtend]
  simp only [hi, BitVec.getLsbD_eq_getElem, if_true]
  simp only [Bool.and_eq_right_iff_imp, decide_eq_true_eq]
  omega

theorem roundTrips_int32 : int32.RoundTrips levels := by
  refine roundTrips_of_elided (w := fun n => writeVarint n.toInt64.toUInt64.toNat)
    (fun _ => rfl) ?_ ?_
  · intro number n hn
    exact if_neg hn
  · intro depth n _ rest
    simp only [int32, reads_varint n.toInt64.toUInt64.toNat_lt rest, ok_bind, pure_eq_ok,
      toInt32_ofNat_toInt64]

theorem roundTrips_bytes : bytes.RoundTrips levels := by
  refine roundTrips_of_elided (w := fun b => writeVarint b.length ++ b) (fun _ => rfl) ?_ ?_
  · intro number b hb
    exact (if_neg hb).trans (writeDelimited_eq number b)
  · intro depth b hb
    rw [List.length_append] at hb
    exact reads_delimited (lt_of_le_of_lt le_add_self hb)

theorem roundTrips_text : text.RoundTrips levels := by
  refine roundTrips_of_elided
    (w := fun t => writeVarint (Utf8.encode t).length ++ Utf8.encode t) (fun _ => rfl) ?_ ?_
  · intro number t ht
    exact (if_neg ht).trans (writeDelimited_eq number (Utf8.encode t))
  · intro depth t ht rest
    rw [List.length_append] at ht
    have hlen := lt_of_le_of_lt le_add_self ht
    simp only [text, reads_delimited hlen rest, ok_bind, Utf8.decode?_encode, pure_eq_ok]

/-- A kind of lists that writes each item behind a key of its own. -/
theorem roundTrips_of_repeated {k : Kind (List β)} {w : β → Bytes} (hmissing : k.missing = [])
    (hwrite : ∀ number bs,
      k.write number bs = bs.flatMap fun b => writeKey ⟨number, k.wire⟩ ++ w b)
    (hr : ∀ depth b before, levels ≤ depth → (w b).length < UInt64.size →
      Reads (k.merge depth before) (w b) (before ++ [b])) : k.RoundTrips levels := by
  intro depth number bs hd hbs
  rw [hwrite] at hbs ⊢
  rw [hmissing]
  refine Merges.flatMap [] fun b hb before => hr depth b before hd (lt_of_le_of_lt ?_ hbs)
  have hle := length_le_flatMap (w := fun b => writeKey ⟨number, k.wire⟩ ++ w b) hb
  rw [List.length_append] at hle
  exact le_add_self.trans hle

theorem roundTrips_manyBytes : manyBytes.RoundTrips levels := by
  refine roundTrips_of_repeated (w := fun b => writeVarint b.length ++ b) rfl ?_ ?_
  · intro number bs
    exact congrArg bs.flatMap (funext fun b => writeDelimited_eq number b)
  · intro depth b before _ hb rest
    rw [List.length_append] at hb
    have hread := reads_delimited (lt_of_le_of_lt le_add_self hb) rest
    simp only [manyBytes, hread, ok_bind, pure_eq_ok]

variable {f : Format β}

theorem roundTrips_message (hf : f.RoundTrips levels) : (message f).RoundTrips (levels + 1) := by
  intro depth number b hd hb
  obtain ⟨depth, rfl⟩ : ∃ d, depth = d + 1 := ⟨depth - 1, by omega⟩
  cases b with
  | none => exact Merges.nil _
  | some b =>
    have hlen := lt_of_le_of_lt (length_le_writeDelimited number (f.encode b)) hb
    have hr : Reads ((message f).merge (depth + 1) none)
        (writeVarint (f.encode b).length ++ f.encode b) (some b) := by
      intro rest
      have := (hf (Nat.le_of_succ_le_succ hd) hlen).reads_delimited hlen rest
      simp only [message, Option.getD_none, this, ok_bind, pure_eq_ok]
    have hw : (message f).write number (some b) = writeDelimited number (f.encode b) := rfl
    rw [hw, writeDelimited_eq]
    exact Merges.single hr

theorem roundTrips_manyMessages (hf : f.RoundTrips levels) :
    (manyMessages f).RoundTrips (levels + 1) := by
  refine roundTrips_of_repeated
    (w := fun b => writeVarint (f.encode b).length ++ f.encode b) rfl ?_ ?_
  · intro number bs
    exact congrArg bs.flatMap (funext fun b => writeDelimited_eq number (f.encode b))
  · intro depth b before hd hb rest
    obtain ⟨depth, rfl⟩ : ∃ d, depth = d + 1 := ⟨depth - 1, by omega⟩
    rw [List.length_append] at hb
    have hlen := lt_of_le_of_lt le_add_self hb
    have hread := (hf (Nat.le_of_succ_le_succ hd) hlen).reads_delimited hlen rest
    simp only [manyMessages, hread, ok_bind, pure_eq_ok]

end Kind

/-! ### Fields and formats -/

/-- A place of a record: what is set there is what is found there, and nothing else changes by
setting it again. -/
structure IsPlace (get : α → β) (set : β → α → α) : Prop where
  get_set (b : β) (a : α) : get (set b a) = b := by intros; rfl
  set_get (a : α) : set (get a) a = a := by intros; rfl
  set_set (b c : β) (a : α) : set c (set b a) = set c a := by intros; rfl

namespace Format

variable {f : Format α} {depth levels : Nat}

/-- A run over the occurrences of a field sets its place in the record. -/
theorem merges_of_kind {number : Nat} {name : String} {kind : Kind β} {get : α → β}
    {set : β → α → α} (hp : IsPlace get set) (h0 : 0 < number) (hn : number < 536870912)
    (hfind : f.fields.find? (·.number == number) = some (.of number name kind get set))
    {b b' : β} {w : Bytes} (h : kind.Merges depth number b w b') {a : α} (ha : get a = b) :
    f.Merges depth a w (set b' a) := by
  induction h generalizing a with
  | nil b =>
    rw [← ha, hp.set_get]
    exact Merges.nil a
  | @cons b c d body w step _ ih =>
    have hr : Reads (f.mergeField depth ⟨number, kind.wire⟩ a) body (set c a) := by
      intro rest
      have hs := step rest
      rw [← ha] at hs
      simp only [mergeField, hfind, Field.of, if_true, hs, ok_bind, pure_eq_ok]
    rw [← hp.set_set c d a]
    exact Merges.cons (reads_key h0 hn) hr (ih (hp.get_set c a))

/-- The fields of a list, written from `target` one after the other, take the record `a` to `a'`.
Each field finds its place in `a` as it is in a record without fields. -/
inductive Restores (levels : Nat) (target : α) : List (Field α) → α → α → Prop where
  | nil (a : α) : Restores levels target [] a a
  | cons {β : Type} {number : Nat} {name : String} {kind : Kind β} {get : α → β}
      {set : β → α → α} {fields : List (Field α)} {a a' : α} (hk : kind.RoundTrips levels)
      (hs : Restores levels target fields (set (get target) a) a')
      (hp : IsPlace get set := by exact {})
      (ha : get a = kind.missing := by rfl)
      (hn : 0 < number ∧ number < 536870912 := by decide) :
      Restores levels target (.of number name kind get set :: fields) a a'

/-- A format whose records are restored from their fields, with at most `levels` messages inside
each other. -/
class Lawful (f : Format α) (levels : Nat) : Prop where
  distinct : (f.fields.map (·.number)).Nodup
  restores (a : α) : Restores levels a f.fields f.missing a

/-- Distinct numbers find every field of a format. -/
theorem find?_eq_of_mem {fields : List (Field α)} (h : (fields.map (·.number)).Nodup)
    {field : Field α} (hm : field ∈ fields) :
    fields.find? (·.number == field.number) = some field := by
  induction fields with
  | nil => cases hm
  | cons g gs ih =>
    rw [List.map_cons, List.nodup_cons] at h
    rcases List.mem_cons.1 hm with rfl | hm
    · simp
    · have hne : g.number ≠ field.number := fun he => h.1 (he ▸ List.mem_map_of_mem hm)
      rw [List.find?_cons_of_neg (by simpa using hne)]
      exact ih h.2 hm

theorem Restores.merges {target a a' : α} {fields : List (Field α)}
    (h : Restores levels target fields a a') (hd : (f.fields.map (·.number)).Nodup)
    (hsub : ∀ field ∈ fields, field ∈ f.fields) (hl : levels ≤ depth)
    (hsize : (fields.flatMap (·.write target)).length < UInt64.size) :
    f.Merges depth a (fields.flatMap (·.write target)) a' := by
  induction h with
  | nil a => exact Merges.nil a
  | @cons β number name kind get set fields a a' hk _ hp ha hn ih =>
    rw [List.flatMap_cons] at hsize ⊢
    rw [List.length_append] at hsize
    -- the key that is written finds the field it was written from
    have hfind := find?_eq_of_mem hd (hsub _ List.mem_cons_self)
    have hfirst := @hk _ number (get target) hl (lt_of_le_of_lt le_self_add hsize)
    have hrest := ih (fun field h => hsub field (List.mem_cons_of_mem _ h))
      (lt_of_le_of_lt le_add_self hsize)
    exact (merges_of_kind hp hn.1 hn.2 hfind hfirst ha).trans hrest

/-- A lawful format reads back what it writes, also inside other messages. -/
theorem Lawful.roundTrips (h : f.Lawful levels) : f.RoundTrips levels := fun _ a hl hsize =>
  (h.restores a).merges h.distinct (fun _ hm => hm) hl hsize

/-- **A record of a lawful format is decoded from its encoding.** -/
theorem Lawful.decode_encode (h : f.Lawful Format.levels) {a : α}
    (hsize : (f.encode a).length < UInt64.size) : f.decode (f.encode a) = .ok a :=
  (h.roundTrips le_rfl hsize).decode_eq

/-- Only the record that has no field is written as nothing. -/
theorem Lawful.eq_missing (h : f.Lawful Format.levels) {a : α} (ha : f.encode a = []) :
    a = f.missing := by
  have hd := h.decode_encode (a := a) (by rw [ha]; decide)
  rw [ha] at hd
  exact (Except.ok.inj hd).symm

/-! ### What is inside is shorter -/

section Length

variable {number : Nat} {name : String} {field : Field α}

theorem length_write_le (h : field ∈ f.fields) (a : α) :
    (field.write a).length ≤ (f.encode a).length :=
  Kind.length_le_flatMap (w := fun field => Field.write field a) h

theorem length_le_of_bytes {get : α → Bytes} {set : Bytes → α → α}
    (h : Field.of number name .bytes get set ∈ f.fields) (a : α) :
    (get a).length ≤ (f.encode a).length := by
  refine le_trans ?_ (length_write_le h a)
  by_cases hb : get a = []
  · simp [hb]
  · simpa [Field.of, Kind.bytes, hb] using Kind.length_le_writeDelimited number (get a)

theorem length_le_of_manyBytes {get : α → List Bytes} {set : List Bytes → α → α}
    (h : Field.of number name .manyBytes get set ∈ f.fields) {a : α} {b : Bytes}
    (hb : b ∈ get a) : b.length ≤ (f.encode a).length := by
  refine le_trans (le_trans (Kind.length_le_writeDelimited number b) ?_) (length_write_le h a)
  exact Kind.length_le_flatMap (w := writeDelimited number) hb

theorem length_le_of_message {g : Format β} {get : α → Option β} {set : Option β → α → α}
    (h : Field.of number name (.message g) get set ∈ f.fields) {a : α} {b : β}
    (hb : get a = some b) : (g.encode b).length ≤ (f.encode a).length := by
  refine le_trans ?_ (length_write_le h a)
  simpa [Field.of, Kind.message, hb] using Kind.length_le_writeDelimited number (g.encode b)

theorem length_le_of_manyMessages {g : Format β} {get : α → List β} {set : List β → α → α}
    (h : Field.of number name (.manyMessages g) get set ∈ f.fields) {a : α} {b : β}
    (hb : b ∈ get a) : (g.encode b).length ≤ (f.encode a).length := by
  refine le_trans (le_trans (Kind.length_le_writeDelimited number (g.encode b)) ?_)
    (length_write_le h a)
  exact Kind.length_le_flatMap (w := fun b => writeDelimited number (g.encode b)) hb

end Length

end Format

end LedgerBridge.Protobuf
