import LedgerBridge.Proofs.Protobuf.Wire

/-!
# What a reader takes

Whenever a reader of a format succeeds, it has taken whole fields off the front of its input, and
would take them in front of any other bytes.

* `Takes` says what it means to take the value of a field; regular kinds, fields and formats are
  those of which every success is a `Takes`. The fields of a regular format have places that do not
  touch each other;
* `Format.decode_eq_ok_iff`: to decode a message is to run over its fields;
* `Format.decode_append_unknown` and `Format.decode_swap`: fields that are not declared change
  nothing, and fields with different numbers may change places;
* `Format.length_encode_le`: the canonical encoding of what was decoded is at most twice as long.
-/

namespace LedgerBridge.Protobuf

variable {α β γ : Type}

/-- A reader takes the value `w` behind a key off any input and turns `b` into `b'`. Of what is
written for `b'`, at most twice as much as key and value is new: a negative number of 32 bits may be
read from five bytes, but is written with ten. -/
structure Takes (read : Bytes → Except DecodeError (β × Bytes)) (write : β → Bytes) (key : Key)
    (b : β) (w : Bytes) (b' : β) : Prop where
  isValue : IsValue key w
  reads : Reads read w b'
  length_write_le :
    (write b').length ≤ (write b).length + 2 * ((writeKey key).length + w.length)

/-! ### Kinds -/

namespace Kind

/-- A kind that leaves the missing value out, and reads whole values. -/
class Regular (k : Kind β) : Prop where
  write_missing (number : Nat) : k.write number k.missing = []
  takes {depth : Nat} {b b' : β} {s r : Bytes} (h : k.merge depth b s = .ok (b', r)) :
    ∃ w, s = w ++ r ∧
      ∀ number, Takes (k.merge depth b) (k.write number) ⟨number, k.wire⟩ b w b'

theorem length_writeNumber (number n : Nat) : (writeNumber number n).length =
    (writeKey ⟨number, .varint⟩).length + (writeVarint n).length :=
  List.length_append

theorem length_writeDelimited (number : Nat) (b : Bytes) : (writeDelimited number b).length =
    (writeKey ⟨number, .lengthDelimited⟩).length + (writeVarint b.length).length + b.length := by
  simp only [writeDelimited, List.length_append]

/-- A byte string is written no longer than it was read. -/
theorem length_writeDelimited_le {head b : Bytes} (h : IsVarint head b.length) (number : Nat) :
    (writeDelimited number b).length ≤
      2 * ((writeKey ⟨number, .lengthDelimited⟩).length + (head ++ b).length) := by
  have hhead := h.length_writeVarint_le
  rw [length_writeDelimited, List.length_append]
  omega

instance regular_uint64 : uint64.Regular where
  write_missing _ := rfl
  takes := by
    intro depth b b' s r h
    obtain ⟨⟨n, r'⟩, hn, hb⟩ := bind_eq_ok.1 h
    cases hb
    obtain ⟨w, rfl, hw⟩ := readVarint_eq_ok_iff.1 hn
    refine ⟨w, rfl, fun number => ⟨.varint hw, fun rest => ?_, ?_⟩⟩
    · simp only [uint64, hw.reads rest, ok_bind, pure_eq_ok]
    · have hlen := hw.length_writeVarint_le
      simp only [uint64]
      split
      · simp
      · rw [length_writeNumber, UInt64.toNat_ofNat_of_lt' hw.lt]
        omega

/-- Written with its sign, the low half of a number is the number itself, or the number has 32
bits at least. -/
theorem toNat_toInt64_ofNat {n : Nat} (h : n < 2147483648) :
    (UInt32.ofNat n).toInt32.toInt64.toUInt64.toNat = n := by
  change ((BitVec.ofNat 32 n).signExtend 64).toNat = n
  have hn : (BitVec.ofNat 32 n).toNat = n := by
    rw [BitVec.toNat_ofNat]
    omega
  have hmsb : (BitVec.ofNat 32 n).msb = false := by
    rw [BitVec.msb_eq_decide, hn]
    simp only [decide_eq_false_iff_not, not_le]
    omega
  rw [BitVec.toNat_signExtend, hmsb, BitVec.toNat_setWidth, hn]
  simp only [Bool.false_eq_true, if_false]
  omega

theorem length_writeVarint_le_ten (n : Nat) : (writeVarint n).length ≤ 10 := by
  have h (left n : Nat) : (writeVarintWithin left n).length ≤ left := by
    induction left generalizing n with
    | zero => exact le_rfl
    | succ left ih =>
      rw [writeVarintWithin]
      split
      · simp
      · exact Nat.succ_le_succ (ih _)
  exact h 10 n

instance regular_int32 : int32.Regular where
  write_missing _ := rfl
  takes := by
    intro depth b b' s r h
    obtain ⟨⟨n, r'⟩, hn, hb⟩ := bind_eq_ok.1 h
    cases hb
    obtain ⟨w, rfl, hw⟩ := readVarint_eq_ok_iff.1 hn
    refine ⟨w, rfl, fun number => ⟨.varint hw, fun rest => ?_, ?_⟩⟩
    · simp only [int32, hw.reads rest, ok_bind, pure_eq_ok]
    · have hlen := hw.length_writeVarint_le
      simp only [int32]
      split
      · simp
      · rw [length_writeNumber]
        by_cases hsmall : n < 2147483648
        · rw [toNat_toInt64_ofNat hsmall]
          omega
        · have hten := length_writeVarint_le_ten
            (UInt32.ofNat n).toInt32.toInt64.toUInt64.toNat
          have hfive : 5 ≤ (writeVarint n).length :=
            length_writeVarint_mono (m := 2147483648) (Nat.not_lt.1 hsmall)
          omega

instance regular_bytes : bytes.Regular where
  write_missing _ := rfl
  takes := by
    intro depth b b' s r h
    obtain ⟨head, rfl, hhead⟩ := readDelimited_eq_ok h
    refine ⟨head ++ b', rfl, fun number => ⟨.lengthDelimited hhead, ?_, ?_⟩⟩
    · exact reads_delimited_of_reads hhead.reads
    · simp only [bytes]
      split
      · simp
      · exact le_add_left (length_writeDelimited_le hhead number)

instance regular_text : text.Regular where
  write_missing _ := rfl
  takes := by
    intro depth t t' s r h
    obtain ⟨⟨b, r'⟩, hb, ht⟩ := bind_eq_ok.1 h
    obtain ⟨head, rfl, hhead⟩ := readDelimited_eq_ok hb
    simp only at ht
    split at ht
    · next t'' htext =>
      cases ht
      refine ⟨head ++ b, rfl, fun number => ⟨.lengthDelimited hhead, fun rest => ?_, ?_⟩⟩
      · simp only [text, reads_delimited_of_reads hhead.reads rest, ok_bind, htext, pure_eq_ok]
      · simp only [text]
        split
        · simp
        · rw [← Utf8.decode?_eq_some_iff.1 htext]
          exact le_add_left (length_writeDelimited_le hhead number)
    · cases ht

instance regular_manyBytes : manyBytes.Regular where
  write_missing _ := rfl
  takes := by
    intro depth bs bs' s r h
    obtain ⟨⟨b, r'⟩, hb, hbs⟩ := bind_eq_ok.1 h
    cases hbs
    obtain ⟨head, rfl, hhead⟩ := readDelimited_eq_ok hb
    refine ⟨head ++ b, rfl, fun number => ⟨.lengthDelimited hhead, fun rest => ?_, ?_⟩⟩
    · simp only [manyBytes, reads_delimited_of_reads hhead.reads rest, ok_bind, pure_eq_ok]
    · simp only [manyBytes, List.flatMap_append, List.flatMap_singleton, List.length_append]
      have hle := length_writeDelimited_le hhead number
      rw [List.length_append] at hle
      omega

end Kind

/-! ### Fields -/

/-- Two places of a record that do not touch each other. -/
structure Apart (get : α → β) (set : β → α → α) (get' : α → γ) (set' : γ → α → α) : Prop where
  get_set (c : γ) (a : α) : get (set' c a) = get a
  get_set' (b : β) (a : α) : get' (set b a) = get' a
  set_comm (b : β) (c : γ) (a : α) : set b (set' c a) = set' c (set b a)

theorem Apart.symm {get : α → β} {set : β → α → α} {get' : α → γ} {set' : γ → α → α}
    (h : Apart get set get' set') : Apart get' set' get set :=
  ⟨h.get_set', h.get_set, fun c b a => (h.set_comm b c a).symm⟩

namespace Field

/-- A field that leaves out what a record without it has, and reads whole values. -/
structure Regular (missing : α) (field : Field α) : Prop where
  write_missing : field.write missing = []
  takes {depth : Nat} {wire : WireType} {a a' : α} {s r : Bytes}
    (h : field.merge depth wire a s = .ok (a', r)) :
    ∃ w, s = w ++ r ∧ Takes (field.merge depth wire a) field.write ⟨field.number, wire⟩ a w a'

/-- A field does not change what another one writes, and may be read behind it as well as in front
of it. -/
structure Commutes (field field' : Field α) : Prop where
  write_eq {depth : Nat} {wire : WireType} {a a' : α} {s r : Bytes}
    (h : field.merge depth wire a s = .ok (a', r)) : field'.write a' = field'.write a
  swap {depth : Nat} {wire wire' : WireType} {a b c : α} {v w : Bytes}
    (h : Reads (field.merge depth wire a) v b) (h' : Reads (field'.merge depth wire' b) w c) :
    ∃ b', Reads (field'.merge depth wire' a) w b' ∧ Reads (field.merge depth wire b') v c

variable {number number' depth : Nat} {name name' : String} {kind : Kind β} {kind' : Kind γ}
  {get : α → β} {set : β → α → α} {get' : α → γ} {set' : γ → α → α}

/-- A field is read by its kind at its place, if the wire has its shape. -/
theorem merge_of_eq_ok {wire : WireType} {a a' : α} {s r : Bytes} :
    (Field.of number name kind get set).merge depth wire a s = .ok (a', r) ↔
      wire = kind.wire ∧ ∃ b, kind.merge depth (get a) s = .ok (b, r) ∧ a' = set b a := by
  simp only [Field.of]
  split
  · next hwire =>
    rw [bind_eq_ok]
    simp only [hwire, pure_eq_ok, Except.ok.injEq, Prod.mk.injEq, Prod.exists, true_and]
    constructor
    · rintro ⟨b, r', hb, rfl, rfl⟩
      exact ⟨b, hb, rfl⟩
    · rintro ⟨b, hb, rfl⟩
      exact ⟨b, r, hb, rfl, rfl⟩
  · next hwire => simp [hwire, refuse]

theorem reads_of_iff (hp : IsPlace get set) {wire : WireType} {a a' : α} {w : Bytes} :
    Reads ((Field.of number name kind get set).merge depth wire a) w a' ↔
      wire = kind.wire ∧ ∃ b, Reads (kind.merge depth (get a)) w b ∧ a' = set b a := by
  constructor
  · intro h
    obtain ⟨hwire, b, -, hb⟩ := merge_of_eq_ok.1 (h [])
    refine ⟨hwire, b, fun rest => ?_, hb⟩
    -- what is found at the place is the same in front of any rest
    obtain ⟨-, c, hc, hset⟩ := merge_of_eq_ok.1 (h rest)
    rw [hc, ← hp.get_set c a, ← hset, hb, hp.get_set]
  · rintro ⟨hwire, b, hb, rfl⟩ rest
    exact merge_of_eq_ok.2 ⟨hwire, b, hb rest, rfl⟩

theorem regular_of [hk : kind.Regular] (hp : IsPlace get set) {missing : α}
    (hm : get missing = kind.missing) : (Field.of number name kind get set).Regular missing where
  write_missing := by
    simp only [Field.of, hm]
    exact hk.write_missing number
  takes := by
    intro depth wire a a' s r h
    obtain ⟨rfl, b, hb, rfl⟩ := merge_of_eq_ok.1 h
    obtain ⟨w, rfl, hw⟩ := hk.takes hb
    obtain ⟨hvalue, hreads, hlength⟩ := hw number
    refine ⟨w, rfl, hvalue, (reads_of_iff hp).2 ⟨rfl, b, hreads, rfl⟩, ?_⟩
    simp only [Field.of, hp.get_set]
    exact hlength

theorem commutes_of (hp : IsPlace get set) (hp' : IsPlace get' set')
    (h : Apart get set get' set') :
    (Field.of number name kind get set).Commutes (.of number' name' kind' get' set') where
  write_eq := by
    intro depth wire a a' s r hmerge
    obtain ⟨-, b, -, rfl⟩ := merge_of_eq_ok.1 hmerge
    simp only [Field.of, h.get_set']
  swap := by
    intro depth wire wire' a b c v w hv hw
    obtain ⟨hwire, x, hx, rfl⟩ := (reads_of_iff hp).1 hv
    obtain ⟨hwire', y, hy, rfl⟩ := (reads_of_iff hp').1 hw
    rw [h.get_set'] at hy
    refine ⟨set' y a, (reads_of_iff hp').2 ⟨hwire', y, hy, rfl⟩,
      (reads_of_iff hp).2 ⟨hwire, x, ?_, (h.set_comm x y a).symm⟩⟩
    rwa [h.get_set]

end Field

/-- The place touches none of the fields. -/
inductive ApartFrom (get : α → β) (set : β → α → α) : List (Field α) → Prop
  | nil : ApartFrom get set []
  | cons {γ : Type} {number : Nat} {name : String} {kind : Kind γ} {get' : α → γ}
      {set' : γ → α → α} {fields : List (Field α)} (h : Apart get set get' set')
      (hp' : IsPlace get' set') (rest : ApartFrom get set fields) :
      ApartFrom get set (.of number name kind get' set' :: fields)

/-- Fields of regular kinds, each at a place of its own. -/
inductive RegularFields (missing : α) : List (Field α) → Prop
  | nil : RegularFields missing []
  | cons {β : Type} {number : Nat} {name : String} {kind : Kind β} {get : α → β}
      {set : β → α → α} {fields : List (Field α)} [hk : kind.Regular]
      (hs : RegularFields missing fields) (hp : IsPlace get set := by exact {})
      (hm : get missing = kind.missing := by rfl)
      (hapart : ApartFrom get set fields := by
        repeat first
          | exact .nil
          | refine .cons ⟨fun _ _ => rfl, fun _ _ => rfl, fun _ _ _ => rfl⟩ {} ?_) :
      RegularFields missing (.of number name kind get set :: fields)

namespace RegularFields

variable {missing : α} {fields : List (Field α)}

theorem regular (h : RegularFields missing fields) {field : Field α} (hf : field ∈ fields) :
    field.Regular missing := by
  induction h with
  | nil => cases hf
  | cons _ hp hm _ ih =>
    rcases List.mem_cons.1 hf with rfl | hf
    · exact Field.regular_of hp hm
    · exact ih hf

theorem commutes_of_apartFrom {number : Nat} {name : String} {kind : Kind β} {get : α → β}
    {set : β → α → α} (hp : IsPlace get set) (h : ApartFrom get set fields) {field : Field α}
    (hf : field ∈ fields) :
    (Field.of number name kind get set).Commutes field ∧
      field.Commutes (.of number name kind get set) := by
  induction h with
  | nil => cases hf
  | cons h hp' _ ih =>
    rcases List.mem_cons.1 hf with rfl | hf
    · exact ⟨Field.commutes_of hp hp' h, Field.commutes_of hp' hp h.symm⟩
    · exact ih hf

theorem pairwise_commutes (h : RegularFields missing fields) :
    fields.Pairwise fun field field' => field.Commutes field' ∧ field'.Commutes field := by
  induction h with
  | nil => exact .nil
  | cons _ hp _ hapart ih => exact .cons (fun _ hf => commutes_of_apartFrom hp hapart hf) ih

end RegularFields

/-! ### Formats -/

namespace Format

/-- A format whose fields have distinct numbers, regular kinds, and places apart from each other. -/
class Regular (f : Format α) : Prop where
  distinct : (f.fields.map (·.number)).Nodup
  fields : RegularFields f.missing f.fields

variable {f : Format α} {depth : Nat} {key : Key} {a a' : α} {w : Bytes}

theorem encode_missing [hf : f.Regular] : f.encode f.missing = [] :=
  List.flatMap_eq_nil_iff.2 fun _ hfield => (hf.fields.regular hfield).write_missing

/-- Different fields commute. -/
theorem commutes_of_mem [hf : f.Regular] {field field' : Field α} (h : field ∈ f.fields)
    (h' : field' ∈ f.fields) (hne : field.number ≠ field'.number) : field.Commutes field' := by
  have : Std.Symm fun field field' : Field α => field.Commutes field' ∧ field'.Commutes field :=
    ⟨fun _ _ h => h.symm⟩
  exact (hf.fields.pairwise_commutes.forall h h' fun he => hne (congrArg _ he)).1

/-- What a key says of a field that is declared. -/
theorem mem_of_find? {field : Field α} (h : f.fields.find? (·.number == key.number) = some field) :
    field ∈ f.fields ∧ key = ⟨field.number, key.wire⟩ := by
  have hnumber : field.number = key.number := by simpa using List.find?_some h
  exact ⟨List.mem_of_find?_eq_some h, hnumber ▸ rfl⟩

/-- When one field grows, its message grows as much. -/
theorem length_flatMap_write_le {fields : List (Field α)} (hd : (fields.map (·.number)).Nodup)
    {field : Field α} (hf : field ∈ fields)
    (hothers : ∀ other ∈ fields, other.number ≠ field.number → other.write a' = other.write a)
    {n : Nat} (hle : (field.write a').length ≤ (field.write a).length + n) :
    (fields.flatMap (·.write a')).length ≤ (fields.flatMap (·.write a)).length + n := by
  induction fields with
  | nil => cases hf
  | cons g gs ih =>
    rw [List.map_cons, List.nodup_cons] at hd
    rw [List.flatMap_cons, List.flatMap_cons, List.length_append, List.length_append]
    rcases List.mem_cons.1 hf with rfl | hf
    · have hrest : gs.flatMap (·.write a') = gs.flatMap (·.write a) :=
        List.flatMap_congr fun other hother => hothers other (List.mem_cons_of_mem _ hother)
          fun he => hd.1 (he ▸ List.mem_map_of_mem hother)
      rw [hrest]
      omega
    · have hrest := ih hd.2 hf fun other hother => hothers other (List.mem_cons_of_mem _ hother)
      rw [hothers g List.mem_cons_self fun he => hd.1 (he ▸ List.mem_map_of_mem hf)]
      omega

/-- To read a declared field is to read it by its kind; to read any other one is to pass over it. -/
theorem mergeField_eq_ok_iff {s r : Bytes} :
    f.mergeField depth key a s = .ok (a', r) ↔
      (∃ field, f.fields.find? (·.number == key.number) = some field ∧
        field.merge depth key.wire a s = .ok (a', r)) ∨
      (f.fields.find? (·.number == key.number) = none ∧ skipField depth key s = .ok r ∧
        a' = a) := by
  unfold mergeField
  cases f.fields.find? (·.number == key.number) with
  | some field =>
    cases hmerge : field.merge depth key.wire a s <;> simp [hmerge]
  | none => cases skipField depth key s <;> simp [and_comm, eq_comm]

theorem reads_mergeField_iff :
    Reads (f.mergeField depth key a) w a' ↔
      (∃ field, f.fields.find? (·.number == key.number) = some field ∧
        Reads (field.merge depth key.wire a) w a') ∨
      (f.fields.find? (·.number == key.number) = none ∧ Skips (skipField depth key) w ∧
        a' = a) := by
  unfold Reads Skips
  simp only [mergeField_eq_ok_iff]
  cases f.fields.find? (·.number == key.number) with
  | some field => simp
  | none => simp [forall_and]

/-- A field is taken as a whole. -/
theorem takes_of_mergeField [hf : f.Regular] {s r : Bytes}
    (h : f.mergeField depth key a s = .ok (a', r)) :
    ∃ w, s = w ++ r ∧ Takes (f.mergeField depth key a) f.encode key a w a' := by
  rcases mergeField_eq_ok_iff.1 h with ⟨field, hfind, hmerge⟩ | ⟨hfind, hskip, rfl⟩
  · obtain ⟨hmem, hkey⟩ := mem_of_find? hfind
    obtain ⟨w, rfl, hw⟩ := (hf.fields.regular hmem).takes hmerge
    rw [← hkey] at hw
    refine ⟨w, rfl, hw.isValue, reads_mergeField_iff.2 (.inl ⟨field, hfind, hw.reads⟩), ?_⟩
    exact length_flatMap_write_le hf.distinct hmem
      (fun other hother hne => (commutes_of_mem hmem hother hne.symm).write_eq hmerge)
      hw.length_write_le
  · obtain ⟨w, rfl, hvalue, hskips⟩ := skipField_eq_ok hskip
    exact ⟨w, rfl, hvalue, reads_mergeField_iff.2 (.inr ⟨hfind, hskips, rfl⟩),
      Nat.le_add_right _ _⟩

/-- Fields with different numbers may change places. -/
theorem reads_mergeField_swap [hf : f.Regular] {key' : Key} {b c : α} {v w : Bytes}
    (hne : key.number ≠ key'.number) (h : Reads (f.mergeField depth key a) v b)
    (h' : Reads (f.mergeField depth key' b) w c) :
    ∃ b', Reads (f.mergeField depth key' a) w b' ∧ Reads (f.mergeField depth key b') v c := by
  rcases reads_mergeField_iff.1 h with ⟨field, hfind, hv⟩ | ⟨hfind, hv, rfl⟩
  · rcases reads_mergeField_iff.1 h' with ⟨field', hfind', hw⟩ | ⟨hfind', hw, rfl⟩
    · obtain ⟨hmem, hkey⟩ := mem_of_find? hfind
      obtain ⟨hmem', hkey'⟩ := mem_of_find? hfind'
      rw [hkey, hkey'] at hne
      obtain ⟨b', hw', hv'⟩ := (commutes_of_mem hmem hmem' hne).swap hv hw
      exact ⟨b', reads_mergeField_iff.2 (.inl ⟨field', hfind', hw'⟩),
        reads_mergeField_iff.2 (.inl ⟨field, hfind, hv'⟩)⟩
    · exact ⟨a, reads_mergeField_iff.2 (.inr ⟨hfind', hw, rfl⟩), h⟩
  · exact ⟨c, h', reads_mergeField_iff.2 (.inr ⟨hfind, hv, rfl⟩)⟩

/-! ### Runs -/

/-- What a step of a run takes. -/
theorem Merges.takes_of_reads [f.Regular] {head body : Bytes} (hhead : Reads readKey head key)
    (hbody : Reads (f.mergeField depth key a) body a') :
    IsKey head key ∧ Takes (f.mergeField depth key a) f.encode key a body a' := by
  obtain ⟨head', hhead', hkey⟩ := readKey_eq_ok_iff.1 (hhead [])
  obtain ⟨body', hbody', htakes⟩ := takes_of_mergeField (hbody [])
  obtain rfl : head = head' := List.append_cancel_right hhead'
  obtain rfl : body = body' := List.append_cancel_right hbody'
  exact ⟨hkey, htakes⟩

/-- A run writes at most twice as much as it reads. -/
theorem Merges.length_encode_le [f.Regular] (h : f.Merges depth a w a') :
    (f.encode a').length ≤ (f.encode a).length + 2 * w.length := by
  induction h with
  | nil a => exact Nat.le_add_right _ _
  | cons hhead hbody _ ih =>
    obtain ⟨hkey, htakes⟩ := takes_of_reads hhead hbody
    have hle := htakes.length_write_le
    have hlen := hkey.length_writeKey_le
    simp only [List.length_append]
    omega

/-- Whatever the reader of a message read, it ran over it. -/
theorem merges_of_mergeFields [f.Regular] {stop fuel : Nat} {s r : Bytes}
    (h : f.mergeFields depth stop fuel a s = .ok (a', r)) :
    ∃ w, s = w ++ r ∧ f.Merges depth a w a' := by
  induction fuel generalizing a s with
  | zero =>
    cases h
    exact ⟨[], rfl, .nil _⟩
  | succ fuel ih =>
    rw [mergeFields] at h
    split at h
    · cases h
      exact ⟨[], rfl, .nil _⟩
    · obtain ⟨⟨key, r'⟩, hkey, hfield⟩ := bind_eq_ok.1 h
      obtain ⟨⟨b, r''⟩, hmerge, hrun⟩ := bind_eq_ok.1 hfield
      obtain ⟨head, rfl, hhead⟩ := readKey_eq_ok_iff.1 hkey
      obtain ⟨body, rfl, hbody⟩ := takes_of_mergeField hmerge
      obtain ⟨w, rfl, hw⟩ := ih hrun
      exact ⟨head ++ (body ++ w), by simp, .cons hhead.reads hbody.reads hw⟩

/-- The reader of a message stops at its end, given a unit of fuel for each byte. -/
theorem length_le_of_mergeFields [f.Regular] {stop fuel : Nat} {s r : Bytes}
    (hfuel : s.length ≤ stop + fuel) (h : f.mergeFields depth stop fuel a s = .ok (a', r)) :
    r.length ≤ stop := by
  induction fuel generalizing a s with
  | zero =>
    cases h
    exact hfuel
  | succ fuel ih =>
    rw [mergeFields] at h
    split at h
    · next hstop =>
      cases h
      exact hstop
    · obtain ⟨⟨key, r'⟩, hkey, hfield⟩ := bind_eq_ok.1 h
      obtain ⟨⟨b, r''⟩, hmerge, hrun⟩ := bind_eq_ok.1 hfield
      obtain ⟨head, rfl, hhead⟩ := readKey_eq_ok_iff.1 hkey
      obtain ⟨body, rfl, -⟩ := takes_of_mergeField hmerge
      have hpos := hhead.length_pos
      simp only [List.length_append] at hfuel
      exact ih (by omega) hrun

/-- A message behind its length is read by a run. -/
theorem merges_of_mergeDelimited [f.Regular] {s r : Bytes}
    (h : f.mergeDelimited depth a s = .ok (a', r)) :
    ∃ head w, s = head ++ w ++ r ∧ IsVarint head w.length ∧
      Reads (f.mergeDelimited depth a) (head ++ w) a' ∧
      (f.encode a').length ≤ (f.encode a).length + 2 * w.length := by
  cases depth with
  | zero => cases h
  | succ depth =>
    obtain ⟨⟨n, r'⟩, hn, hdelimited⟩ := bind_eq_ok.1 h
    obtain ⟨head, rfl, hhead⟩ := readVarint_eq_ok_iff.1 hn
    simp only at hdelimited
    split at hdelimited
    · cases hdelimited
    · next hlen =>
      obtain ⟨⟨b, r''⟩, hrun, hend⟩ := bind_eq_ok.1 hdelimited
      simp only at hend
      split at hend
      · next hstop =>
        cases hend
        obtain ⟨w, rfl, hw⟩ := merges_of_mergeFields hrun
        obtain rfl : n = w.length := by
          rw [List.length_append] at hlen hstop
          omega
        exact ⟨head, w, by simp, hhead, hw.reads_delimited_of_reads hhead.reads,
          hw.length_encode_le⟩
      · cases hend

end Format

/-! ### Kinds of messages -/

namespace Kind

variable {f : Format β}

/-- A message is written at most twice as long as it was read, with its length. -/
theorem length_writeDelimited_encode_le {head w : Bytes} {b b' : β} (h : IsVarint head w.length)
    (hle : (f.encode b').length ≤ (f.encode b).length + 2 * w.length) (number : Nat) :
    (writeDelimited number (f.encode b')).length ≤
      (writeVarint (f.encode b).length).length + (f.encode b).length +
        ((writeKey ⟨number, .lengthDelimited⟩).length + 2 * (head ++ w).length) := by
  have hhead := h.length_writeVarint_le
  have hpos := length_writeVarint_pos w.length
  have hlength : (writeVarint (f.encode b').length).length ≤
      (writeVarint (f.encode b).length).length + ((writeVarint w.length).length + 1) := calc
    _ ≤ (writeVarint ((f.encode b).length + 2 * w.length)).length := length_writeVarint_mono hle
    _ ≤ _ := length_writeVarint_add_le _ _
    _ ≤ _ := Nat.add_le_add_left (length_writeVarint_double_le _) _
  rw [length_writeDelimited, List.length_append]
  omega

/-- The same for a message that was not there before. -/
theorem length_writeDelimited_encode_le_of_missing [f.Regular] {head w : Bytes} {b : β}
    (h : IsVarint head w.length)
    (hle : (f.encode b).length ≤ (f.encode f.missing).length + 2 * w.length) (number : Nat) :
    (writeDelimited number (f.encode b)).length ≤
      2 * ((writeKey ⟨number, .lengthDelimited⟩).length + (head ++ w).length) := by
  have hlength := length_writeDelimited_encode_le h hle number
  have hpos : 0 < (writeKey ⟨number, .lengthDelimited⟩).length := length_writeVarint_pos _
  have hzero : (writeVarint (f.encode f.missing).length).length = 1 := by
    rw [Format.encode_missing]
    rfl
  rw [hzero, Format.encode_missing, List.length_nil] at hlength
  omega

instance regular_message [f.Regular] : (message f).Regular where
  write_missing _ := rfl
  takes := by
    intro depth b b' s r h
    obtain ⟨⟨c, r'⟩, hc, hb'⟩ := bind_eq_ok.1 h
    cases hb'
    obtain ⟨head, w, rfl, hhead, hreads, hle⟩ := Format.merges_of_mergeDelimited hc
    refine ⟨head ++ w, rfl, fun number => ⟨.lengthDelimited hhead, fun rest => ?_, ?_⟩⟩
    · simp only [message, hreads rest, ok_bind, pure_eq_ok]
    · cases b with
      | none => exact le_add_left (length_writeDelimited_encode_le_of_missing hhead hle number)
      | some b =>
        have hlength := length_writeDelimited_encode_le hhead hle number
        simp only [message, Option.elim, Option.getD_some] at hlength ⊢
        rw [length_writeDelimited number (f.encode b)]
        omega

instance regular_manyMessages [f.Regular] : (manyMessages f).Regular where
  write_missing _ := rfl
  takes := by
    intro depth bs bs' s r h
    obtain ⟨⟨b, r'⟩, hb, hbs⟩ := bind_eq_ok.1 h
    cases hbs
    obtain ⟨head, w, rfl, hhead, hreads, hle⟩ := Format.merges_of_mergeDelimited hb
    refine ⟨head ++ w, rfl, fun number => ⟨.lengthDelimited hhead, fun rest => ?_, ?_⟩⟩
    · simp only [manyMessages, hreads rest, ok_bind, pure_eq_ok]
    · have hlength := length_writeDelimited_encode_le_of_missing hhead hle number
      simp only [manyMessages, List.flatMap_append, List.flatMap_singleton, List.length_append]
        at hlength ⊢
      omega

end Kind

/-! ### Decoding -/

namespace Format

variable {f : Format α} {depth : Nat} {key key' : Key} {a a' : α} {s v w x y : Bytes}

/-- A message is decoded to a record exactly if it is a run to that record. -/
theorem decode_eq_ok_iff [f.Regular] : f.decode s = .ok a ↔ f.Merges levels f.missing s a := by
  constructor
  · intro h
    obtain ⟨⟨b, r⟩, hrun, rfl⟩ := map_eq_ok.1 h
    have hr := length_le_of_mergeFields (by omega) hrun
    obtain ⟨w, rfl, hw⟩ := merges_of_mergeFields hrun
    obtain rfl : r = [] := List.eq_nil_of_length_eq_zero (Nat.le_zero.1 hr)
    rwa [List.append_nil]
  · exact Merges.decode_eq

/-- **What was decoded is encoded in at most twice as many bytes.** -/
theorem length_encode_le [f.Regular] (h : f.decode s = .ok a) :
    (f.encode a).length ≤ 2 * s.length := by
  have hle := (decode_eq_ok_iff.1 h).length_encode_le
  rwa [encode_missing, List.length_nil, Nat.zero_add] at hle

/-- Fuel beyond a unit for each byte does not matter. -/
theorem mergeFields_eq_of_fuel [f.Regular] {stop fuel fuel' : Nat}
    (hf : s.length ≤ stop + fuel) (hf' : s.length ≤ stop + fuel') :
    f.mergeFields depth stop fuel a s = f.mergeFields depth stop fuel' a s := by
  induction fuel generalizing fuel' a s with
  | zero =>
    cases fuel' with
    | zero => rfl
    | succ fuel' =>
      have hstop : s.length ≤ stop := hf
      rw [mergeFields, mergeFields, if_pos hstop]
  | succ fuel ih =>
    cases fuel' with
    | zero =>
      have hstop : s.length ≤ stop := hf'
      rw [mergeFields, mergeFields, if_pos hstop]
    | succ fuel' =>
      rw [mergeFields, mergeFields]
      split
      · rfl
      · cases hkey : readKey s with
        | error e => rfl
        | ok p =>
          obtain ⟨key, r⟩ := p
          obtain ⟨head, rfl, hhead⟩ := readKey_eq_ok_iff.1 hkey
          simp only [ok_bind]
          cases hmerge : f.mergeField depth key a r with
          | error e => rfl
          | ok p =>
            obtain ⟨b, r'⟩ := p
            obtain ⟨body, rfl, -⟩ := takes_of_mergeField hmerge
            have hpos := hhead.length_pos
            simp only [List.length_append] at hf hf'
            exact ih (s := r') (by omega) (by omega)

/-- Behind a run, the reader of a message goes on with what the run gave. -/
theorem Merges.mergeFields_append [f.Regular] (h : f.Merges depth a v a') (s : Bytes)
    {fuel fuel' : Nat} (hf : (v ++ s).length ≤ fuel) (hf' : s.length ≤ fuel') :
    f.mergeFields depth 0 fuel a (v ++ s) = f.mergeFields depth 0 fuel' a' s := by
  induction h generalizing fuel with
  | nil a => exact mergeFields_eq_of_fuel (by simpa using hf) (by simpa using hf')
  | cons hhead hbody _ ih =>
    have hpos := (takes_of_reads hhead hbody).1.length_pos
    simp only [List.append_assoc, List.length_append] at hf ih ⊢
    obtain ⟨fuel, rfl⟩ : ∃ k, fuel = k + 1 := ⟨fuel - 1, by omega⟩
    rw [mergeFields, if_neg (by simp only [List.length_append]; omega), hhead]
    simp only [ok_bind]
    rw [hbody]
    exact ih (by omega)

theorem decode_append [f.Regular] (h : f.decode v = .ok a) (s : Bytes) :
    f.decode (v ++ s) = (·.1) <$> f.mergeFields levels 0 s.length a s := by
  rw [decode, (decode_eq_ok_iff.1 h).mergeFields_append s le_rfl le_rfl]

/-- A field that is not declared is passed over, unless it is a group. -/
theorem merges_of_unknown (h : IsField key w) (hgroup : key.wire ≠ .startGroup)
    (hunknown : key.number ∉ f.fields.map (·.number)) : f.Merges (depth + 1) a w a := by
  obtain ⟨hhead, hbody⟩ := h
  have hfind : f.fields.find? (·.number == key.number) = none := by
    rw [List.find?_eq_none]
    intro field hfield hnumber
    exact hunknown (eq_of_beq hnumber ▸ List.mem_map_of_mem hfield)
  have hstep : Reads (f.mergeField (depth + 1) key a) _ a :=
    reads_mergeField_iff.2 (.inr ⟨hfind, hbody.skips hgroup, rfl⟩)
  simpa using Merges.cons hhead.reads hstep (Merges.nil a)

/-- **A field that is not declared changes nothing**, neither the record nor the error, wherever
it stands between two fields. -/
theorem decode_append_unknown [f.Regular] (hv : f.decode v = .ok a) (h : IsField key w)
    (hgroup : key.wire ≠ .startGroup) (hunknown : key.number ∉ f.fields.map (·.number))
    (s : Bytes) : f.decode (v ++ w ++ s) = f.decode (v ++ s) := by
  have hrun := (decode_eq_ok_iff.1 hv).trans (merges_of_unknown h hgroup hunknown)
  rw [decode_append hv, decode_append (decode_eq_ok_iff.2 hrun)]

/-- A run that starts with a field goes on behind it. -/
theorem Merges.exists_of_isField [f.Regular] (h : f.Merges depth a (w ++ s) a')
    (hw : IsField key w) : ∃ head body b, w = head ++ body ∧ IsKey head key ∧
      Reads (f.mergeField depth key a) body b ∧ f.Merges depth b s a' := by
  obtain ⟨hhead, hvalue⟩ := hw
  rename_i head body
  have hpos := hhead.length_pos
  generalize hws : head ++ body ++ s = t at h
  cases h with
  | nil =>
    rw [List.append_eq_nil_iff, List.append_eq_nil_iff] at hws
    rw [hws.1.1] at hpos
    exact absurd hpos (Nat.lt_irrefl 0)
  | cons hhead' hbody' hrun =>
    rw [List.append_assoc] at hws
    obtain ⟨rfl, rfl, hws⟩ := hhead.reads.unique hhead' hws
    obtain ⟨-, htakes⟩ := takes_of_reads hhead' hbody'
    obtain ⟨rfl, rfl⟩ := hvalue.eq_of_append_eq htakes.isValue hws
    exact ⟨head, body, _, rfl, hhead, hbody', hrun⟩

/-- What is left of a run behind another one goes on with what that gave. -/
theorem Merges.of_append [f.Regular] {b : α} (hv : f.Merges depth a v b)
    (h : f.Merges depth a (v ++ s) a') : f.Merges depth b s a' := by
  induction hv with
  | nil => exact h
  | cons hhead hbody _ ih =>
    obtain ⟨hkey, htakes⟩ := takes_of_reads hhead hbody
    rw [← List.append_assoc, List.append_assoc _ _ s] at h
    obtain ⟨head', body', c, heq, hkey', hbody', hrun⟩ :=
      h.exists_of_isField (.intro hkey htakes.isValue)
    obtain ⟨rfl, -, rfl⟩ := hkey.reads.unique hkey'.reads heq
    obtain ⟨-, rfl, -⟩ := hbody.unique (x := []) (y := []) hbody' rfl
    exact ih hrun

/-- **Fields with different numbers may change places.** -/
theorem decode_swap [f.Regular] {m : α} (hv : f.decode v = .ok a) (hx : IsField key x)
    (hy : IsField key' y) (hne : key.number ≠ key'.number)
    (h : f.decode (v ++ x ++ y ++ s) = .ok m) : f.decode (v ++ y ++ x ++ s) = .ok m := by
  rw [decode_eq_ok_iff] at hv h ⊢
  simp only [List.append_assoc] at h ⊢
  obtain ⟨headx, bodyx, b, rfl, hheadx, hbodyx, hrun⟩ := (hv.of_append h).exists_of_isField hx
  obtain ⟨heady, bodyy, c, rfl, hheady, hbodyy, hrest⟩ := hrun.exists_of_isField hy
  obtain ⟨b', hbodyy', hbodyx'⟩ := reads_mergeField_swap hne hbodyx hbodyy
  have hswapped := Merges.cons hheady.reads hbodyy' (.cons hheadx.reads hbodyx' hrest)
  simpa using hv.trans hswapped

end Format

end LedgerBridge.Protobuf
