import LedgerBridge.Proofs.Protobuf.Regular

/-!
# What holds of all that a short message holds

A property of records that every field keeps, as long as no more than `n` bytes are read, holds of
what is decoded from `n` bytes at most. So a byte string inside a message is no longer than the
message.

* `Kind.Keeps`, `Field.Keeps`, `Format.Keeps`: a reader keeps a property of what it reads. A field
  keeps what its kind keeps at its place (`Field.keeps_of_kind`), and whatever is found at places
  apart from its own (`Field.keeps_of_apart`);
* `Format.keeps_decode`: what all fields keep holds of what is decoded.
-/

namespace LedgerBridge.Protobuf

variable {α β : Type} {n : Nat}

/-- Given at most `n` bytes, the kind keeps a property of its value. -/
def Kind.Keeps (k : Kind β) (n : Nat) (P : β → Prop) : Prop :=
  ∀ ⦃depth : Nat⦄ ⦃b b' : β⦄ ⦃s r : Bytes⦄,
    s.length ≤ n → P b → k.merge depth b s = .ok (b', r) → P b'

/-- Given at most `n` bytes, the field keeps a property of its record. -/
def Field.Keeps (field : Field α) (n : Nat) (Q : α → Prop) : Prop :=
  ∀ ⦃depth : Nat⦄ ⦃wire : WireType⦄ ⦃a a' : α⦄ ⦃s r : Bytes⦄,
    s.length ≤ n → Q a → field.merge depth wire a s = .ok (a', r) → Q a'

/-- Given at most `n` bytes, all fields keep a property of their record. -/
def Format.Keeps (f : Format α) (n : Nat) (Q : α → Prop) : Prop :=
  f.fields.Forall fun field => field.Keeps n Q

/-! ### Fields -/

namespace Field

variable {number : Nat} {name : String} {kind : Kind β} {get : α → β} {set : β → α → α}

theorem keeps_of_kind {P : β → Prop} (hk : kind.Keeps n P)
    (hget : ∀ b a, get (set b a) = b := by intros; rfl) :
    (Field.of number name kind get set).Keeps n fun a => P (get a) := by
  intro depth wire a a' s r hs ha h
  obtain ⟨-, b, hb, rfl⟩ := merge_of_eq_ok.1 h
  rw [hget]
  exact hk hs ha hb

theorem keeps_of_apart {Q : α → Prop} (h : ∀ b a, Q a → Q (set b a)) :
    (Field.of number name kind get set).Keeps n Q := by
  intro depth wire a a' s r _ ha hmerge
  obtain ⟨-, b, -, rfl⟩ := merge_of_eq_ok.1 hmerge
  exact h b a ha

end Field

/-! ### Formats -/

namespace Format

variable {f : Format α} {Q : α → Prop}

/-- By induction on the run: its parts are no longer than the whole. -/
theorem Merges.keeps {depth : Nat} {a a' : α} {w : Bytes} (h : f.Merges depth a w a')
    (hf : f.Keeps n Q) (hw : w.length ≤ n) (ha : Q a) : Q a' := by
  induction h with
  | nil a => exact ha
  | @cons a b c key head body w _ hstep _ ih =>
    simp only [List.length_append] at hw
    refine ih (by omega) ?_
    rcases mergeField_eq_ok_iff.1 (hstep []) with ⟨field, hfind, hmerge⟩ | ⟨-, -, rfl⟩
    · have hkeeps := List.forall_iff_forall_mem.1 hf field (mem_of_find? hfind).1
      exact hkeeps (by rw [List.append_nil]; omega) ha hmerge
    · exact ha

/-- **What all fields keep holds of what is decoded.** -/
theorem keeps_decode [f.Regular] {a : α} {s : Bytes} (h : f.decode s = .ok a) (hf : f.Keeps n Q)
    (hmissing : Q f.missing) (hs : s.length ≤ n) : Q a :=
  (decode_eq_ok_iff.1 h).keeps hf hs hmissing

theorem keeps_mergeDelimited [f.Regular] {depth : Nat} {a a' : α} {s r : Bytes}
    (h : f.mergeDelimited depth a s = .ok (a', r)) (hf : f.Keeps n Q) (ha : Q a)
    (hs : s.length ≤ n) : Q a' := by
  cases depth with
  | zero => cases h
  | succ depth =>
    obtain ⟨⟨count, r'⟩, hcount, hbody⟩ := bind_eq_ok.1 h
    obtain ⟨head, rfl, -⟩ := readVarint_eq_ok_iff.1 hcount
    simp only at hbody
    split at hbody
    · cases hbody
    · obtain ⟨⟨b, r''⟩, hrun, hend⟩ := bind_eq_ok.1 hbody
      obtain ⟨w, rfl, hw⟩ := merges_of_mergeFields hrun
      simp only [List.length_append] at hs
      simp only at hend
      split at hend
      · cases hend
        exact hw.keeps hf (by omega) ha
      · cases hend

end Format

/-! ### Kinds -/

namespace Kind

/-- A byte string is no longer than the bytes that it was read from. -/
theorem keeps_bytes : bytes.Keeps n fun b => b.length ≤ n := by
  intro depth b b' s r hs _ h
  obtain ⟨head, rfl, -⟩ := readDelimited_eq_ok h
  simp only [List.length_append] at hs
  omega

variable {f : Format β} [f.Regular] {Q : β → Prop} (hf : f.Keeps n Q) (hmissing : Q f.missing)
include hf hmissing

theorem keeps_message : (message f).Keeps n fun o => ∀ b ∈ o, Q b := by
  intro depth o o' s r hs ho h
  obtain ⟨⟨b, r'⟩, hb, h⟩ := bind_eq_ok.1 h
  cases h
  rintro _ ⟨⟩
  refine Format.keeps_mergeDelimited hb hf ?_ hs
  -- the message goes on with what was there before
  cases o with
  | none => exact hmissing
  | some c => exact ho c rfl

theorem keeps_manyMessages : (manyMessages f).Keeps n fun bs => ∀ b ∈ bs, Q b := by
  intro depth bs bs' s r hs hbs h
  obtain ⟨⟨b, r'⟩, hb, h⟩ := bind_eq_ok.1 h
  cases h
  rw [List.forall_mem_append, List.forall_mem_singleton]
  exact ⟨hbs, Format.keeps_mergeDelimited hb hf hmissing hs⟩

end Kind

end LedgerBridge.Protobuf
