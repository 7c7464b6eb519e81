import LedgerBridge.Eth.BlockRef
import LedgerBridge.Proofs.Quantity

/-!
# What block references name

* `Quantity.Denotes`: digits of either case, with a plus sign in front or without one, denote their
  value. `Quantity.parse?_eq_some_iff`: these are the texts that are read as quantities;
* `BlockRef.Names`: a text is a tag, or it denotes a quantity. `BlockRef.parse_eq_ok_iff` and
  `BlockRef.parse_eq_error_iff`: these are the texts that are read as references, and the others are
  refused.
-/

namespace LedgerBridge

namespace Quantity

/-- The number is the value of the digits of a text, which may have a plus sign in front. -/
def Denotes (s : String) (n : UInt64) : Prop :=
  ∃ cs ds, (s.toList = cs ∨ s.toList = '+' :: cs) ∧ cs ≠ [] ∧
    List.Forall₂ (fun c d => digitValue? c = some d) cs ds ∧ n.toNat = Nat.ofDigits 16 ds.reverse

theorem numberFrom_eq_some {cs : List Char} {value n : Nat} : numberFrom value cs = some n ↔
    ∃ ds, List.Forall₂ (fun c d => digitValue? c = some d) cs ds ∧
      ds.foldl (fun m d => m * 16 + d) value = n := by
  induction cs generalizing value with
  | nil => simp [numberFrom]
  | cons c cs ih =>
    rw [numberFrom, Option.bind_eq_some_iff]
    constructor
    · rintro ⟨d, hd, h⟩
      obtain ⟨ds, hds, hn⟩ := ih.1 h
      exact ⟨d :: ds, .cons hd hds, hn⟩
    · rintro ⟨-, hd | ⟨hd, hds⟩, hn⟩
      exact ⟨_, hd, ih.2 ⟨_, hds, hn⟩⟩

theorem foldl_eq_ofDigits (ds : List Nat) :
    ds.foldl (fun m d => m * 16 + d) 0 = Nat.ofDigits 16 ds.reverse := by
  rw [Nat.ofDigits_eq_foldr, List.foldr_reverse]
  simp only [Nat.cast_id, add_comm, mul_comm]

theorem eq_or_eq_cons_unsigned (cs : List Char) : cs = unsigned cs ∨ cs = '+' :: unsigned cs := by
  unfold unsigned
  split
  · exact .inr rfl
  · exact .inl rfl

/-- **The texts that are read as quantities denote them.** -/
theorem parse?_eq_some_iff {s : String} {n : UInt64} : parse? s = some n ↔ Denotes s n := by
  have hvalue {m : Nat} : (if m < UInt64.size then some (UInt64.ofNat m) else none) = some n ↔
      n.toNat = m := by
    by_cases hm : m < UInt64.size
    · rw [if_pos hm, Option.some.injEq, ← UInt64.toNat_inj, UInt64.toNat_ofNat_of_lt' hm, eq_comm]
    · rw [if_neg hm]
      exact ⟨fun h => (nomatch h), fun h => absurd n.toNat_lt (h ▸ hm)⟩
  constructor
  · intro h
    unfold parse? at h
    split at h
    · cases h
    · next hne =>
      obtain ⟨m, hm, h⟩ := Option.bind_eq_some_iff.1 h
      obtain ⟨ds, hds, rfl⟩ := numberFrom_eq_some.1 hm
      refine ⟨_, ds, eq_or_eq_cons_unsigned _, hne, hds, ?_⟩
      rw [hvalue.1 h, foldl_eq_ofDigits]
  · rintro ⟨cs, ds, hs, hne, hds, hn⟩
    have hm : numberFrom 0 cs = some n.toNat :=
      numberFrom_eq_some.2 ⟨ds, hds, (foldl_eq_ofDigits ds).trans hn.symm⟩
    have hunsigned : unsigned s.toList = cs := by
      rcases hs with hs | hs
      · rw [hs, unsigned_of_numberFrom hm]
      · rw [hs]
        rfl
    unfold parse?
    rw [hunsigned]
    split
    · exact absurd rfl hne
    · rw [hm, Option.bind_some, hvalue]

end Quantity

namespace Eth.BlockRef

/-- What a text names, the mark in front left aside: a tag, or the block with a number. -/
inductive Names (s : String) : BlockRef → Prop
  | latest (h : Hex.bare s = "latest") : Names s .latest
  | earliest (h : Hex.bare s = "earliest") : Names s .earliest
  | pending (h : Hex.bare s = "pending") : Names s .pending
  | number {n : UInt64} (h : Quantity.Denotes (Hex.bare s) n) : Names s (.number n)

/-- The refusal of a text that names nothing. -/
def refusal (s : String) : ApiError := .ofHex (.invalidQuantity (Hex.bare s))

variable {s : String} {ref : BlockRef}

/-- No tag denotes a quantity. -/
theorem parse_of_denotes {n : UInt64} (h : Quantity.Denotes (Hex.bare s) n) :
    parse s = .ok (.number n) := by
  rw [← Quantity.parse?_eq_some_iff] at h
  have hne (tag : String) (htag : Quantity.parse? tag = none) : Hex.bare s ≠ tag := by
    rintro rfl
    rw [h] at htag
    cases htag
  rw [parse, if_neg (hne _ (by decide)), if_neg (hne _ (by decide)), if_neg (hne _ (by decide)),
    Quantity.parse, h]
  rfl

/-- **The texts that are read as references name them.** -/
theorem parse_eq_ok_iff : parse s = .ok ref ↔ Names s ref := by
  constructor
  · intro h
    rw [parse] at h
    split_ifs at h with hlatest hearliest hpending
    · cases h
      exact .latest hlatest
    · cases h
      exact .earliest hearliest
    · cases h
      exact .pending hpending
    · obtain ⟨n, hn, rfl⟩ := map_eq_ok.1 h
      have hn := mapError_eq_ok.1 hn
      unfold Quantity.parse at hn
      split at hn
      · next m hm =>
        cases hn
        exact .number (Quantity.parse?_eq_some_iff.1 hm)
      · cases hn
  · rintro (h | h | h | h)
    · simp [parse, h]
    · simp [parse, h]
    · simp [parse, h]
    · exact parse_of_denotes h

/-- No text names two blocks. -/
theorem Names.unique {ref' : BlockRef} (h : Names s ref) (h' : Names s ref') : ref = ref' :=
  Except.ok.inj ((parse_eq_ok_iff.2 h).symm.trans (parse_eq_ok_iff.2 h'))

theorem eq_refusal_of_parse {e : ApiError} (h : parse s = .error e) : e = refusal s := by
  rw [parse] at h
  split_ifs at h
  obtain ⟨e', he', rfl⟩ := mapError_eq_error.1 (map_eq_error.1 h)
  unfold Quantity.parse at he'
  split at he'
  · cases he'
  · cases he'
    rfl

/-- **The others are refused.** -/
theorem parse_eq_error_iff {e : ApiError} :
    parse s = .error e ↔ (∀ ref, ¬ Names s ref) ∧ e = refusal s := by
  simp only [← parse_eq_ok_iff]
  constructor
  · intro h
    exact ⟨by simp [h], eq_refusal_of_parse h⟩
  · rintro ⟨hnone, rfl⟩
    cases h : parse s with
    | ok ref => exact absurd h (hnone ref)
    | error e => rw [eq_refusal_of_parse h]

end Eth.BlockRef

end LedgerBridge
