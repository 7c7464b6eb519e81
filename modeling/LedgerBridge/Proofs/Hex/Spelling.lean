import LedgerBridge.Proofs.Hex.Mark

/-!
# Spellings of hexadecimal texts

Clients write the mark or leave it out, and write digits in either case.

* `Remarks s t`: the text `t` is `s`, or `s` behind the mark that it did not have. Then both are the
  same without it (`Remarks.bare_eq`);
* `Recases s t`: the two texts differ in the case of digits only. If `s` denotes a quantity or a
  value of fixed width, then `t` denotes the same (`Quantity.parse?_of_recases`,
  `FixedHex.parse_of_recases`).
-/

namespace LedgerBridge

namespace Hex

variable {s t : String}

/-! ### The mark in front -/

/-- A text, or the same text behind the mark if it is not empty and has none. -/
inductive Remarks (s : String) : String → Prop
  | same : Remarks s s
  | marked (hne : s ≠ "") (hbare : ¬ IsMarked s) : Remarks s (marked s)

namespace Remarks

theorem bare_eq (h : Remarks s t) : bare t = bare s := by
  cases h with
  | same => rfl
  | marked hne hbare => rw [bare_marked hne, bare_of_not_isMarked hbare]

theorem eq_empty_iff (h : Remarks s t) : t = "" ↔ s = "" := by
  rw [← bare_eq_empty_iff, h.bare_eq, bare_eq_empty_iff]

end Remarks

/-! ### The case of digits -/

/-- The letters among the digits, in both cases. -/
def letters : List (Char × Char) :=
  [('a', 'A'), ('b', 'B'), ('c', 'C'), ('d', 'D'), ('e', 'E'), ('f', 'F')]

/-- The same character, or the same digit in the other case. -/
def SameDigit (c d : Char) : Prop := c = d ∨ (c, d) ∈ letters ∨ (d, c) ∈ letters

instance : DecidableRel SameDigit := fun c d =>
  inferInstanceAs (Decidable (c = d ∨ (c, d) ∈ letters ∨ (d, c) ∈ letters))

namespace SameDigit

variable {c d : Char}

theorem refl (c : Char) : SameDigit c c := .inl rfl

theorem symm (h : SameDigit c d) : SameDigit d c := by
  rcases h with rfl | h | h
  · exact refl c
  · exact .inr (.inr h)
  · exact .inr (.inl h)

theorem digitValue?_eq (h : SameDigit c d) : Quantity.digitValue? c = Quantity.digitValue? d := by
  have hletters : ∀ p ∈ letters, Quantity.digitValue? p.1 = Quantity.digitValue? p.2 := by decide
  rcases h with rfl | h | h
  · rfl
  · exact hletters _ h
  · exact (hletters _ h).symm

/-- What is no letter has no other case. -/
theorem eq_of_forall_ne (h : SameDigit c d) (hc : ∀ p ∈ letters, p.1 ≠ c ∧ p.2 ≠ c) : d = c := by
  rcases h with rfl | h | h
  · rfl
  · exact absurd rfl (hc _ h).1
  · exact absurd rfl (hc _ h).2

end SameDigit

/-- Texts which differ in the case of digits only. -/
def Recases (s t : String) : Prop := List.Forall₂ SameDigit s.toList t.toList

instance (s t : String) : Decidable (Recases s t) :=
  inferInstanceAs (Decidable (List.Forall₂ SameDigit s.toList t.toList))

namespace Recases

theorem refl (s : String) : Recases s s := List.forall₂_same.2 fun c _ => SameDigit.refl c

theorem symm (h : Recases s t) : Recases t s := List.Forall₂.flip (h.imp fun _ _ => SameDigit.symm)

/-- The mark in front has no other case. -/
theorem exists_of_marked {u : String} (h : Recases (Hex.marked u) t) :
    ∃ v, t = Hex.marked v ∧ Recases u v := by
  rw [Recases, toList_marked] at h
  obtain ⟨z, cs, hz, h, ht⟩ := List.forall₂_cons_left_iff.1 h
  obtain ⟨x, ds, hx, h, rfl⟩ := List.forall₂_cons_left_iff.1 h
  obtain rfl := hz.eq_of_forall_ne (by decide)
  obtain rfl := hx.eq_of_forall_ne (by decide)
  refine ⟨String.ofList ds, ?_, ?_⟩
  · rw [← String.toList_inj, toList_marked, ht, String.toList_ofList]
  · rwa [Recases, String.toList_ofList]

theorem eq_empty_iff (h : Recases s t) : s = "" ↔ t = "" := by
  rw [← String.toList_eq_nil_iff, ← String.toList_eq_nil_iff, ← List.length_eq_zero_iff,
    ← List.length_eq_zero_iff, h.length_eq]

theorem bare (h : Recases s t) : Recases (Hex.bare s) (Hex.bare t) := by
  by_cases hs : IsMarked s
  · obtain ⟨u, rfl⟩ := hs
    obtain ⟨v, rfl, huv⟩ := exists_of_marked h
    by_cases hu : u = ""
    · rw [hu, huv.eq_empty_iff.1 hu]
      exact refl _
    · rwa [bare_marked hu, bare_marked fun hv => hu (huv.eq_empty_iff.2 hv)]
  · have ht : ¬ IsMarked t := by
      rintro ⟨v, rfl⟩
      obtain ⟨u, rfl, -⟩ := exists_of_marked h.symm
      exact hs ⟨u, rfl⟩
    rwa [bare_of_not_isMarked hs, bare_of_not_isMarked ht]

end Recases

/-! ### Digits read as bytes -/

/-- The same digit is read from the bytes of either case. -/
theorem SameDigit.forall₂_bytes {c d : Char} (h : SameDigit c d) :
    List.Forall₂ (fun a b => value? a = value? b) (String.utf8EncodeChar c)
      (String.utf8EncodeChar d) := by
  have hletters : ∀ p ∈ letters, (String.utf8EncodeChar p.1).map value? =
      (String.utf8EncodeChar p.2).map value? := by decide
  have hmap : (String.utf8EncodeChar c).map value? = (String.utf8EncodeChar d).map value? := by
    rcases h with rfl | h | h
    · rfl
    · exact hletters _ h
    · exact (hletters _ h).symm
  rw [← List.forall₂_eq_eq_eq, List.forall₂_map_left_iff, List.forall₂_map_right_iff] at hmap
  exact hmap

theorem Recases.forall₂_bytes (h : Recases s t) :
    List.Forall₂ (fun a b => value? a = value? b) (Utf8.encode s) (Utf8.encode t) :=
  List.rel_flatMap h fun _ _ => SameDigit.forall₂_bytes

/-- Digits that are read are read alike in either case. -/
theorem decodeFrom_of_forall₂ {digits digits' bytes : Bytes} {position : Nat}
    (h : List.Forall₂ (fun a b => value? a = value? b) digits digits')
    (hdecode : decodeFrom position digits = .ok bytes) :
    decodeFrom position digits' = .ok bytes := by
  induction position, digits using decodeFrom.induct generalizing digits' bytes with
  | case1 position high low rest b a hlow hhigh ih =>
    rcases h with _ | ⟨hhigh', _ | ⟨hlow', hrest⟩⟩
    rw [decodeFrom, hhigh, hlow] at hdecode
    obtain ⟨bytes, hbytes, rfl⟩ := map_eq_ok.1 hdecode
    rw [decodeFrom, ← hhigh', ← hlow', hhigh, hlow]
    simp only [ih hrest hbytes, map_ok]
  | case2 position high low rest hhigh =>
    simp [decodeFrom, hhigh] at hdecode
  | case3 position high low rest a hhigh hlow =>
    simp [decodeFrom, hhigh, hlow] at hdecode
  | case4 position byte => cases hdecode
  | case5 position =>
    cases h
    exact hdecode

theorem decode_of_recases {bytes : Bytes} (h : Recases s t)
    (hdecode : decode (Utf8.encode s) = .ok bytes) : decode (Utf8.encode t) = .ok bytes := by
  have hbytes := h.forall₂_bytes
  unfold decode at hdecode ⊢
  rw [← hbytes.length_eq]
  split_ifs at hdecode ⊢
  exact decodeFrom_of_forall₂ hbytes hdecode

end Hex

/-! ### Quantities -/

namespace Quantity

variable {s t : String}

theorem numberFrom_congr {cs ds : List Char} (h : List.Forall₂ Hex.SameDigit cs ds) (value : Nat) :
    numberFrom value cs = numberFrom value ds := by
  induction h generalizing value with
  | nil => rfl
  | cons hcd _ ih => simp only [numberFrom, hcd.digitValue?_eq, ih]

theorem unsigned_of_ne {c : Char} {cs : List Char} (h : c ≠ '+') :
    unsigned (c :: cs) = c :: cs := by
  unfold unsigned
  split
  · next heq => exact absurd (List.cons.inj heq).1 h
  · rfl

theorem unsigned_congr {cs ds : List Char} (h : List.Forall₂ Hex.SameDigit cs ds) :
    List.Forall₂ Hex.SameDigit (unsigned cs) (unsigned ds) := by
  cases h with
  | nil => exact .nil
  | @cons c d cs ds hcd hrest =>
    by_cases hc : c = '+'
    · subst hc
      obtain rfl := hcd.eq_of_forall_ne (by decide)
      exact hrest
    · have hd : d ≠ '+' := by
        rintro rfl
        exact hc (hcd.symm.eq_of_forall_ne (by decide))
      rw [unsigned_of_ne hc, unsigned_of_ne hd]
      exact .cons hcd hrest

theorem parse?_of_recases (h : Hex.Recases s t) : parse? s = parse? t := by
  have hunsigned := unsigned_congr h
  unfold parse?
  generalize unsigned s.toList = cs at hunsigned ⊢
  generalize unsigned t.toList = ds at hunsigned ⊢
  cases hunsigned with
  | nil => rfl
  | cons hcd hrest => simp only [numberFrom_congr (.cons hcd hrest)]

end Quantity

/-! ### Values of fixed width -/

namespace FixedHex

variable {n : Nat} {s t : String} {v : FixedHex n}

theorem parse_eq_ok : parse n s = .ok v ↔
    (Utf8.encode (Hex.bare s)).length = 2 * n ∧
      Hex.decode (Utf8.encode (Hex.bare s)) = .ok v.bytes := by
  have hv := v.length_bytes
  unfold parse
  simp only
  by_cases hlen : (Utf8.encode (Hex.bare s)).length = 2 * n
  · rw [if_neg (not_not.2 hlen)]
    cases Hex.decode (Utf8.encode (Hex.bare s)) with
    | error flaw => simp
    | ok bytes =>
      by_cases hbytes : bytes.length = n
      · simp [hbytes, hlen]
      · simp only [hbytes, dite_false, reduceCtorEq, Except.ok.injEq, hlen, true_and, false_iff]
        rintro rfl
        exact hbytes hv
  · simp [hlen]

theorem parse_of_recases (h : Hex.Recases s t) (hs : parse n s = .ok v) : parse n t = .ok v := by
  rw [parse_eq_ok] at hs ⊢
  rw [← h.bare.forall₂_bytes.length_eq]
  exact ⟨hs.1, Hex.decode_of_recases h.bare hs.2⟩

theorem parse_of_remarks (h : Hex.Remarks s t) (hs : parse n s = .ok v) : parse n t = .ok v := by
  rwa [parse_eq_ok, h.bare_eq, ← parse_eq_ok]

end FixedHex

end LedgerBridge
