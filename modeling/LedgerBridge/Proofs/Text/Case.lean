import Mathlib.Tactic
import LedgerBridge.Text.Case

/-!
# Characters with a given upper case form

* `forall_ascii`, `forall_isUpper`, `forall_isLower`: facts on ASCII and its letters are checked one
  by one. `toUpper_toLower`, `toLower_toUpper`: there the two cases are inverse to each other;
* `upper_eq_singleton_iff`: a capital of ASCII is the upper case form of itself and of its small
  letter, and of two letters that ASCII does not have, a dotless i and a long s;
* `isLower_of_upper_eq`: an upper case form of several letters has no small letter of ASCII in
  second place; and `upper_ne_nil`: none is empty.
-/

namespace LedgerBridge.Case

/-- What holds of all characters of ASCII can be checked for each code point. -/
theorem forall_ascii {p : Char → Prop} (h : ∀ n < 128, p (Char.ofNat n)) {c : Char}
    (hc : c.toNat < 128) : p c := by
  have hp := h c.toNat hc
  rwa [Char.ofNat_toNat] at hp

/-- Letters outside ASCII whose upper case form is a capital of ASCII. -/
def foreign : List (Char × Char) := [('\u0131', 'I'), ('\u017f', 'S')]

section Ascii

variable {c capital : Char}

theorem isUpper_iff : c.isUpper = true ↔ 65 ≤ c.toNat ∧ c.toNat ≤ 90 := by
  show decide ('A'.val ≤ c.val ∧ c.val ≤ 'Z'.val) = true ↔ _
  rw [decide_eq_true_eq, UInt32.le_iff_toNat_le, UInt32.le_iff_toNat_le]
  rfl

theorem isLower_iff : c.isLower = true ↔ 97 ≤ c.toNat ∧ c.toNat ≤ 122 := by
  show (decide ('a'.val ≤ c.val) && decide (c.val ≤ 'z'.val)) = true ↔ _
  rw [Bool.and_eq_true, decide_eq_true_eq, decide_eq_true_eq, UInt32.le_iff_toNat_le,
    UInt32.le_iff_toNat_le]
  rfl

theorem isDigit_iff : c.isDigit = true ↔ 48 ≤ c.toNat ∧ c.toNat ≤ 57 := by
  show (decide ('0'.val ≤ c.val) && decide (c.val ≤ '9'.val)) = true ↔ _
  rw [Bool.and_eq_true, decide_eq_true_eq, decide_eq_true_eq, UInt32.le_iff_toNat_le,
    UInt32.le_iff_toNat_le]
  rfl

theorem lt_of_isUpper (h : c.isUpper = true) : c.toNat < 128 :=
  (isUpper_iff.1 h).2.trans_lt (by decide)

theorem lt_of_isLower (h : c.isLower = true) : c.toNat < 128 :=
  (isLower_iff.1 h).2.trans_lt (by decide)

theorem lt_of_isAlphanum (h : c.isAlphanum = true) : c.toNat < 128 := by
  rcases Bool.or_eq_true_iff.1 h with halpha | hdigit
  · exact (Bool.or_eq_true_iff.1 halpha).elim lt_of_isUpper lt_of_isLower
  · exact (isDigit_iff.1 hdigit).2.trans_lt (by decide)

/-- What holds of all capitals of ASCII can be checked for each of them. -/
theorem forall_isUpper {p : Char → Prop}
    (h : ∀ n < 128, (Char.ofNat n).isUpper = true → p (Char.ofNat n)) (hc : c.isUpper = true) :
    p c :=
  forall_ascii (p := fun d => d.isUpper = true → p d) h (lt_of_isUpper hc) hc

/-- So can what holds of all small letters. -/
theorem forall_isLower {p : Char → Prop}
    (h : ∀ n < 128, (Char.ofNat n).isLower = true → p (Char.ofNat n)) (hc : c.isLower = true) :
    p c :=
  forall_ascii (p := fun d => d.isLower = true → p d) h (lt_of_isLower hc) hc

theorem isUpper_toUpper (h : c.isLower = true) : c.toUpper.isUpper = true :=
  forall_isLower (p := fun d => d.toUpper.isUpper = true) (by decide) h

theorem isLower_toLower (h : c.isUpper = true) : c.toLower.isLower = true :=
  forall_isUpper (p := fun d => d.toLower.isLower = true) (by decide) h

theorem toLower_toUpper (h : c.isLower = true) : c.toUpper.toLower = c :=
  forall_isLower (p := fun d => d.toUpper.toLower = d) (by decide) h

theorem toUpper_toLower (h : c.isUpper = true) : c.toLower.toUpper = c :=
  forall_isUpper (p := fun d => d.toLower.toUpper = d) (by decide) h

theorem toUpper_eq_iff (hc : c.toNat < 128) (hcapital : capital.isUpper = true) :
    c.toUpper = capital ↔ c = capital ∨ c = capital.toLower := by
  have hsmall : capital.toLower.toUpper = capital := toUpper_toLower hcapital
  have hself : capital.toUpper = capital :=
    forall_isUpper (p := fun d => d.toUpper = d) (by decide) hcapital
  have hc : c.toUpper = c ∨ c.toUpper.toLower = c :=
    forall_ascii (p := fun d => d.toUpper = d ∨ d.toUpper.toLower = d) (by decide) hc
  constructor
  · rintro rfl
    exact hc.imp Eq.symm Eq.symm
  · rintro (rfl | rfl)
    · exact hself
    · exact hsmall

end Ascii

/-! ### The tables -/

/-- The runs that lead to capitals of ASCII. -/
theorem lt_of_mem_upperRuns : ∀ r ∈ upperRuns, (90 : Int) < r.first + r.shift ∨
    (r.first, r.last, r.shift) = (0x131, 0x131, -232) ∨
    (r.first, r.last, r.shift) = (0x17f, 0x17f, -300) := by
  decide +kernel

/-- Upper case forms in the table of words have several letters, and the second one is no small
letter. -/
theorem isLower_of_mem_upperWords : ∀ w ∈ upperWords, ∃ first second rest,
    w.2 = first :: second :: rest ∧ (Char.ofNat second).isLower = false := by
  have h : ∀ w ∈ upperWords, (match w.2 with
      | _ :: second :: _ => !(Char.ofNat second).isLower
      | _ => false) = true := by
    decide +kernel
  intro w hw
  have hw := h w hw
  split at hw
  · next first second rest heq => exact ⟨first, second, rest, heq, by simpa using hw⟩
  · cases hw

theorem eq_of_ofNat_eq {n : Nat} {c : Char} (h : Char.ofNat n = c) (hc : c.toNat ≠ 0) :
    n = c.toNat := by
  by_cases hn : n.isValidChar
  · rw [← h, Char.ofNat, dif_pos hn]
    rfl
  · rw [← h, Char.ofNat, dif_neg hn] at hc
    exact absurd rfl hc

/-- A run leads to a capital of ASCII from two characters only. -/
theorem mem_foreign_of_image? {c capital : Char} {r : Run} (hr : r ∈ upperRuns)
    (h : r.image? c.toNat = some capital) (hcapital : capital.isUpper = true) :
    (c, capital) ∈ foreign := by
  obtain ⟨hlow, hhigh⟩ := isUpper_iff.1 hcapital
  unfold Run.image? at h
  split_ifs at h with hrange
  obtain ⟨hfirst, hlast, -⟩ := hrange
  have hcode := eq_of_ofNat_eq (Option.some.inj h) (by omega)
  rcases lt_of_mem_upperRuns r hr with hlt | heq | heq
  · omega
  all_goals
    simp only [Prod.mk.injEq] at heq
    obtain ⟨h1, h2, h3⟩ := heq
    have hc : c.toNat = r.first := by omega
    rw [h1] at hc
    rw [h3, hc] at hcode
  · have hc : c = '\u0131' := Char.toNat_inj.1 hc
    have hcap : capital = 'I' := Char.toNat_inj.1 hcode.symm
    rw [hc, hcap]
    decide
  · have hc : c = '\u017f' := Char.toNat_inj.1 hc
    have hcap : capital = 'S' := Char.toNat_inj.1 hcode.symm
    rw [hc, hcap]
    decide

/-! ### Upper case forms -/

section Upper

variable {c capital : Char}

theorem upper_eq_of_not_ascii (hc : ¬ c.toNat < 0x80) :
    (∃ w ∈ upperWords, upper c = w.2.map Char.ofNat) ∨
      upper c = [(upperRuns.findSome? (·.image? c.toNat)).getD c] := by
  rw [upper, if_neg hc]
  split
  · next w hw => exact .inl ⟨w, List.mem_of_find?_eq_some hw, rfl⟩
  · exact .inr rfl

/-- **Which characters have a capital of ASCII as their upper case form.** -/
theorem upper_eq_singleton_iff (hcapital : capital.isUpper = true) :
    upper c = [capital] ↔ c = capital ∨ c = capital.toLower ∨ (c, capital) ∈ foreign := by
  have hascii := lt_of_isUpper hcapital
  have hsmall : capital.toLower.toNat < 128 := lt_of_isLower (isLower_toLower hcapital)
  by_cases hc : c.toNat < 0x80
  · have hforeign : (c, capital) ∉ foreign := by
      have hfar : ∀ p ∈ foreign, ¬ p.1.toNat < 0x80 := by decide
      exact fun h => hfar _ h hc
    rw [upper_ascii hc, List.singleton_inj, toUpper_eq_iff hc hcapital]
    simp [hforeign]
  · have hne : c ≠ capital ∧ c ≠ capital.toLower := by
      constructor
      · rintro rfl
        exact hc hascii
      · rintro rfl
        exact hc hsmall
    constructor
    · intro h
      refine .inr (.inr ?_)
      rcases upper_eq_of_not_ascii hc with ⟨w, hw, hupper⟩ | hupper
      · obtain ⟨first, second, rest, hlist, -⟩ := isLower_of_mem_upperWords w hw
        rw [h, hlist] at hupper
        cases hupper
      · rw [h, List.singleton_inj] at hupper
        cases himage : upperRuns.findSome? (·.image? c.toNat) with
        | none =>
          rw [himage] at hupper
          exact absurd hupper.symm hne.1
        | some d =>
          rw [himage] at hupper
          obtain ⟨r, hr, himage⟩ := List.exists_of_findSome?_eq_some himage
          rw [← Option.getD_some (a := d) (b := c), ← hupper] at himage
          exact mem_foreign_of_image? hr himage hcapital
    · rintro (h | h | h)
      · exact absurd h hne.1
      · exact absurd h hne.2
      · have hupper : ∀ p ∈ foreign, upper p.1 = [p.2] := by decide +kernel
        exact hupper _ h

/-- In an upper case form of several letters the second one is no small letter. -/
theorem isLower_of_upper_eq {first second : Char} {rest : List Char}
    (h : upper c = first :: second :: rest) : second.isLower = false := by
  by_cases hc : c.toNat < 0x80
  · rw [upper_ascii hc] at h
    cases h
  · rcases upper_eq_of_not_ascii hc with ⟨w, hw, hupper⟩ | hupper
    · obtain ⟨first', second', rest', hlist, hlower⟩ := isLower_of_mem_upperWords w hw
      rw [h, hlist] at hupper
      simp only [List.map_cons, List.cons.injEq] at hupper
      rwa [hupper.2.1]
    · rw [h] at hupper
      cases hupper

theorem upper_ne_nil (c : Char) : upper c ≠ [] := by
  by_cases hc : c.toNat < 0x80
  · rw [upper_ascii hc]
    exact List.cons_ne_nil _ _
  · rcases upper_eq_of_not_ascii hc with ⟨w, hw, hupper⟩ | hupper
    · obtain ⟨first, second, rest, hlist, -⟩ := isLower_of_mem_upperWords w hw
      rw [hupper, hlist]
      exact List.cons_ne_nil _ _
    · rw [hupper]
      exact List.cons_ne_nil _ _

end Upper

end LedgerBridge.Case
