import LedgerBridge.Proofs.Text.Case

/-!
# Lower case forms stay

* `Run.isApart r s`: no character that the first run leads to is one that the second run changes;
* `mem_lower_cases`: what may be in the lower case form of a character;
* `lower_of_mem_lower`: what is in a lower case form is its own lower case form.
-/

namespace LedgerBridge.Case

/-- No character that the first run leads to is one that the second run changes: they are in front
of those or behind them, or one of two neighbours each. -/
def Run.isApart (r s : Run) : Bool :=
  r.last + r.shift < s.first || (s.last : Int) < r.first + r.shift ||
    ((r.first = r.last || r.step = 2) && s.step = 2 && (r.first + r.shift - s.first) % 2 = 1)

/-- The run changes the character with the code point `n`. -/
def Run.Changes (r : Run) (n : Nat) : Prop := r.first ≤ n ∧ n ≤ r.last ∧ (n - r.first) % r.step = 0

instance (r : Run) (n : Nat) : Decidable (r.Changes n) :=
  inferInstanceAs (Decidable (r.first ≤ n ∧ n ≤ r.last ∧ (n - r.first) % r.step = 0))

/-- The run changes the character with the code point `n` into the one with the code point `m`. -/
def Run.Leads (r : Run) (n m : Nat) : Prop := r.Changes n ∧ (m : Int) = n + r.shift

theorem Run.not_changes {r s : Run} {n m : Nat} (h : r.Leads n m) (hapart : r.isApart s = true) :
    ¬ s.Changes m := by
  obtain ⟨⟨hfirst, hlast, hstep⟩, hm⟩ := h
  rintro ⟨hfirst', hlast', hstep'⟩
  simp only [isApart, Bool.or_eq_true, Bool.and_eq_true, decide_eq_true_eq] at hapart
  rcases hapart with (hbelow | habove) | ⟨⟨hone | htwo, htwo'⟩, hodd⟩
  · omega
  · omega
  · rw [htwo'] at hstep'
    omega
  · rw [htwo'] at hstep'
    rw [htwo] at hstep
    omega

/-! ### The table -/

/-- The capital whose lower case form has two characters, as a run of its own. -/
def dottedRun : Run := ⟨0x130, 0x130, 1, 0⟩

theorem isApart_of_mem_lowerRuns {r s : Run} (hr : r ∈ lowerRuns)
    (hs : s ∈ dottedRun :: lowerRuns) :
    r.isApart s = true := by
  have hall : (lowerRuns.all fun r => (dottedRun :: lowerRuns).all r.isApart) = true := by
    decide +kernel
  exact List.all_eq_true.1 (List.all_eq_true.1 hall r hr) s hs

/-- The code points that a run leads to are characters, and no capitals of ASCII. -/
theorem bounds_of_mem_lowerRuns : ∀ r ∈ lowerRuns, (90 : Int) < r.first + r.shift ∧
    (r.last + r.shift < 0xd800 ∨ 0xe000 ≤ r.first + r.shift ∧ r.last + r.shift < 0x110000) := by
  decide +kernel

theorem leads_of_image? {r : Run} (hr : r ∈ lowerRuns) {n : Nat} {d : Char}
    (h : r.image? n = some d) : r.Leads n d.toNat := by
  unfold Run.image? at h
  split_ifs at h with hrange
  obtain ⟨hlow, hvalid⟩ := bounds_of_mem_lowerRuns r hr
  refine ⟨hrange, ?_⟩
  have hchar : ((n + r.shift).toNat).isValidChar := by
    unfold Nat.isValidChar
    omega
  have hd : d.toNat = (n + r.shift).toNat := by
    rw [← Option.some.inj h, Char.ofNat, dif_pos hchar]
    rfl
  omega

/-! ### Lower case forms -/

section Lower

variable {c d : Char}

/-- The character is one that lower case leaves as it is. -/
def IsSmall (d : Char) : Prop := lower d = [d]

theorem isSmall_toLower {c : Char} (hc : c.toNat < 0x80) : IsSmall c.toLower :=
  forall_ascii (p := fun c => IsSmall c.toLower) (by unfold IsSmall; decide) hc

theorem isSmall_of_leads {r : Run} (hr : r ∈ lowerRuns) {n : Nat} (h : r.Leads n d.toNat) :
    IsSmall d := by
  by_cases hd : d.toNat < 0x80
  · have hlow : 90 < d.toNat := by
      have := (bounds_of_mem_lowerRuns r hr).1
      have := h.2
      have := h.1.1
      omega
    rw [IsSmall, lower_ascii hd]
    exact congrArg (fun x => [x])
      (forall_ascii (p := fun d => 90 < d.toNat → d.toLower = d) (by decide) hd hlow)
  · have hdotted : d ≠ '\u0130' := by
      rintro rfl
      exact Run.not_changes h (isApart_of_mem_lowerRuns hr List.mem_cons_self) (by decide)
    have hnone : lowerRuns.findSome? (·.image? d.toNat) = none := by
      rw [List.findSome?_eq_none_iff]
      exact fun s hs =>
        if_neg (Run.not_changes h (isApart_of_mem_lowerRuns hr (List.mem_cons_of_mem _ hs)))
    rw [IsSmall, lower, if_neg hd, if_neg hdotted, hnone]
    rfl

/-- What is in the lower case form of a character: a letter of ASCII, the dotted i in two
characters, the character itself, or the one that a run leads to. -/
theorem mem_lower_cases (h : d ∈ lower c) :
    c.toNat < 0x80 ∧ d = c.toLower ∨ d = 'i' ∨ d = '\u0307' ∨ d = c ∧ IsSmall c ∨
      ∃ r ∈ lowerRuns, r.Leads c.toNat d.toNat := by
  by_cases hc : c.toNat < 0x80
  · rw [lower_ascii hc, List.mem_singleton] at h
    exact .inl ⟨hc, h⟩
  by_cases hdotted : c = '\u0130'
  · rw [lower, if_neg hc, if_pos hdotted, List.mem_pair] at h
    exact .inr (h.elim .inl fun h => .inr (.inl h))
  · have hlower : lower c = [(lowerRuns.findSome? (·.image? c.toNat)).getD c] := by
      rw [lower, if_neg hc, if_neg hdotted]
    refine .inr (.inr (.inr ?_))
    cases himage : lowerRuns.findSome? (·.image? c.toNat) with
    | none =>
      rw [himage, Option.getD_none] at hlower
      rw [hlower, List.mem_singleton] at h
      exact .inl ⟨h, hlower⟩
    | some e =>
      rw [himage, Option.getD_some] at hlower
      rw [hlower, List.mem_singleton] at h
      obtain ⟨r, hr, himage⟩ := List.exists_of_findSome?_eq_some himage
      exact .inr ⟨r, hr, h ▸ leads_of_image? hr himage⟩

/-- **What is in a lower case form is its own lower case form.** -/
theorem lower_of_mem_lower (h : d ∈ lower c) : lower d = [d] := by
  rcases mem_lower_cases h with ⟨hc, rfl⟩ | rfl | rfl | ⟨rfl, hsmall⟩ | ⟨r, hr, hleads⟩
  · exact isSmall_toLower hc
  · decide
  · decide +kernel
  · exact hsmall
  · exact isSmall_of_leads hr hleads

end Lower

end LedgerBridge.Case
