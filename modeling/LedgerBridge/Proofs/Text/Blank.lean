import Mathlib.Data.List.TakeWhile
import Mathlib.Tactic
import LedgerBridge.Text.Blank

/-!
# What is left between blanks

* `strip p cs`: a list without the members at its two ends of which `p` holds; trimming a text is
  stripping it of blanks;
* `strip_eq_iff`: what is left has no such member at either end, and only such members were around
  it.
-/

namespace LedgerBridge.Blank

section Strip

variable {α : Type} {p : α → Bool} {cs front core back : List α}

/-- A list without the members at its ends of which `p` holds. -/
def strip (p : α → Bool) (cs : List α) : List α :=
  ((cs.dropWhile p).reverse.dropWhile p).reverse

/-- The property holds of no member at either end. -/
def Stripped (p : α → Bool) (cs : List α) : Prop :=
  ∀ c, cs.head? = some c ∨ cs.getLast? = some c → p c = false

theorem head?_dropWhile_eq {c : α} (h : (cs.dropWhile p).head? = some c) : p c = false := by
  have := List.head?_dropWhile_not p cs
  rw [h] at this
  simpa using this

theorem dropWhile_eq_self (h : ∀ c, cs.head? = some c → p c = false) : cs.dropWhile p = cs := by
  cases cs with
  | nil => rfl
  | cons c cs => rw [List.dropWhile_cons_of_neg (by simp [h c rfl])]

theorem strip_of_stripped (h : Stripped p cs) : strip p cs = cs := by
  have hfront : cs.dropWhile p = cs := dropWhile_eq_self fun c hc => h c (.inl hc)
  have hback : cs.reverse.dropWhile p = cs.reverse := by
    refine dropWhile_eq_self fun c hc => h c (.inr ?_)
    rwa [List.head?_reverse] at hc
  rw [strip, hfront, hback, List.reverse_reverse]

theorem strip_append (hfront : ∀ c ∈ front, p c = true) (hback : ∀ c ∈ back, p c = true)
    (hcore : Stripped p core) : strip p (front ++ core ++ back) = core := by
  have hrest : (core ++ back).dropWhile p = if core = [] then [] else core ++ back := by
    split_ifs with h
    · rw [h, List.nil_append, List.dropWhile_eq_nil_iff]
      exact hback
    · refine dropWhile_eq_self fun c hc => hcore c (.inl ?_)
      rwa [List.head?_append_of_ne_nil _ h] at hc
  have hfrom : (front ++ core ++ back).dropWhile p = if core = [] then [] else core ++ back := by
    rw [List.append_assoc, List.dropWhile_append_of_pos hfront, hrest]
  rw [strip, hfrom]
  split_ifs with h
  · rw [h]
    rfl
  · have hstay : core.reverse.dropWhile p = core.reverse := by
      refine dropWhile_eq_self fun c hc => hcore c (.inr ?_)
      rwa [List.head?_reverse] at hc
    rw [List.reverse_append, List.dropWhile_append_of_pos (by simpa using hback), hstay,
      List.reverse_reverse]

theorem exists_append_strip (p : α → Bool) (cs : List α) : ∃ front back,
    (∀ c ∈ front, p c = true) ∧ (∀ c ∈ back, p c = true) ∧ cs = front ++ strip p cs ++ back := by
  refine ⟨cs.takeWhile p, ((cs.dropWhile p).reverse.takeWhile p).reverse,
    fun c hc => List.mem_takeWhile_imp hc,
    fun c hc => List.mem_takeWhile_imp (List.mem_reverse.1 hc), ?_⟩
  have hrest : strip p cs ++ ((cs.dropWhile p).reverse.takeWhile p).reverse = cs.dropWhile p := by
    rw [strip, ← List.reverse_append, List.takeWhile_append_dropWhile, List.reverse_reverse]
  rw [List.append_assoc, hrest, List.takeWhile_append_dropWhile]

theorem stripped_strip (p : α → Bool) (cs : List α) : Stripped p (strip p cs) := by
  intro c h
  rcases h with h | h
  · -- the first member is left from the front, where stripping the end takes it or all
    have hrest : ∃ back, cs.dropWhile p = strip p cs ++ back := by
      refine ⟨((cs.dropWhile p).reverse.takeWhile p).reverse, ?_⟩
      rw [strip, ← List.reverse_append, List.takeWhile_append_dropWhile, List.reverse_reverse]
    obtain ⟨back, hback⟩ := hrest
    have hhead : (cs.dropWhile p).head? = some c := by
      rw [hback, List.head?_append, h, Option.some_or]
    exact head?_dropWhile_eq hhead
  · rw [strip, List.getLast?_reverse] at h
    exact head?_dropWhile_eq h

/-- **What stripping leaves.** -/
theorem strip_eq_iff : strip p cs = core ↔ Stripped p core ∧ ∃ front back,
    (∀ c ∈ front, p c = true) ∧ (∀ c ∈ back, p c = true) ∧ cs = front ++ core ++ back := by
  constructor
  · rintro rfl
    exact ⟨stripped_strip p cs, exists_append_strip p cs⟩
  · rintro ⟨hcore, front, back, hfront, hback, rfl⟩
    exact strip_append hfront hback hcore

theorem mem_of_mem_strip {c : α} (h : c ∈ strip p cs) : c ∈ cs := by
  obtain ⟨front, back, -, -, heq⟩ := exists_append_strip p cs
  rw [heq]
  simp [h]

end Strip

theorem trimChars_eq_strip (cs : List Char) : trimChars cs = strip isBlank cs := rfl

end LedgerBridge.Blank
