import Mathlib.Tactic

/-!
# Parts between separators

* `not_mem_of_mem_splitOn`: no part holds the separator;
* `mem_intercalate`: what is in parts put together is the separator, or in one of them.
-/

namespace LedgerBridge.Split

variable {α : Type} [BEq α] [LawfulBEq α] {x : α} {xs part : List α}

theorem splitOn_cons_self (x : α) (xs : List α) : (x :: xs).splitOn x = [] :: xs.splitOn x := by
  simp only [List.splitOn_eq_splitOnP, List.splitOnP_cons_eq_if_modifyHead, BEq.rfl, if_true]

theorem splitOn_cons_of_ne {c : α} (h : c ≠ x) (xs : List α) :
    (c :: xs).splitOn x = (xs.splitOn x).modifyHead (c :: ·) := by
  have hne : (c == x) = false := by simpa using h
  simp only [List.splitOn_eq_splitOnP, List.splitOnP_cons_eq_if_modifyHead, hne]
  rfl

theorem not_mem_of_mem_splitOn (h : part ∈ xs.splitOn x) : x ∉ part := by
  induction xs generalizing part with
  | nil =>
    obtain rfl := List.mem_singleton.1 h
    exact List.not_mem_nil
  | cons c xs ih =>
    by_cases hc : c = x
    · rw [hc, splitOn_cons_self, List.mem_cons] at h
      rcases h with rfl | h
      · exact List.not_mem_nil
      · exact ih h
    · rw [splitOn_cons_of_ne hc] at h
      obtain ⟨first, rest, hsplit⟩ := List.exists_cons_of_ne_nil (List.splitOn_ne_nil x xs)
      rw [hsplit] at ih h
      rw [List.modifyHead_cons, List.mem_cons] at h
      rcases h with rfl | h
      · rw [List.mem_cons, not_or]
        exact ⟨fun heq => hc heq.symm, ih List.mem_cons_self⟩
      · exact ih (List.mem_cons_of_mem _ h)

omit [BEq α] [LawfulBEq α] in
theorem mem_intercalate {c : α} {parts : List (List α)} (h : c ∈ [x].intercalate parts) :
    c = x ∨ ∃ part ∈ parts, c ∈ part := by
  induction parts with
  | nil => simp at h
  | cons part parts ih =>
    cases parts with
    | nil => exact .inr ⟨part, List.mem_cons_self, by simpa using h⟩
    | cons next parts =>
      rw [List.intercalate_cons_cons, List.mem_append, List.mem_append] at h
      rcases h with (h | h) | h
      · exact .inr ⟨part, List.mem_cons_self, h⟩
      · exact .inl (List.mem_singleton.1 h)
      · exact (ih h).imp_right fun ⟨part, hpart, hc⟩ => ⟨part, List.mem_cons_of_mem _ hpart, hc⟩

omit [BEq α] [LawfulBEq α] in
theorem mem_intercalate_of_mem {c : α} {parts : List (List α)} (hpart : part ∈ parts)
    (hc : c ∈ part) : c ∈ [x].intercalate parts := by
  induction parts with
  | nil => cases hpart
  | cons first parts ih =>
    cases parts with
    | nil =>
      rw [List.intercalate_singleton]
      exact List.mem_singleton.1 hpart ▸ hc
    | cons next parts =>
      rw [List.intercalate_cons_cons, List.mem_append, List.mem_append]
      rcases List.mem_cons.1 hpart with rfl | hpart
      · exact .inl (.inl hc)
      · exact .inr (ih hpart)

theorem mem_of_mem_splitOn {c : α} (hpart : part ∈ xs.splitOn x) (hc : c ∈ part) : c ∈ xs := by
  have hwhole : [x].intercalate (xs.splitOn x) = xs := List.intercalate_splitOn x
  rw [← hwhole]
  exact mem_intercalate_of_mem hpart hc

end LedgerBridge.Split
