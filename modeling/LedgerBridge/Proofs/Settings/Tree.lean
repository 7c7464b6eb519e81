import LedgerBridge.Proofs.Except
import LedgerBridge.Settings.Tree

/-!
# Trees laid over others

* `last? name ms`: what members set under a name in the end;
* `inSection name ms`: what they put into the section of a name;
* `lookup_overAll`: of members laid over others what is set last wins, and what is not set stays;
* `lookup_overAll_section`: sections are merged, so that no member of one resets its siblings.
-/

namespace LedgerBridge.Settings.Tree

/-- A list of members. -/
abbrev Members : Type := List (String × Tree)

/-- The members of a section. -/
def members : Tree → Members
  | .section ms => ms
  | _ => []

/-- Whether a tree is a section. -/
def IsSection (t : Tree) : Prop := t = .section t.members

/-- The value that is set last under a name. -/
def last? (name : String) (ms : Members) : Option Tree := ms.reverse.lookup name

/-- What is set in the sections of a name. -/
def inSection (name : String) (ms : Members) : Members :=
  ms.flatMap fun m => if m.1 = name then m.2.members else []

variable {name : String} {news olds : Members}

/-! ### Members -/

theorem lookup_cons {α : Type} (name : String) (m : String × α) (ms : List (String × α)) :
    (m :: ms).lookup name = if name = m.1 then some m.2 else ms.lookup name := by
  obtain ⟨key, value⟩ := m
  by_cases h : name = key
  · rw [if_pos h, h, List.lookup_cons_self]
  · have hne : (name == key) = false := by simpa using h
    rw [if_neg h, List.lookup_cons, hne]

theorem lookup_set {α : Type} (name key : String) (value : α) (ms : List (String × α)) :
    (set key value ms).lookup name = if name = key then some value else ms.lookup name := by
  induction ms with
  | nil => rw [set, lookup_cons]
  | cons m ms ih =>
    unfold set
    by_cases hm : m.1 = key
    · rw [if_pos hm, lookup_cons, lookup_cons, hm]
      split_ifs <;> rfl
    · rw [if_neg hm, lookup_cons, lookup_cons, ih]
      by_cases hname : name = m.1
      · rw [if_pos hname, if_pos hname, if_neg (hname ▸ hm)]
      · rw [if_neg hname, if_neg hname]

theorem last?_concat (name : String) (ms : Members) (m : String × Tree) :
    last? name (ms ++ [m]) = if name = m.1 then some m.2 else last? name ms := by
  rw [last?, List.reverse_append, List.reverse_singleton, List.singleton_append, lookup_cons]
  rfl

theorem inSection_concat (name : String) (ms : Members) (m : String × Tree) :
    inSection name (ms ++ [m]) = inSection name ms ++ if m.1 = name then m.2.members else [] := by
  rw [inSection, List.flatMap_append, List.flatMap_singleton]
  rfl

/-! ### Laying over -/

theorem onto_of_not_isSection {t : Tree} (h : ¬ t.IsSection) (old : Tree) : onto t old = t := by
  cases t with
  | «section» ms => exact absurd rfl h
  | _ => simp only [onto]

theorem onto_section (ms os : Members) :
    onto (.section ms) (.section os) = .section (overAll ms os) := by
  simp only [onto]

theorem overAll_append (before behind olds : Members) :
    overAll (before ++ behind) olds = overAll behind (overAll before olds) := by
  induction before generalizing olds with
  | nil => simp only [List.nil_append, overAll]
  | cons m before ih => simp only [List.cons_append, overAll, ih]

theorem overAll_concat (news olds : Members) (m : String × Tree) :
    overAll (news ++ [m]) olds = overOne m (overAll news olds) := by
  rw [overAll_append]
  simp only [overAll]

/-- A member laid over others, by its name. -/
theorem lookup_overOne (name : String) (m : String × Tree) (olds : Members) :
    (overOne m olds).lookup name =
      if name = m.1 then some ((olds.lookup m.1).elim m.2 (onto m.2)) else olds.lookup name := by
  obtain ⟨key, new⟩ := m
  simp only [overOne, lookup_set]
  cases olds.lookup key <;> rfl

/-- **What is set last wins, and what is not set stays.** -/
theorem lookup_overAll (h : ∀ t, last? name news = some t → ¬ t.IsSection) :
    (overAll news olds).lookup name = (last? name news).or (olds.lookup name) := by
  induction news using List.reverseRecOn with
  | nil => simp only [overAll, last?, List.reverse_nil, List.lookup_nil, Option.none_or]
  | append_singleton news m ih =>
    rw [last?_concat] at h ⊢
    rw [overAll_concat, lookup_overOne]
    by_cases hname : name = m.1
    · simp only [if_pos hname] at h ⊢
      rw [Option.some_or]
      cases (overAll news olds).lookup m.1 with
      | none => rfl
      | some old => exact congrArg some (onto_of_not_isSection (h m.2 rfl) old)
    · simp only [if_neg hname] at h ⊢
      exact ih h

/-- **Sections are merged.** -/
theorem lookup_overAll_section {os : Members} (h : ∀ m ∈ news, m.1 = name → m.2.IsSection)
    (hold : olds.lookup name = some (.section os)) :
    (overAll news olds).lookup name = some (.section (overAll (inSection name news) os)) := by
  induction news using List.reverseRecOn with
  | nil => simpa only [inSection, List.flatMap_nil, overAll] using hold
  | append_singleton news m ih =>
    have hnews := ih fun m hm => h m (by simp [hm])
    rw [overAll_concat, lookup_overOne, inSection_concat]
    by_cases hname : name = m.1
    · have hm : m.2 = .section m.2.members := h m (by simp) hname.symm
      rw [if_pos hname, ← hname, hnews, if_pos rfl, overAll_append, Option.elim_some]
      conv_lhs => rw [hm, onto_section]
    · rw [if_neg hname, if_neg (Ne.symm hname), List.append_nil, hnews]

end LedgerBridge.Settings.Tree
