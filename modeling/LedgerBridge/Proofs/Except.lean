import Mathlib.Tactic

/-!
# Computations that may fail

How `do` blocks in `Except` evaluate, and what their success says about their parts. The readers of
all formats and the checks of all methods are such blocks. Of readers in `Option` only those of
lists are needed, which read one item after the other. What is run on each member of a list gives a
list that corresponds to it; some facts on such lists come first.
-/

namespace LedgerBridge

variable {ε α β γ : Type}

@[simp] theorem ok_bind (a : α) (f : α → Except ε β) : (Except.ok a >>= f) = f a := rfl

@[simp] theorem error_bind (e : ε) (f : α → Except ε β) : (Except.error e >>= f) = .error e := rfl

@[simp] theorem pure_eq_ok (a : α) : (pure a : Except ε α) = .ok a := rfl

@[simp] theorem throw_eq_error (e : ε) : (throw e : Except ε α) = .error e := rfl

@[simp] theorem map_ok (g : α → β) (a : α) : g <$> (Except.ok a : Except ε α) = .ok (g a) := rfl

@[simp] theorem map_error (g : α → β) (e : ε) :
    g <$> (Except.error e : Except ε α) = .error e := rfl

theorem bind_eq_ok {x : Except ε α} {f : α → Except ε β} {b : β} :
    x >>= f = .ok b ↔ ∃ a, x = .ok a ∧ f a = .ok b := by
  cases x <;> simp

theorem bind_eq_error {x : Except ε α} {f : α → Except ε β} {e : ε} :
    x >>= f = .error e ↔ x = .error e ∨ ∃ a, x = .ok a ∧ f a = .error e := by
  cases x <;> simp

theorem exists_of_isOk {x : Except ε α} (h : x.isOk) : ∃ a, x = .ok a := by
  cases x with
  | error e => cases h
  | ok a => exact ⟨a, rfl⟩

theorem isOk_iff {x : Except ε α} : x.isOk ↔ ∃ a, x = .ok a :=
  ⟨exists_of_isOk, fun ⟨_, h⟩ => h ▸ rfl⟩

theorem exists_ok_iff {x : Except ε α} : (∃ a, x = .ok a) ↔ ∀ e, x ≠ .error e := by
  cases x <;> simp

theorem map_eq_ok {x : Except ε α} {g : α → β} {b : β} :
    g <$> x = .ok b ↔ ∃ a, x = .ok a ∧ g a = b := by
  cases x <;> simp

theorem map_eq_error {x : Except ε α} {g : α → β} {e : ε} : g <$> x = .error e ↔ x = .error e := by
  cases x <;> simp

theorem mapError_eq_ok {ε' : Type} {x : Except ε α} {g : ε → ε'} {a : α} :
    x.mapError g = .ok a ↔ x = .ok a := by
  cases x <;> simp [Except.mapError]

theorem mapError_eq_error {ε' : Type} {x : Except ε α} {g : ε → ε'} {e : ε'} :
    x.mapError g = .error e ↔ ∃ e', x = .error e' ∧ g e' = e := by
  cases x <;> simp [Except.mapError]

theorem toOption_eq_some {x : Except ε α} {a : α} : x.toOption = some a ↔ x = .ok a := by
  cases x <;> simp [Except.toOption]

theorem ite_eq_error {p : Prop} [Decidable p] {e e' : ε} {a : α} :
    (if p then .error e' else .ok a) = (.error e : Except ε α) ↔ p ∧ e = e' := by
  by_cases h : p <;> simp [h, eq_comm]

/-! ### Lists that correspond -/

section Lists

variable {R : α → β → Prop} {l : List α}

theorem exists_of_mem_forall₂ {m : List β} {a : α} (h : List.Forall₂ R l m) (ha : a ∈ l) :
    ∃ b ∈ m, R a b := by
  obtain ⟨i, hi, rfl⟩ := List.getElem_of_mem ha
  exact ⟨_, List.getElem_mem (h.length_eq ▸ hi), h.get hi (h.length_eq ▸ hi)⟩

/-- A list that corresponds to another one is split where that one is. -/
theorem exists_of_forall₂_append {u v : List β} {b : β} (h : List.Forall₂ R l (u ++ b :: v)) :
    ∃ before a behind, l = before ++ a :: behind ∧ List.Forall₂ R before u ∧ R a b := by
  have hu := List.forall₂_take_append l u (b :: v) h
  obtain ⟨a, behind, hab, -, hl⟩ := List.forall₂_cons_right_iff.1
    (List.forall₂_drop_append l u (b :: v) h)
  exact ⟨l.take u.length, a, behind, by rw [← hl, List.take_append_drop], hu, hab⟩

/-- What is the same for members that are related is the same for both lists. -/
theorem map_eq_of_forall₂ {R : α → α → Prop} (f : α → β) (hf : ∀ a b, R a b → f b = f a)
    {l m : List α} (h : List.Forall₂ R l m) : m.map f = l.map f := by
  induction h with
  | nil => rfl
  | cons hab _ ih => rw [List.map_cons, List.map_cons, hf _ _ hab, ih]

/-- Members that give nothing may be left out. -/
theorem flatMap_filter_eq {p : α → Bool} {g : α → List β} (h : ∀ a ∈ l, p a = false → g a = []) :
    (l.filter p).flatMap g = l.flatMap g := by
  induction l with
  | nil => rfl
  | cons a l ih =>
    rw [List.flatMap_cons, ← ih fun b hb => h b (List.mem_cons_of_mem a hb)]
    cases ha : p a with
    | false =>
      rw [List.filter_cons_of_neg (by simp [ha]), h a List.mem_cons_self ha, List.nil_append]
    | true => rw [List.filter_cons_of_pos ha, List.flatMap_cons]

/-- The positions of the members of a list increase. -/
theorem pairwise_zipIdx (l : List α) : l.zipIdx.Pairwise fun p q => p.2 < q.2 := by
  have h : (l.zipIdx.map Prod.snd).Pairwise (· < ·) := by
    rw [List.zipIdx_map_snd]
    exact List.pairwise_lt_range'
  rwa [List.pairwise_map] at h

end Lists

/-! ### Results of lists -/

/-- What is done to every result of a list may be done after all of them are there. -/
theorem mapM_map (g : β → γ) (f : α → Except ε β) (l : List α) :
    (l.mapM fun a => g <$> f a) = List.map g <$> l.mapM f := by
  induction l with
  | nil => rfl
  | cons a l ih =>
    rw [List.mapM_cons, List.mapM_cons, ih]
    cases f a with
    | error e => rfl
    | ok b => cases l.mapM f <;> rfl

/-- A list of results is there exactly if each of them is. -/
theorem mapM_eq_ok {f : α → Except ε β} {l : List α} {r : List β} :
    l.mapM f = .ok r ↔ List.Forall₂ (fun a b => f a = .ok b) l r := by
  induction l generalizing r with
  | nil => simp [eq_comm]
  | cons a l ih =>
    rw [List.mapM_cons]
    constructor
    · intro h
      obtain ⟨b, hb, h⟩ := bind_eq_ok.1 h
      obtain ⟨bs, hbs, h⟩ := bind_eq_ok.1 h
      cases h
      exact .cons hb (ih.1 hbs)
    · rintro (_ | ⟨hb, hbs⟩)
      rw [hb, ok_bind, ih.2 hbs]
      rfl

theorem exists_mapM_eq_ok {f : α → Except ε β} {l : List α} :
    (∃ r, l.mapM f = .ok r) ↔ ∀ a ∈ l, ∃ b, f a = .ok b := by
  induction l with
  | nil => simp
  | cons a l ih =>
    rw [List.mapM_cons, List.forall_mem_cons, ← ih]
    simp only [bind_eq_ok, pure_eq_ok, Except.ok.injEq]
    constructor
    · rintro ⟨r, b, hb, bs, hbs, -⟩
      exact ⟨⟨b, hb⟩, bs, hbs⟩
    · rintro ⟨⟨b, hb⟩, bs, hbs⟩
      exact ⟨b :: bs, b, hb, bs, hbs, rfl⟩

/-- A list has no results exactly if some member is the first that has none. -/
theorem mapM_eq_error {f : α → Except ε β} {l : List α} {e : ε} :
    l.mapM f = .error e ↔ ∃ before a behind, l = before ++ a :: behind ∧
      (∀ x ∈ before, ∃ y, f x = .ok y) ∧ f a = .error e := by
  induction l with
  | nil => simp
  | cons a l ih =>
    rw [List.mapM_cons, bind_eq_error]
    constructor
    · rintro (h | ⟨b, hb, h⟩)
      · exact ⟨[], a, l, rfl, by simp, h⟩
      · rcases bind_eq_error.1 h with h | ⟨bs, -, h⟩
        · obtain ⟨before, c, behind, rfl, hbefore, hc⟩ := ih.1 h
          exact ⟨a :: before, c, behind, rfl, List.forall_mem_cons.2 ⟨⟨b, hb⟩, hbefore⟩, hc⟩
        · cases h
    · rintro ⟨before, c, behind, heq, hbefore, hc⟩
      cases before with
      | nil =>
        obtain ⟨rfl, rfl⟩ := List.cons.inj heq
        exact .inl hc
      | cons d before =>
        obtain ⟨rfl, rfl⟩ := List.cons.inj heq
        obtain ⟨⟨b, hb⟩, hbefore⟩ := List.forall_mem_cons.1 hbefore
        refine .inr ⟨b, hb, ?_⟩
        rw [ih.2 ⟨before, c, behind, rfl, hbefore, hc⟩, error_bind]

/-- A traversal whose steps fail like traversals of lists fails like the one of all these lists. -/
theorem mapM_eq_error_iff_flatMap {δ : Type} {f : α → Except ε β} {g : γ → Except ε δ}
    {m : α → List γ} (h : ∀ a e, f a = .error e ↔ (m a).mapM g = .error e) {l : List α} {e : ε} :
    l.mapM f = .error e ↔ (l.flatMap m).mapM g = .error e := by
  induction l with
  | nil => simp
  | cons a l ih =>
    rw [List.mapM_cons, List.flatMap_cons, List.mapM_append]
    cases hf : f a with
    | error e' => rw [(h a e').1 hf, error_bind, error_bind, Except.error.injEq, Except.error.injEq]
    | ok b =>
      have hok : ∃ r, (m a).mapM g = .ok r :=
        exists_ok_iff.2 fun e' he' => by rw [(h a e').2 he'] at hf; cases hf
      obtain ⟨r, hr⟩ := hok
      rw [hr, ok_bind, ok_bind]
      simp only [bind_pure_comp, map_eq_error, ih]

/-- Lists whose members give the same, one by one, have the same results. -/
theorem mapM_congr {f : α → Except ε γ} {g : β → Except ε γ} {l : List α} {m : List β}
    (h : List.Forall₂ (fun a b => f a = g b) l m) : l.mapM f = m.mapM g := by
  induction h with
  | nil => rfl
  | cons hab _ ih => rw [List.mapM_cons, List.mapM_cons, hab, ih]

/-- To leave members of a list out is to let them give nothing. -/
theorem flatten_mapM_filter (p : α → Bool) (f : α → Except ε (List β)) (l : List α) :
    List.flatten <$> (l.filter p).mapM f =
      List.flatten <$> l.mapM fun a => if p a then f a else .ok [] := by
  induction l with
  | nil => rfl
  | cons a l ih =>
    cases hp : p a with
    | false =>
      rw [List.filter_cons_of_neg (by simp [hp]), ih, List.mapM_cons, hp, if_neg (by decide)]
      cases l.mapM fun a => if p a then f a else .ok [] <;> rfl
    | true =>
      rw [List.filter_cons_of_pos hp, List.mapM_cons, List.mapM_cons, hp, if_pos rfl]
      cases f a with
      | error e => rfl
      | ok bs =>
        -- the results of the other members only meet those of the first when all are there
        simp only [ok_bind, pure_eq_ok, map_bind, map_ok, List.flatten_cons]
        have := congrArg (fun x => (bs ++ ·) <$> x) ih
        simpa [map_eq_pure_bind] using this

theorem exists_of_mem_mapM {f : α → Except ε β} {l : List α} {r : List β} {b : β}
    (h : l.mapM f = .ok r) (hb : b ∈ r) : ∃ a ∈ l, f a = .ok b := by
  exact exists_of_mem_forall₂ (mapM_eq_ok.1 h).flip hb

theorem exists_mem_of_mapM {f : α → Except ε β} {l : List α} {r : List β} {a : α}
    (h : l.mapM f = .ok r) (ha : a ∈ l) : ∃ b ∈ r, f a = .ok b := by
  exact exists_of_mem_forall₂ (mapM_eq_ok.1 h) ha

theorem eq_nil_iff_of_mapM {f : α → Except ε β} {l : List α} {r : List β}
    (h : l.mapM f = .ok r) : r = [] ↔ l = [] := by
  rw [← List.length_eq_zero_iff, ← List.length_eq_zero_iff, (mapM_eq_ok.1 h).length_eq]

/-- The lists that the members of a list give have their members in order, all together, if each of
them has, and if the members of the first list are in an order which theirs follow. -/
theorem pairwise_flatten_of_mapM {f : α → Except ε (List β)} {R : α → α → Prop}
    {T : β → β → Prop} {l : List α} {lists : List (List β)} (h : l.mapM f = .ok lists)
    (hl : l.Pairwise R) (hown : ∀ a ∈ l, ∀ bs, f a = .ok bs → bs.Pairwise T)
    (hcross : ∀ a ∈ l, ∀ a' ∈ l, R a a' → ∀ bs bs', f a = .ok bs → f a' = .ok bs' →
      ∀ b ∈ bs, ∀ b' ∈ bs', T b b') :
    lists.flatten.Pairwise T := by
  have hrun := mapM_eq_ok.1 h
  clear h
  induction hrun with
  | nil => exact .nil
  | @cons a bs l lists ha hrest ih =>
    obtain ⟨hfirst, hl⟩ := List.pairwise_cons.1 hl
    rw [List.flatten_cons, List.pairwise_append]
    refine ⟨hown a List.mem_cons_self bs ha, ih hl
      (fun a' ha' => hown a' (List.mem_cons_of_mem _ ha'))
      (fun a' ha' a'' ha'' => hcross a' (List.mem_cons_of_mem _ ha') a''
        (List.mem_cons_of_mem _ ha'')), fun b hb b' hb' => ?_⟩
    obtain ⟨bs', hbs', hb'⟩ := List.mem_flatten.1 hb'
    obtain ⟨a', ha', hrun'⟩ := exists_of_mem_mapM (mapM_eq_ok.2 hrest) hbs'
    exact hcross a List.mem_cons_self a' (List.mem_cons_of_mem _ ha') (hfirst a' ha') bs bs'
      ha hrun' b hb b' hb'

theorem mapM_eq_ok_map {f : α → Except ε β} {g : α → β} {l : List α}
    (h : ∀ a ∈ l, f a = .ok (g a)) : l.mapM f = .ok (l.map g) := by
  refine mapM_eq_ok.2 ?_
  rw [List.forall₂_map_right_iff, List.forall₂_same]
  exact h

/-! ### Readers of lists -/

section Option

variable {f : α → Option β} {l : List α}

theorem mapM_eq_some_iff {r : List β} :
    l.mapM f = some r ↔ List.Forall₂ (fun a b => f a = some b) l r := by
  induction l generalizing r with
  | nil =>
    rw [List.mapM_nil, List.forall₂_nil_left_iff]
    exact Option.some_inj.trans eq_comm
  | cons a l ih =>
    rw [List.mapM_cons, List.forall₂_cons_left_iff]
    simp only [Option.bind_eq_bind, Option.bind_eq_some_iff, ih, Option.pure_def,
      Option.some.injEq]
    constructor
    · rintro ⟨b, hb, bs, hbs, rfl⟩
      exact ⟨b, bs, hb, hbs, rfl⟩
    · rintro ⟨b, bs, hb, hbs, rfl⟩
      exact ⟨b, hb, bs, hbs, rfl⟩

/-- To leave out what cannot be read leaves nothing out of a list that can be read. -/
theorem mapM_eq_some_filterMap (h : ∀ a ∈ l, ∃ b, f a = some b) :
    l.mapM f = some (l.filterMap f) := by
  induction l with
  | nil => rfl
  | cons a l ih =>
    obtain ⟨⟨b, hb⟩, hl⟩ := List.forall_mem_cons.1 h
    rw [List.mapM_cons, hb, ih hl, List.filterMap_cons_some hb]
    rfl

theorem mapM_eq_none_of_mem {a : α} (ha : a ∈ l) (h : f a = none) : l.mapM f = none := by
  induction l with
  | nil => cases ha
  | cons b l ih =>
    rw [List.mapM_cons]
    rcases List.mem_cons.1 ha with rfl | ha
    · rw [h]
      rfl
    · rw [ih ha]
      cases f b <;> rfl

end Option

end LedgerBridge
