import Mathlib.Data.List.TakeWhile
import Mathlib.Tactic
import LedgerBridge.Url.Punycode

/-!
# Labels in ASCII read back

* `readDistance_distance`: a distance is read back, whatever follows it;
* `Follows`: where the reader stands when the writer has come to some character of the label. It has
  all characters below the one that is written, and those in front that equal it;
* `Follows.pass`, `Follows.passes`: one character, and all code points one after the other;
* `decode?_encode`: a label is read back.
-/

namespace LedgerBridge.Url.Punycode

/-! ### Digits and distances -/

theorem digitValue?_digit {d : Nat} (h : d < 36) : digitValue? (digit d) = some d := by
  have hall : ∀ d ∈ List.range 36, digitValue? (digit d) = some d := by decide
  exact hall d (List.mem_range.2 h)

theorem digit_ne_hyphen {d : Nat} (h : d < 36) : digit d ≠ '-' := by
  have hall : ∀ d ∈ List.range 36, digit d ≠ '-' := by decide
  exact hall d (List.mem_range.2 h)

theorem threshold_bounds (k bias : Nat) : 1 ≤ threshold k bias ∧ threshold k bias ≤ 26 := by
  unfold threshold
  split_ifs <;> omega

/-- A digit that is not the last one, and what is left of the distance behind it. -/
theorem distance_step {delta t : Nat} (ht : 1 ≤ t ∧ t ≤ 26) (h : t ≤ delta) :
    t + (delta - t) % (36 - t) < 36 ∧ (delta - t) / (36 - t) < delta ∧
      t + (delta - t) % (36 - t) + (36 - t) * ((delta - t) / (36 - t)) = delta := by
  have hmod := Nat.mod_lt (delta - t) (show 0 < 36 - t by omega)
  have hle := Nat.div_le_self (delta - t) (36 - t)
  have hdiv := Nat.mod_add_div (delta - t) (36 - t)
  omega

section Distance

variable {bias fuel k delta : Nat}

/-- **A distance is read back.** -/
theorem readDistance_distance (h : delta < fuel) (weight : Nat) (rest : List Char) :
    readDistance bias k weight (distance bias fuel k delta ++ rest) =
      some (delta * weight, rest) := by
  induction fuel generalizing k delta weight with
  | zero => omega
  | succ fuel ih =>
    have ht := threshold_bounds k bias
    unfold distance
    by_cases hlast : delta < threshold k bias
    · simp only [if_pos hlast, List.singleton_append, readDistance,
        digitValue?_digit (show delta < 36 by omega), Option.bind_eq_bind, Option.bind_some]
      rfl
    · obtain ⟨hdigit, hless, hsum⟩ := distance_step ht (Nat.le_of_not_lt hlast)
      have hnot : ¬ threshold k bias +
          (delta - threshold k bias) % (36 - threshold k bias) < threshold k bias := by omega
      simp only [if_neg hlast, List.cons_append, readDistance, digitValue?_digit hdigit,
        Option.bind_eq_bind, Option.bind_some, if_neg hnot,
        ih (hless.trans_le (Nat.le_of_lt_succ h))]
      have hvalue : delta * weight =
          (threshold k bias + (delta - threshold k bias) % (36 - threshold k bias)) * weight +
            (delta - threshold k bias) / (36 - threshold k bias) *
              (weight * (36 - threshold k bias)) := by
        conv_lhs => rw [← hsum]
        ring
      rw [hvalue]
      rfl

theorem mem_distance {c : Char} (hc : c ∈ distance bias fuel k delta) : ∃ d < 36, c = digit d := by
  induction fuel generalizing k delta with
  | zero => cases hc
  | succ fuel ih =>
    have ht := threshold_bounds k bias
    unfold distance at hc
    by_cases hlast : delta < threshold k bias
    · rw [if_pos hlast, List.mem_singleton] at hc
      exact ⟨delta, by omega, hc⟩
    · obtain ⟨hdigit, -, -⟩ := distance_step ht (Nat.le_of_not_lt hlast)
      rw [if_neg hlast, List.mem_cons] at hc
      rcases hc with hc | hc
      · exact ⟨_, hdigit, hc⟩
      · exact ih hc

theorem distance_ne_nil (h : 0 < fuel) : distance bias fuel k delta ≠ [] := by
  obtain ⟨fuel, rfl⟩ := Nat.exists_eq_succ_of_ne_zero h.ne'
  simp only [distance]
  split_ifs <;> simp

end Distance

/-! ### The reader behind the writer -/

section Reader

variable {basic fuel n i bias delta : Nat} {label rest : List Char}

/-- **A distance puts the next character into the label.** -/
theorem readOthers_distance {c : Char} (hn : n + (i + delta) / (label.length + 1) = c.toNat) :
    readOthers basic (fuel + 1) n i bias label (distance bias (delta + 1) 36 delta ++ rest) =
      readOthers basic fuel c.toNat ((i + delta) % (label.length + 1) + 1)
        (adapt delta (label.length + 1) (label.length = basic))
        (label.take ((i + delta) % (label.length + 1)) ++
          c :: label.drop ((i + delta) % (label.length + 1))) rest := by
  have hne : distance bias (delta + 1) 36 delta ++ rest ≠ [] :=
    List.append_ne_nil_of_left_ne_nil (distance_ne_nil (Nat.succ_pos delta)) rest
  have hread := @readDistance_distance bias (delta + 1) 36 delta (Nat.lt_succ_self delta) 1 rest
  rw [Nat.mul_one] at hread
  rw [readOthers.eq_3 _ _ _ _ _ _ _ hne, hread]
  simp only [Option.bind_eq_bind, Option.bind_some, hn, Char.ofNat_toNat]
  exact if_pos c.valid

end Reader

/-- The characters that are in the label when those up to `m` of the part `front` are written, and
those below `m` of the rest. -/
def present (m : Nat) (front rest : List Char) : List Char :=
  front.filter (·.toNat ≤ m) ++ rest.filter (·.toNat < m)

/-- The reader has the characters that the writer has written, and waits at some place. What it has
to count to get to the place of the writer is the distance of the writer and its own. -/
def Follows (start : List Char) (st : State) (m : Nat) (front rest : List Char) : Prop :=
  ∃ n i, n ≤ m ∧ st.written = (present m front rest).length ∧
    i + st.delta = (m - n) * (st.written + 1) + (front.filter (·.toNat ≤ m)).length ∧
    ∀ digits fuel, (st.out ++ digits).length < fuel → ∃ fuel', digits.length < fuel' ∧
      readOthers start.length fuel 0x80 0 72 start (st.out ++ digits) =
        readOthers start.length fuel' n i st.bias (present m front rest) digits

section Follow

variable {start cs front rest : List Char} {st : State} {m : Nat} {c : Char}

theorem present_concat_of_lt (h : c.toNat < m) :
    present m (front ++ [c]) rest = present m front (c :: rest) := by
  simp [present, h, h.le]

theorem present_concat_of_gt (h : m < c.toNat) :
    present m (front ++ [c]) rest = present m front (c :: rest) := by
  simp [present, h.le.not_gt, h.not_ge]

/-- A character below the one that is written is passed by. -/
theorem Follows.of_lt (h : Follows start st m front (c :: rest)) (hc : c.toNat < m) :
    Follows start { st with delta := st.delta + 1 } m (front ++ [c]) rest := by
  obtain ⟨n, i, hn, hwritten, hplace, hread⟩ := h
  refine ⟨n, i, hn, ?_, ?_, ?_⟩
  · rw [present_concat_of_lt hc]
    exact hwritten
  · have hcount : ((front ++ [c]).filter (·.toNat ≤ m)).length =
        (front.filter (·.toNat ≤ m)).length + 1 := by simp [hc.le]
    show i + (st.delta + 1) = _
    rw [hcount, ← Nat.add_assoc, hplace, Nat.add_assoc]
  · rw [present_concat_of_lt hc]
    exact hread

/-- A character above the one that is written does not count. -/
theorem Follows.of_gt (h : Follows start st m front (c :: rest)) (hc : m < c.toNat) :
    Follows start st m (front ++ [c]) rest := by
  have hcount : (front ++ [c]).filter (·.toNat ≤ m) = front.filter (·.toNat ≤ m) := by
    simp [hc.not_ge]
  unfold Follows
  rw [present_concat_of_gt hc, hcount]
  exact h

/-- The character that is written gets to its place. -/
theorem Follows.of_eq (h : Follows start st m front (c :: rest)) (hc : c.toNat = m) :
    Follows start
      { out := st.out ++ distance st.bias (st.delta + 1) 36 st.delta
        delta := 0
        bias := adapt st.delta (st.written + 1) (st.written = start.length)
        written := st.written + 1 } m (front ++ [c]) rest := by
  obtain ⟨n, i, hn, hwritten, hplace, hread⟩ := h
  have hbehind : (c :: rest).filter (·.toNat < m) = rest.filter (·.toNat < m) := by simp [hc]
  have hfront : (front ++ [c]).filter (·.toNat ≤ m) = front.filter (·.toNat ≤ m) ++ [c] := by
    simp [hc]
  rw [present, hbehind] at hwritten hread
  have hless : (front.filter (·.toNat ≤ m)).length < st.written + 1 := by
    rw [hwritten, List.length_append]
    omega
  have hmod : (i + st.delta) % (st.written + 1) = (front.filter (·.toNat ≤ m)).length := by
    rw [hplace, Nat.mul_comm, Nat.mul_add_mod, Nat.mod_eq_of_lt hless]
  have hdiv : n + (i + st.delta) / (st.written + 1) = c.toNat := by
    rw [hplace, Nat.mul_comm, Nat.mul_add_div (Nat.succ_pos _), Nat.div_eq_of_lt hless, hc]
    omega
  refine ⟨m, (front.filter (·.toNat ≤ m)).length + 1, le_rfl, ?_, ?_, fun digits fuel hfuel => ?_⟩
  · show st.written + 1 = (present m (front ++ [c]) rest).length
    rw [present, hfront, hwritten]
    simp only [List.length_append, List.length_singleton]
    omega
  · show (front.filter (·.toNat ≤ m)).length + 1 + 0 = _
    rw [hfront, List.length_append, List.length_singleton, Nat.sub_self, Nat.zero_mul, Nat.zero_add,
      Nat.add_zero]
  · obtain ⟨fuel', hfuel', hbefore⟩ :=
      hread (distance st.bias (st.delta + 1) 36 st.delta ++ digits) fuel
        (by rwa [← List.append_assoc])
    have hdigits : 0 < (distance st.bias (st.delta + 1) 36 st.delta).length :=
      List.length_pos_of_ne_nil (distance_ne_nil (Nat.succ_pos st.delta))
    rw [List.length_append] at hfuel'
    obtain ⟨fuel', rfl⟩ := Nat.exists_eq_succ_of_ne_zero (Nat.ne_zero_of_lt hfuel')
    refine ⟨fuel', by omega, ?_⟩
    have hstep := @readOthers_distance start.length fuel' n i st.bias st.delta
      (front.filter (·.toNat ≤ m) ++ rest.filter (·.toNat < m)) digits c (by rw [← hwritten, hdiv])
    rw [List.append_assoc, hbefore, hstep, ← hwritten, hmod, List.take_left, List.drop_left,
      present, hfront, hc]
    simp only [List.append_assoc, List.singleton_append]

theorem Follows.pass (h : Follows start st m front (c :: rest)) :
    Follows start (st.pass start.length m c) m (front ++ [c]) rest := by
  unfold State.pass
  split_ifs with hlt heq
  · exact h.of_lt hlt
  · exact h.of_eq heq
  · exact h.of_gt (by omega)

theorem Follows.foldl_pass (h : Follows start st m front rest) :
    Follows start (rest.foldl (State.pass start.length m) st) m (front ++ rest) [] := by
  induction rest generalizing front st with
  | nil => rwa [List.append_nil]
  | cons c rest ih =>
    have := ih h.pass
    rwa [List.append_assoc, List.singleton_append] at this

/-- The next code point of the label is `m`. -/
theorem Follows.skip {n : Nat} (h : Follows start st n [] cs) (hm : n ≤ m)
    (hcs : ∀ c ∈ cs, c.toNat < n ∨ m ≤ c.toNat) :
    Follows start { st with delta := st.delta + (m - n) * (st.written + 1) } m [] cs := by
  obtain ⟨n', i, hn, hwritten, hplace, hread⟩ := h
  have hpresent : present m [] cs = present n [] cs := by
    simp only [present, List.filter_nil, List.nil_append]
    refine List.filter_congr fun c hc => ?_
    have := hcs c hc
    simp only [decide_eq_decide]
    omega
  have hcount : m - n' = (n - n') + (m - n) := by omega
  refine ⟨n', i, hn.trans hm, ?_, ?_, ?_⟩
  · rw [hpresent]
    exact hwritten
  · show i + (st.delta + (m - n) * (st.written + 1)) = _
    rw [← Nat.add_assoc, hplace, hcount, Nat.add_mul]
    simp only [List.filter_nil, List.length_nil, Nat.add_zero]
  · rw [hpresent]
    exact hread

/-- All characters up to `m` are written. -/
theorem Follows.finish (h : Follows start st m cs []) :
    Follows start { st with delta := st.delta + 1 } (m + 1) [] cs := by
  obtain ⟨n, i, hn, hwritten, hplace, hread⟩ := h
  have hpresent : present (m + 1) [] cs = present m cs [] := by
    simp only [present, List.filter_nil, List.nil_append, List.append_nil]
    exact List.filter_congr fun c _ => decide_eq_decide.2 Nat.lt_succ_iff
  have hall : (cs.filter (·.toNat ≤ m)).length = st.written := by
    rw [hwritten, present, List.filter_nil, List.append_nil]
  have hcount : m + 1 - n = (m - n) + 1 := by omega
  refine ⟨n, i, hn.trans (Nat.le_succ m), ?_, ?_, ?_⟩
  · rw [hpresent]
    exact hwritten
  · show i + (st.delta + 1) = _
    rw [← Nat.add_assoc, hplace, hall, hcount, Nat.succ_mul]
    rfl
  · rw [hpresent]
    exact hread

/-- **The reader follows the writer through all code points.** -/
theorem Follows.passes {n : Nat} {ms : List Nat} (h : Follows start st n [] cs)
    (hsorted : ms.Pairwise (· < ·)) (hleast : ∀ m ∈ ms, n ≤ m)
    (hcs : ∀ c ∈ cs, c.toNat < n ∨ c.toNat ∈ ms) :
    ∃ n', Follows start (st.passes cs start.length n ms) n' [] cs ∧ ∀ c ∈ cs, c.toNat < n' := by
  induction ms generalizing n st with
  | nil => exact ⟨n, h, fun c hc => by simpa using hcs c hc⟩
  | cons m ms ih =>
    obtain ⟨hm, hms⟩ := List.pairwise_cons.1 hsorted
    have hskip := h.skip (hleast m List.mem_cons_self) (fun c hc => ?_)
    · refine ih hskip.foldl_pass.finish hms (fun x hx => hm x hx) fun c hc => ?_
      rcases hcs c hc with hlt | hmem
      · exact .inl (Nat.lt_succ_of_lt (hlt.trans_le (hleast m List.mem_cons_self)))
      · rcases List.mem_cons.1 hmem with heq | hmem
        · exact .inl (Nat.lt_succ_of_le heq.le)
        · exact .inr hmem
    · rcases hcs c hc with hlt | hmem
      · exact .inl hlt
      · rcases List.mem_cons.1 hmem with heq | hmem
        · exact .inr heq.ge
        · exact .inr (hm _ hmem).le

end Follow

/-! ### Labels -/

theorem pairwise_lt_eraseDups {l : List Nat} (h : l.Pairwise (· ≤ ·)) :
    l.eraseDups.Pairwise (· < ·) := by
  induction hn : l.length using Nat.strong_induction_on generalizing l with
  | _ n ih =>
    cases l with
    | nil => exact List.Pairwise.nil
    | cons a l =>
      obtain ⟨ha, hl⟩ := List.pairwise_cons.1 h
      have hless : (l.filter fun b => !b == a).length < n := by
        rw [← hn, List.length_cons]
        exact Nat.lt_succ_of_le (List.length_filter_le _ _)
      rw [List.eraseDups_cons]
      refine List.pairwise_cons.2 ⟨fun b hb => ?_, ih _ hless (hl.filter _) rfl⟩
      obtain ⟨hb, hne⟩ := List.mem_filter.1 (List.mem_eraseDups.1 hb)
      exact lt_of_le_of_ne (ha b hb) fun heq => by simp [heq] at hne

/-- The code points beyond ASCII, in order. -/
def others (cs : List Char) : List Nat :=
  ((cs.map Char.toNat).filter (0x80 ≤ ·)).mergeSort.eraseDups

theorem pairwise_others (cs : List Char) : (others cs).Pairwise (· < ·) :=
  pairwise_lt_eraseDups List.sortedLE_mergeSort.pairwise

theorem mem_others {cs : List Char} {m : Nat} :
    m ∈ others cs ↔ (∃ c ∈ cs, c.toNat = m) ∧ 0x80 ≤ m := by
  simp [others, List.mem_eraseDups, List.mem_mergeSort]

/-- The digits of a label. -/
def digits (cs : List Char) : List Char :=
  let basic := cs.filter (·.toNat < 0x80)
  ({ out := [], delta := 0, bias := 72, written := basic.length } : State).passes
    cs basic.length 0x80
    (others cs) |>.out

theorem encode_eq (cs : List Char) : encode cs = cs.filter (·.toNat < 0x80) ++
    (if cs.filter (·.toNat < 0x80) = [] then [] else ['-']) ++ digits cs := rfl

/-- **The digits complete the label.** -/
theorem readOthers_digits {fuel : Nat} {cs : List Char} (h : (digits cs).length < fuel) :
    readOthers (cs.filter (·.toNat < 0x80)).length fuel 0x80 0 72 (cs.filter (·.toNat < 0x80))
      (digits cs) = some cs := by
  have hstart : Follows (cs.filter (·.toNat < 0x80))
      ⟨[], 0, 72, (cs.filter (·.toNat < 0x80)).length⟩ 0x80 [] cs := by
    refine ⟨0x80, 0, le_rfl, rfl, ?_, fun rest fuel hfuel => ⟨fuel, hfuel, rfl⟩⟩
    simp only [Nat.sub_self, Nat.zero_mul, List.filter_nil, List.length_nil]
  have hcs : ∀ c ∈ cs, c.toNat < 0x80 ∨ c.toNat ∈ others cs := by
    intro c hc
    rw [mem_others, or_iff_not_imp_left, not_lt]
    exact fun hge => ⟨⟨c, hc, rfl⟩, hge⟩
  obtain ⟨n, ⟨n', i, -, -, -, hread⟩, hall⟩ :=
    hstart.passes (pairwise_others cs) (fun m hm => (mem_others.1 hm).2) hcs
  have hpresent : present n [] cs = cs := by
    rw [present, List.filter_nil, List.nil_append, List.filter_eq_self]
    exact fun c hc => decide_eq_true (hall c hc)
  obtain ⟨fuel', hfuel', hfinal⟩ := hread [] fuel (by rwa [List.append_nil])
  obtain ⟨fuel', rfl⟩ := Nat.exists_eq_succ_of_ne_zero (Nat.ne_zero_of_lt hfuel')
  rw [List.append_nil, hpresent] at hfinal
  exact hfinal

/-- What the writer has written are digits. -/
def IsDigits (cs : List Char) : Prop := ∀ c ∈ cs, ∃ d < 36, c = digit d

theorem isDigits_pass {basic m : Nat} {st : State} (h : IsDigits st.out) (c : Char) :
    IsDigits (st.pass basic m c).out := by
  unfold State.pass
  split_ifs
  · exact h
  · exact List.forall_mem_append.2 ⟨h, fun _ hc => mem_distance hc⟩
  · exact h

theorem isDigits_foldl_pass {cs : List Char} {basic m : Nat} {st : State} (h : IsDigits st.out) :
    IsDigits (cs.foldl (State.pass basic m) st).out := by
  induction cs generalizing st with
  | nil => exact h
  | cons c cs ih => exact ih (isDigits_pass h c)

theorem isDigits_passes {cs : List Char} {basic n : Nat} {ms : List Nat} {st : State}
    (h : IsDigits st.out) : IsDigits (st.passes cs basic n ms).out := by
  induction ms generalizing n st with
  | nil => exact h
  | cons m ms ih => exact ih (isDigits_foldl_pass h)

theorem isDigits_digits (cs : List Char) : IsDigits (digits cs) :=
  isDigits_passes (by simp [IsDigits])

/-- A label in ASCII has the characters of ASCII, a hyphen and digits. -/
theorem mem_encode {cs : List Char} {c : Char} (h : c ∈ encode cs) :
    c ∈ cs ∧ c.toNat < 0x80 ∨ c = '-' ∨ ∃ d < 36, c = digit d := by
  rw [encode_eq, List.mem_append, List.mem_append] at h
  rcases h with (h | h) | h
  · exact .inl (by simpa using h)
  · split_ifs at h
    · cases h
    · exact .inr (.inl (List.mem_singleton.1 h))
  · exact .inr (.inr (isDigits_digits cs c h))

/-- **A label is read back.** -/
theorem decode?_encode (cs : List Char) : decode? (encode cs) = some cs := by
  have hplain : ∀ c ∈ (digits cs).reverse, decide (c ≠ '-') = true := by
    intro c hc
    rw [decide_eq_true_eq]
    rintro rfl
    obtain ⟨d, hd, heq⟩ := isDigits_digits cs _ (List.mem_reverse.1 hc)
    exact digit_ne_hyphen hd heq.symm
  have hread := readOthers_digits (Nat.lt_succ_self (digits cs).length)
  rw [encode_eq]
  by_cases hbasic : cs.filter (·.toNat < 0x80) = []
  · rw [hbasic] at hread ⊢
    have hdigits : ((digits cs).reverse.takeWhile (· ≠ '-')).reverse = digits cs := by
      rw [List.takeWhile_eq_self_iff.2 hplain, List.reverse_reverse]
    simp only [if_true, List.nil_append, decode?, hdigits, Nat.sub_self, List.take_zero,
      List.dropLast_nil]
    exact hread
  · have hdigits : ((cs.filter (·.toNat < 0x80) ++ ['-'] ++ digits cs).reverse.takeWhile
        (· ≠ '-')).reverse = digits cs := by
      rw [List.reverse_append, List.takeWhile_append_of_pos hplain, List.reverse_append]
      simp
    simp only [if_neg hbasic, decode?, hdigits]
    rw [List.length_append, Nat.add_sub_cancel, List.take_left, List.dropLast_concat]
    exact hread

end LedgerBridge.Url.Punycode
