import LedgerBridge.Proofs.Url.Body

/-!
# URLs read back

* `IsReadable u`: the parts of a URL as they are when it was read;
* `isReadable_of_parse?`: what is read has such parts;
* `parse?_of_isReadable`: a URL with parts like that is read back from its text;
* `parse?_text`: so every URL that was read is.
-/

namespace LedgerBridge.Url

/-! ### Schemes -/

section Scheme

variable {cs rest : List Char} {scheme : String}

/-- A scheme as it is written. -/
def IsScheme (scheme : String) : Prop :=
  ∃ c r, scheme.toList = c :: r ∧ c.isAlpha = true ∧
    ∀ d ∈ c :: r, isSchemeChar d = true ∧ d.toLower = d

theorem isSchemeChar_ascii {c : Char} (h : isSchemeChar c = true) : c.toNat < 0x80 := by
  simp only [isSchemeChar, Bool.or_eq_true, decide_eq_true_eq] at h
  rcases h with ((hword | rfl) | rfl) | rfl
  · exact Case.lt_of_isAlphanum hword
  all_goals decide

theorem isSchemeChar_toLower {c : Char} (h : isSchemeChar c = true) :
    isSchemeChar c.toLower = true ∧ c.toLower.toLower = c.toLower := by
  have hascii := isSchemeChar_ascii h
  exact Case.forall_ascii (p := fun c => isSchemeChar c = true →
    isSchemeChar c.toLower = true ∧ c.toLower.toLower = c.toLower) (by decide) hascii h

theorem plain_of_isSchemeChar {c : Char} (h : isSchemeChar c = true) :
    0x20 < c.toNat ∧ c ≠ ':' := by
  have hascii := isSchemeChar_ascii h
  exact Case.forall_ascii (p := fun c => isSchemeChar c = true → 0x20 < c.toNat ∧ c ≠ ':')
    (by decide) hascii h

theorem isSchemeChar_of_isAlpha {c : Char} (h : c.isAlpha = true) : isSchemeChar c = true := by
  simp [isSchemeChar, Char.isAlphanum, h]

theorem isAlpha_toLower {c : Char} (h : c.isAlpha = true) : c.toLower.isAlpha = true := by
  have hascii := isSchemeChar_ascii (isSchemeChar_of_isAlpha h)
  exact Case.forall_ascii (p := fun c => c.isAlpha = true → c.toLower.isAlpha = true) (by decide)
    hascii h

/-- The scheme that is read is written, and stands in front of the rest. -/
theorem splitScheme_written (h : splitScheme cs = some (scheme, rest)) :
    IsScheme scheme ∧ ∃ front, cs = front ++ rest := by
  unfold splitScheme at h
  split at h
  · next c r rest' hcut =>
    split_ifs at h with hscheme
    obtain ⟨rfl, rfl⟩ := Prod.mk.inj (Option.some.inj h)
    obtain ⟨halpha, hchars⟩ := hscheme
    have hchars : ∀ d ∈ c :: r, isSchemeChar d = true :=
      List.forall_mem_cons.2 ⟨isSchemeChar_of_isAlpha halpha, List.all_eq_true.1 hchars⟩
    refine ⟨⟨c.toLower, r.map Char.toLower, String.toList_ofList, isAlpha_toLower halpha, ?_⟩, ?_⟩
    · rw [← List.map_cons]
      refine List.forall_mem_map.2 fun d hd => isSchemeChar_toLower (hchars d hd)
    · obtain ⟨-, m, rfl⟩ := cutAt_cases hcut
      exact ⟨c :: r ++ [m], by simp⟩
  · cases h

theorem splitScheme_text (h : IsScheme scheme) (rest : List Char) :
    splitScheme (scheme.toList ++ ':' :: rest) = some (scheme, rest) := by
  obtain ⟨c, r, hcons, halpha, hchars⟩ := h
  have hcolon : ∀ d ∈ scheme.toList, decide (d = ':') = false := by
    intro d hd
    rw [hcons] at hd
    exact decide_eq_false (plain_of_isSchemeChar (hchars d hd).1).2
  have hlower : (c :: r).map Char.toLower = c :: r :=
    (List.map_congr_left fun d hd => (hchars d hd).2).trans (List.map_id _)
  have hall : r.all isSchemeChar = true :=
    List.all_eq_true.2 fun d hd => (hchars d (List.mem_cons_of_mem c hd)).1
  rw [splitScheme, cutAt_append hcolon (by decide), hcons]
  simp only [hlower, halpha, hall, and_self, if_true]
  rw [← hcons, String.ofList_toList]

end Scheme

/-! ### Cleaning -/

section Clean

variable {cs : List Char}

theorem isBreak_of_le {c : Char} (h : 0x20 ≤ c.toNat) : isBreak c = false := by
  have hne {d : Char} (hd : d.toNat < 0x20) : c ≠ d := by
    rintro rfl
    omega
  simp [isBreak, hne (d := '\t') (by decide), hne (d := '\n') (by decide),
    hne (d := '\r') (by decide)]

/-- Control characters and spaces, which are dropped around a URL. -/
def isEdge (c : Char) : Bool := c.toNat ≤ 0x20

theorem cleaned_eq (cs : List Char) :
    cleaned cs = (Blank.strip isEdge cs).filter fun c => !isBreak c := rfl

theorem cleaned_of_stripped (hends : Blank.Stripped isEdge cs)
    (h : ∀ c ∈ cs, 0x20 ≤ c.toNat) : cleaned cs = cs := by
  rw [cleaned_eq, Blank.strip_of_stripped hends, List.filter_eq_self]
  intro c hc
  rw [isBreak_of_le (h c hc)]
  rfl

/-- A cleaned text does not end in a blank: the line ends that are dropped stand further in
front. -/
theorem lt_of_getLast?_cleaned {c : Char} (h : (cleaned cs).getLast? = some c) :
    0x20 < c.toNat := by
  rw [cleaned_eq] at h
  have hends := Blank.stripped_strip isEdge cs
  generalize Blank.strip isEdge cs = core at h hends
  rcases List.eq_nil_or_concat' core with rfl | ⟨front, d, rfl⟩
  · cases h
  · have hd : 0x20 < d.toNat := by
      simpa [isEdge] using hends d (.inr List.getLast?_concat)
    have hkept : [d].filter (fun c => !isBreak c) = [d] := by
      simp [isBreak_of_le hd.le]
    rw [List.filter_append, hkept, List.getLast?_concat] at h
    rwa [← Option.some.inj h]

end Clean

/-! ### URLs -/

section Whole

variable {s scheme : String} {cs rest front body : List Char} {query fragment : Option (List Char)}
  {u : Url}

/-- A query or a fragment as it is written. -/
def written (reserved : Char → Bool) (cs : List Char) : String :=
  String.ofList (Percent.encodeChars reserved cs)

theorem isPlain_written {reserved : Char → Bool} (hsign : reserved '%' = false)
    (hdigit : ∀ n < 16, reserved (Percent.digit n) = false) (cs : List Char) :
    Percent.IsPlain reserved (written reserved cs).toList := by
  rw [written, String.toList_ofList]
  exact Percent.isPlain_encodeChars hsign hdigit cs

theorem map_written {reserved : Char → Bool} {part : Option String}
    (h : ∀ t, part = some t → Percent.IsPlain reserved t.toList) :
    (part.map String.toList).map (written reserved) = part := by
  cases part with
  | none => rfl
  | some t =>
    rw [Option.map_some, Option.map_some, written, Percent.encodeChars_of_isPlain (h t rfl),
      String.ofList_toList]

/-- A URL by its parts. -/
theorem parse?_eq (hscheme : splitScheme (cleaned s.toList) = some (scheme, rest))
    (hfragment : cutAt (· = '#') rest = (front, fragment))
    (hquery : cutAt (· = '?') front = (body, query)) :
    parse? s = (readBody? scheme body).map fun u => { u with
      query := query.map (written (Percent.inQuery (isSpecialScheme scheme)))
      fragment := fragment.map (written Percent.inFragment) } := by
  simp only [parse?, hscheme, Option.bind_eq_bind, Option.bind_some, hfragment, hquery, readBody?]
  split_ifs
  · cases file? body <;> rfl
  · cases special? scheme body <;> rfl
  · cases unknown? scheme body <;> rfl

/-- The parts of a URL as they are when it was read. -/
structure IsReadable (u : Url) : Prop where
  scheme : IsScheme u.scheme
  read : readBody? u.scheme (bodyChars u) = some u.stump
  plain : ∀ c ∈ bodyChars u, 0x20 ≤ c.toNat ∧ c ≠ '?' ∧ c ≠ '#'
  query : ∀ q, u.query = some q → Percent.IsPlain (Percent.inQuery u.isSpecial) q.toList
  fragment : ∀ f, u.fragment = some f → Percent.IsPlain Percent.inFragment f.toList
  /-- A blank at the end would not be read. -/
  last : u.query = none → u.fragment = none → (bodyChars u).getLast? ≠ some ' '

theorem isPlain_inQuery (special : Bool) (cs : List Char) :
    Percent.IsPlain (Percent.inQuery special) (written (Percent.inQuery special) cs).toList := by
  cases special <;> exact isPlain_written (by decide) (by decide) cs

/-- **What is read has parts that can be read back.** -/
theorem isReadable_of_parse? (h : parse? s = some u) : IsReadable u := by
  obtain ⟨⟨scheme, rest⟩, hscheme, -⟩ := Option.bind_eq_some_iff.1 h
  rcases hfragment : cutAt (· = '#') rest with ⟨front, fragment⟩
  rcases hquery : cutAt (· = '?') front with ⟨body, query⟩
  rw [parse?_eq hscheme hfragment hquery] at h
  obtain ⟨v, hv, rfl⟩ := Option.map_eq_some_iff.1 h
  obtain ⟨hwritten, before, hbefore⟩ := splitScheme_written hscheme
  have hplain : ∀ c ∈ body, c ≠ '?' ∧ c ≠ '#' := fun c hc =>
    ⟨of_decide_eq_false ((cutAt_cases hquery).1 c hc),
      of_decide_eq_false ((cutAt_cases hfragment).1 c (mem_of_cutAt hquery hc))⟩
  have hback := readsBack_of_readBody? hplain hv
  obtain rfl := hback.scheme_eq
  refine ⟨hwritten, hback.read, hback.plain, fun q hq => ?_, fun f hf => ?_, fun hq hf hlast => ?_⟩
  · obtain ⟨part, -, rfl⟩ := Option.map_eq_some_iff.1 hq
    exact isPlain_inQuery _ part
  · obtain ⟨part, -, rfl⟩ := Option.map_eq_some_iff.1 hf
    exact isPlain_written (by decide) (by decide) part
  · have hend := hback.last hlast
    obtain rfl := Option.map_eq_none_iff.1 hq
    obtain rfl := Option.map_eq_none_iff.1 hf
    have hrest : rest = front := (cutAt_cases hfragment).2
    have hfront : front = body := (cutAt_cases hquery).2
    have hcleaned : (cleaned s.toList).getLast? = some ' ' := by
      rw [hbefore, hrest, hfront, List.getLast?_append, hend, Option.some_or]
    exact absurd (lt_of_getLast?_cleaned hcleaned) (by decide)

/-- The characters of a query, with its mark. -/
def queryChars (u : Url) : List Char := behind '?' (u.query.map String.toList)

/-- The characters of a fragment, with its mark. -/
def fragmentChars (u : Url) : List Char := behind '#' (u.fragment.map String.toList)

theorem queryChars_eq_nil : queryChars u = [] ↔ u.query = none := by
  unfold queryChars behind
  cases u.query <;> simp

theorem fragmentChars_eq_nil : fragmentChars u = [] ↔ u.fragment = none := by
  unfold fragmentChars behind
  cases u.fragment <;> simp

theorem toList_text (u : Url) : u.text.toList =
    u.scheme.toList ++ ':' :: (bodyChars u ++ queryChars u ++ fragmentChars u) := by
  unfold text bodyChars queryChars fragmentChars behind
  cases u.query <;> cases u.fragment <;> simp

theorem plain_of_inFragment {c : Char} (hascii : c.toNat < 0x80)
    (h : Percent.inFragment c = false) :
    0x20 < c.toNat :=
  Case.forall_ascii (p := fun c => Percent.inFragment c = false → 0x20 < c.toNat) (by decide)
    hascii h

theorem plain_of_inQuery {special : Bool} {c : Char} (hascii : c.toNat < 0x80)
    (h : Percent.inQuery special c = false) : 0x20 < c.toNat ∧ c ≠ '#' := by
  cases special
  · exact Case.forall_ascii
      (p := fun c => Percent.inQuery false c = false → 0x20 < c.toNat ∧ c ≠ '#')
      (by decide) hascii h
  · exact Case.forall_ascii
      (p := fun c => Percent.inQuery true c = false → 0x20 < c.toNat ∧ c ≠ '#')
      (by decide) hascii h

theorem forall_mem_behind {p : Char → Prop} {m : Char} {part : Option String} (hm : p m)
    (h : ∀ t, part = some t → ∀ c ∈ t.toList, p c) :
    ∀ c ∈ behind m (part.map String.toList), p c := by
  cases part with
  | none => simp [behind]
  | some t => exact List.forall_mem_cons.2 ⟨hm, h t rfl⟩

theorem IsReadable.plain_query (h : IsReadable u) :
    ∀ c ∈ queryChars u, 0x20 < c.toNat ∧ c ≠ '#' := by
  refine forall_mem_behind (by decide) fun q hq c hc => ?_
  obtain ⟨hascii, hplain⟩ := h.query q hq c hc
  exact plain_of_inQuery hascii hplain

theorem IsReadable.plain_fragment (h : IsReadable u) :
    ∀ c ∈ fragmentChars u, 0x20 < c.toNat := by
  refine forall_mem_behind (by decide) fun f hf c hc => ?_
  obtain ⟨hascii, hplain⟩ := h.fragment f hf c hc
  exact plain_of_inFragment hascii hplain

/-- No blank is at the end of a URL. -/
theorem IsReadable.lt_of_getLast? (h : IsReadable u) {c : Char}
    (hlast : (bodyChars u ++ queryChars u ++ fragmentChars u).getLast? = some c) :
    0x20 < c.toNat := by
  simp only [List.getLast?_append, Option.or_eq_some_iff, List.getLast?_eq_none_iff,
    queryChars_eq_nil, fragmentChars_eq_nil] at hlast
  rcases hlast with hc | ⟨hfragment, hc | ⟨hquery, hc⟩⟩
  · exact h.plain_fragment c (List.mem_of_mem_getLast? hc)
  · exact (h.plain_query c (List.mem_of_mem_getLast? hc)).1
  · have hne : c ≠ ' ' := by
      rintro rfl
      exact h.last hquery hfragment hc
    have hle := (h.plain c (List.mem_of_mem_getLast? hc)).1
    exact hle.lt_of_ne fun heq => hne (Char.toNat_inj.1 heq.symm)

/-- There is nothing to clean in the text of a URL. -/
theorem IsReadable.cleaned_text (h : IsReadable u) : cleaned u.text.toList = u.text.toList := by
  obtain ⟨first, r, hcons, -, hscheme⟩ := h.scheme
  have hscheme : ∀ c ∈ u.scheme.toList, 0x20 < c.toNat := by
    rw [hcons]
    exact fun c hc => (plain_of_isSchemeChar (hscheme c hc).1).1
  have hbody (c : Char) (hc : c ∈ bodyChars u) : 0x20 ≤ c.toNat := (h.plain c hc).1
  have hquery (c : Char) (hc : c ∈ queryChars u) : 0x20 ≤ c.toNat :=
    (h.plain_query c hc).1.le
  have hfragment (c : Char) (hc : c ∈ fragmentChars u) : 0x20 ≤ c.toNat :=
    (h.plain_fragment c hc).le
  rw [toList_text]
  refine cleaned_of_stripped (fun c hc => decide_eq_false (Nat.not_le.2 ?_)) ?_
  · rcases hc with hhead | hlast
    · rw [hcons, List.cons_append, List.head?_cons] at hhead
      exact hscheme c (hcons ▸ Option.some.inj hhead ▸ List.mem_cons_self)
    · rw [List.getLast?_append_of_ne_nil _ (List.cons_ne_nil _ _), List.getLast?_cons] at hlast
      cases hrest : (bodyChars u ++ queryChars u ++ fragmentChars u).getLast? with
      | none =>
        rw [hrest] at hlast
        obtain rfl : ':' = c := Option.some.inj hlast
        decide
      | some d =>
        rw [hrest] at hlast
        obtain rfl : d = c := Option.some.inj hlast
        exact h.lt_of_getLast? hrest
  · refine List.forall_mem_append.2 ⟨fun c hc => (hscheme c hc).le, ?_⟩
    refine List.forall_mem_cons.2 ⟨by decide, ?_⟩
    exact List.forall_mem_append.2 ⟨List.forall_mem_append.2 ⟨hbody, hquery⟩, hfragment⟩

/-- **A URL is read back from its text.** -/
theorem parse?_of_isReadable (h : IsReadable u) : parse? u.text = some u := by
  have hscheme : splitScheme (cleaned u.text.toList) =
      some (u.scheme, bodyChars u ++ queryChars u ++ fragmentChars u) := by
    rw [h.cleaned_text, toList_text]
    exact splitScheme_text h.scheme _
  have hfragment : cutAt (· = '#') (bodyChars u ++ queryChars u ++ fragmentChars u) =
      (bodyChars u ++ queryChars u, u.fragment.map String.toList) := by
    refine cutAt_behind (List.forall_mem_append.2 ⟨fun c hc => ?_, fun c hc => ?_⟩) (by decide)
    · exact decide_eq_false (h.plain c hc).2.2
    · exact decide_eq_false (h.plain_query c hc).2
  have hquery : cutAt (· = '?') (bodyChars u ++ queryChars u) =
      (bodyChars u, u.query.map String.toList) :=
    cutAt_behind (fun c hc => decide_eq_false (h.plain c hc).2.1) (by decide)
  rw [parse?_eq hscheme hfragment hquery, h.read, Option.map_some, map_written h.fragment,
    ← isSpecial, map_written h.query]
  rfl

/-- **Every URL that was read is read back from its text.** -/
theorem parse?_text (h : parse? s = some u) : parse? u.text = some u :=
  parse?_of_isReadable (isReadable_of_parse? h)

end Whole

end LedgerBridge.Url
