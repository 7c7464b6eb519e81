import LedgerBridge.Proofs.Url.Host

/-!
# Authorities read back

* `cutAt_append`, `cutAt_cases`: a text cut at its first mark;
* `HasAuthority u`: the credentials, the host and the port of a URL as they are when they were read;
* `withAuthority?_written`: what is read has such an authority;
* `withAuthority?_text`: an authority like that is read back from its text.
-/

namespace LedgerBridge.Url

/-! ### Cutting -/

section Cut

variable {isMark : Char → Bool} {m : Char} {cs front rest : List Char} {tail : Option (List Char)}

theorem cutAt_of_forall (h : ∀ c ∈ cs, isMark c = false) : cutAt isMark cs = (cs, none) := by
  have hdrop : cs.dropWhile (!isMark ·) = [] := by
    rw [List.dropWhile_eq_nil_iff]
    exact fun c hc => by rw [h c hc]; rfl
  rw [cutAt, hdrop]

theorem cutAt_append (h : ∀ c ∈ front, isMark c = false) (hm : isMark m = true) :
    cutAt isMark (front ++ m :: rest) = (front, some rest) := by
  have hfront : ∀ c ∈ front, (!isMark c) = true := fun c hc => by rw [h c hc]; rfl
  have hstop : ¬ (!isMark m) = true := by simp [hm]
  rw [cutAt, List.dropWhile_append_of_pos hfront, List.takeWhile_append_of_pos hfront,
    List.dropWhile_cons_of_neg (p := fun c => !isMark c) hstop,
    List.takeWhile_cons_of_neg (p := fun c => !isMark c) hstop, List.append_nil]

/-- A part that may be there, behind its mark. -/
def behind (m : Char) (tail : Option (List Char)) : List Char := tail.elim [] (m :: ·)

theorem cutAt_behind (h : ∀ c ∈ front, isMark c = false) (hm : isMark m = true) :
    cutAt isMark (front ++ behind m tail) = (front, tail) := by
  cases tail with
  | none =>
    rw [behind, Option.elim_none, List.append_nil]
    exact cutAt_of_forall h
  | some rest => exact cutAt_append h hm

/-- In front of the first mark there is none, and all is still there. -/
theorem cutAt_cases (h : cutAt isMark cs = (front, tail)) : (∀ c ∈ front, isMark c = false) ∧
    match tail with
    | none => cs = front
    | some rest => ∃ m, cs = front ++ m :: rest := by
  unfold cutAt at h
  split at h
  · next hdrop =>
    obtain ⟨rfl, rfl⟩ := Prod.mk.inj h
    rw [List.dropWhile_eq_nil_iff] at hdrop
    exact ⟨fun c hc => by simpa using hdrop c hc, rfl⟩
  · next m rest hdrop =>
    obtain ⟨rfl, rfl⟩ := Prod.mk.inj h
    refine ⟨fun c hc => by simpa using List.mem_takeWhile_imp hc, m, ?_⟩
    rw [← hdrop, List.takeWhile_append_dropWhile]

theorem mem_of_cutAt {c : Char} (h : cutAt isMark cs = (front, tail)) (hc : c ∈ front) :
    c ∈ cs := by
  obtain ⟨-, hwhole⟩ := cutAt_cases h
  cases tail with
  | none => exact hwhole ▸ hc
  | some rest =>
    obtain ⟨m, rfl⟩ := hwhole
    exact List.mem_append_left _ hc

end Cut

/-! ### The parts of an authority -/

section Parts

variable {cs user host : List Char}

theorem splitUserinfo_of_not_mem (h : '@' ∉ cs) : splitUserinfo cs = (none, cs) := by
  have hmark : ∀ c ∈ cs.reverse, decide (c = '@') = false := by
    intro c hc
    rw [decide_eq_false_iff_not]
    rintro rfl
    exact h (List.mem_reverse.1 hc)
  rw [splitUserinfo, cutAt_of_forall hmark]

theorem splitUserinfo_append (h : '@' ∉ host) :
    splitUserinfo (user ++ '@' :: host) = (some user, host) := by
  have hmark : ∀ c ∈ host.reverse, decide (c = '@') = false := by
    intro c hc
    rw [decide_eq_false_iff_not]
    rintro rfl
    exact h (List.mem_reverse.1 hc)
  have hreverse : (user ++ '@' :: host).reverse = host.reverse ++ '@' :: user.reverse := by simp
  rw [splitUserinfo, hreverse, cutAt_append hmark (by decide)]
  simp only [List.reverse_reverse]

/-- Credentials as they are written. -/
def IsUserinfo (s : String) : Prop := Percent.IsPlain Percent.inUserinfo s.toList

theorem isUserinfo_userinfo (cs : List Char) :
    IsUserinfo (userinfo cs).1 ∧ IsUserinfo (userinfo cs).2 := by
  have hwritten (part : List Char) :
      IsUserinfo (String.ofList (Percent.encodeChars Percent.inUserinfo part)) := by
    rw [IsUserinfo, String.toList_ofList]
    exact Percent.isPlain_encodeChars (by decide) (by decide) part
  exact ⟨hwritten _, hwritten _⟩

theorem encode_of_isUserinfo {s : String} (h : IsUserinfo s) :
    String.ofList (Percent.encodeChars Percent.inUserinfo s.toList) = s := by
  rw [Percent.encodeChars_of_isPlain h, String.ofList_toList]

theorem userinfo_behind {name password : String} (hname : IsUserinfo name)
    (hpassword : IsUserinfo password) :
    userinfo (name.toList ++ behind ':' (if password = "" then none else some password.toList)) =
      (name, password) := by
  have hcolon : ∀ c ∈ name.toList, decide (c = ':') = false := by
    intro c hc
    rw [decide_eq_false_iff_not]
    rintro rfl
    exact absurd (hname _ hc).2 (by decide)
  rw [userinfo, cutAt_behind hcolon (by decide)]
  simp only [encode_of_isUserinfo hname]
  split_ifs with hempty
  · rw [hempty]
    rfl
  · rw [Option.getD_some, encode_of_isUserinfo hpassword]

end Parts

/-! ### Authorities -/

/-- The host that a text of a scheme spells. -/
def readHost? (special : Bool) (cs : List Char) : Option String :=
  if special then Host.parse? cs else Host.parseUnknown? cs

/-- The authority of a URL that was read. -/
structure HasAuthority (u : Url) (host : String) : Prop where
  given : u.host = some host
  read : readHost? u.isSpecial host.toList = some host
  text : Host.IsText host.toList
  username : IsUserinfo u.username
  password : IsUserinfo u.password
  port : ∀ p, u.port = some p → p < 65536 ∧ specialSchemes.lookup u.scheme ≠ some (some p)
  /-- With an unknown scheme a host may be empty, and then has neither credentials nor port. -/
  empty : host = "" → u.isSpecial = false ∧ u.username = "" ∧ u.password = "" ∧ u.port = none

theorem readHost?_text {special : Bool} {cs : List Char} {host : String}
    (h : readHost? special cs = some host) : readHost? special host.toList = some host ∧
      Host.IsText host.toList ∧ (host = "" → special = false ∧ cs = []) := by
  unfold readHost? at h ⊢
  cases special with
  | true =>
    obtain ⟨hread, htext, hne⟩ := Host.parse?_text h
    exact ⟨hread, htext, fun hempty => absurd hempty hne⟩
  | false =>
    obtain ⟨hread, htext, hempty⟩ := Host.parseUnknown?_text h
    exact ⟨hread, htext, fun h => ⟨rfl, hempty h⟩⟩

theorem port?_bounds {scheme : String} {digits : List Char} {p : Nat}
    (h : port? scheme digits = some (some p)) :
    p < 65536 ∧ specialSchemes.lookup scheme ≠ some (some p) := by
  simp only [port?] at h
  split_ifs at h with hempty hdigits hbound hdefault
  · cases h
  · cases h
  · obtain rfl := Option.some.inj (Option.some.inj h)
    exact ⟨hbound, hdefault⟩

theorem port?_toDigits {scheme : String} {p : Nat} (hp : p < 65536)
    (hdefault : specialSchemes.lookup scheme ≠ some (some p)) :
    port? scheme (Nat.toDigits 10 p) = some (some p) := by
  have hdigits : (Nat.toDigits 10 p).all Char.isDigit = true :=
    List.all_eq_true.2 Decimal.isDigit_of_mem_toDigits
  simp only [port?, if_neg Nat.toDigits_ne_nil, if_pos hdigits, Decimal.foldl_toDigits, if_pos hp,
    if_neg hdefault]

/-- The credentials of an authority, and what stands behind them. -/
def splitCredentials (cs : List Char) : (String × String) × List Char :=
  (userinfo ((splitUserinfo cs).1.getD []), (splitUserinfo cs).2)

/-- An authority by its parts. -/
theorem withAuthority?_eq {scheme name password : String} {cs rest hostChars : List Char}
    {portChars : Option (List Char)} (hsplit : splitCredentials cs = ((name, password), rest))
    (hport : splitPort false rest = (hostChars, portChars)) :
    withAuthority? scheme cs =
      if hostChars = [] ∧
          (isSpecialScheme scheme ∨ portChars.isSome ∨ name ≠ "" ∨ password ≠ "") then
        none
      else (readHost? (isSpecialScheme scheme) hostChars).bind fun host =>
        (port? scheme (portChars.getD [])).bind fun port =>
          some
            { scheme, username := name, password, host := some host, port
              path := .segments [] } := by
  unfold splitCredentials at hsplit
  rcases huser : splitUserinfo cs with ⟨user, rest'⟩
  simp only [huser, Prod.mk.injEq] at hsplit
  obtain ⟨hinfo, rfl⟩ := hsplit
  simp only [withAuthority?, huser, hinfo, hport]
  by_cases hmissing : hostChars = [] ∧
      (isSpecialScheme scheme ∨ portChars.isSome ∨ name ≠ "" ∨ password ≠ "")
  · rw [if_pos hmissing, if_pos hmissing]
    rfl
  · rw [if_neg hmissing, if_neg hmissing, readHost?]
    cases isSpecialScheme scheme <;> rfl

/-- **What is read has an authority that can be read back.** -/
theorem withAuthority?_written {scheme : String} {cs : List Char} {u : Url}
    (h : withAuthority? scheme cs = some u) : (∃ host, HasAuthority u host) ∧ u.scheme = scheme ∧
      u.query = none ∧ u.fragment = none := by
  rcases hsplit : splitCredentials cs with ⟨⟨name, password⟩, rest⟩
  rcases hport : splitPort false rest with ⟨hostChars, portChars⟩
  rw [withAuthority?_eq hsplit hport] at h
  split_ifs at h with hmissing
  obtain ⟨host, hhost, h⟩ := Option.bind_eq_some_iff.1 h
  obtain ⟨port, hdigits, h⟩ := Option.bind_eq_some_iff.1 h
  obtain rfl := Option.some.inj h
  obtain ⟨hread, htext, hne⟩ := readHost?_text hhost
  have hinfo := isUserinfo_userinfo ((splitUserinfo cs).1.getD [])
  have hboth : userinfo ((splitUserinfo cs).1.getD []) = (name, password) :=
    congrArg Prod.fst hsplit
  rw [hboth] at hinfo
  refine ⟨⟨host, rfl, hread, htext, hinfo.1, hinfo.2, fun p hp => ?_, fun hempty => ?_⟩,
    rfl, rfl, rfl⟩
  · obtain rfl : port = some p := hp
    exact port?_bounds hdigits
  · obtain ⟨hspecial, hnil⟩ := hne hempty
    have hnone : ¬ (isSpecialScheme scheme ∨ portChars.isSome ∨ name ≠ "" ∨ password ≠ "") :=
      fun hsome => hmissing ⟨hnil, hsome⟩
    simp only [not_or, not_not, Bool.not_eq_true, Option.isSome_eq_false_iff,
      Option.isNone_iff_eq_none] at hnone
    obtain ⟨-, hport, hname, hpassword⟩ := hnone
    rw [hport] at hdigits
    exact ⟨hspecial, hname, hpassword, (Option.some.inj hdigits).symm⟩

section Text

variable {u : Url} {host : String}

/-- What stands behind the credentials of an authority. -/
def hostChars (u : Url) (host : String) : List Char :=
  host.toList ++ behind ':' (u.port.map (Nat.toDigits 10))

/-- The characters of an authority. -/
def authorityChars (u : Url) (host : String) : List Char := u.credentials.toList ++ hostChars u host

theorem toList_authority (h : u.host = some host) :
    u.authority.toList = '/' :: '/' :: authorityChars u host := by
  rw [authority, h, authorityChars, hostChars]
  cases u.port with
  | none => simp [behind]
  | some p => simp [behind, toString]

theorem toList_credentials (u : Url) : u.credentials.toList =
    if u.username = "" ∧ u.password = "" then []
    else u.username.toList ++
      (behind ':' (if u.password = "" then none else some u.password.toList) ++ ['@']) := by
  unfold credentials
  split_ifs <;> simp [behind]

/-- No other part of the URL begins in a host and its port. -/
theorem plain_hostChars (h : HasAuthority u host) : ∀ c ∈ hostChars u host,
    IsInner c ∧ c ≠ '/' ∧ c ≠ '\\' ∧ c ≠ '@' := by
  intro c hc
  rcases List.mem_append.1 hc with hc | hc
  · exact h.text.plain c hc
  · cases hp : u.port with
    | none =>
      rw [hp] at hc
      cases hc
    | some p =>
      rw [hp] at hc
      rcases List.mem_cons.1 hc with rfl | hc
      · decide
      · have hdigit := Host.plain_of_digit (.inl (Decimal.isDigit_of_mem_toDigits c hc))
        exact (Host.plain_of_isForbidden hdigit.2.1).1

/-- The credentials of an authority are told apart from its host. -/
theorem splitCredentials_authorityChars (h : HasAuthority u host) :
    splitCredentials (authorityChars u host) = ((u.username, u.password), hostChars u host) := by
  have hhost : '@' ∉ hostChars u host := fun hmem => (plain_hostChars h _ hmem).2.2.2 rfl
  rw [splitCredentials, authorityChars, toList_credentials]
  by_cases hnone : u.username = "" ∧ u.password = ""
  · rw [if_pos hnone, List.nil_append, splitUserinfo_of_not_mem hhost, hnone.1, hnone.2]
    rfl
  · rw [if_neg hnone, List.append_assoc, List.append_assoc, List.singleton_append,
      ← List.append_assoc, splitUserinfo_append hhost, Option.getD_some,
      userinfo_behind h.username h.password]

theorem splitPort_hostChars (h : HasAuthority u host) :
    splitPort false (hostChars u host) = (host.toList, u.port.map (Nat.toDigits 10)) := by
  unfold hostChars
  cases u.port with
  | none =>
    rw [Option.map_none, behind, Option.elim_none, List.append_nil]
    exact h.text.alone
  | some p => exact h.text.port _

/-- **An authority is read back.** -/
theorem withAuthority?_text (h : HasAuthority u host) :
    withAuthority? u.scheme (authorityChars u host) =
      some { u with path := .segments [], query := none, fragment := none } := by
  have hport : port? u.scheme ((u.port.map (Nat.toDigits 10)).getD []) = some u.port := by
    cases hp : u.port with
    | none => rfl
    | some p =>
      obtain ⟨hbound, hdefault⟩ := h.port p hp
      exact port?_toDigits hbound hdefault
  have hmissing : ¬ (host.toList = [] ∧ (isSpecialScheme u.scheme ∨
      (u.port.map (Nat.toDigits 10)).isSome ∨ u.username ≠ "" ∨ u.password ≠ "")) := by
    rintro ⟨hempty, hsome⟩
    obtain ⟨hspecial, hname, hpassword, hnone⟩ := h.empty (String.toList_eq_nil_iff.1 hempty)
    rw [hname, hpassword, hnone, ← isSpecial, hspecial] at hsome
    simp at hsome
  rw [withAuthority?_eq (splitCredentials_authorityChars h) (splitPort_hostChars h),
    if_neg hmissing, ← isSpecial, h.read, Option.bind_some, hport, Option.bind_some, ← h.given]

theorem plain_of_inUserinfo {c : Char} (hascii : c.toNat < 0x80)
    (h : Percent.inUserinfo c = false) :
    IsInner c ∧ c ≠ '/' ∧ c ≠ '\\' :=
  Case.forall_ascii (p := fun c => Percent.inUserinfo c = false →
    IsInner c ∧ c ≠ '/' ∧ c ≠ '\\') (by decide) hascii h

/-- No other part of the URL begins in its authority. -/
theorem plain_authorityChars (h : HasAuthority u host) :
    ∀ c ∈ authorityChars u host, IsInner c ∧ c ≠ '/' ∧ c ≠ '\\' := by
  have hwritten {s : String} (hs : IsUserinfo s) (c : Char) (hc : c ∈ s.toList) :=
    plain_of_inUserinfo (hs c hc).1 (hs c hc).2
  intro c hc
  rcases List.mem_append.1 hc with hc | hc
  · rw [toList_credentials] at hc
    split_ifs at hc with hnone hpassword
    · cases hc
    · simp only [behind, Option.elim_none, List.nil_append, List.mem_append,
        List.mem_singleton] at hc
      rcases hc with hc | rfl
      · exact hwritten h.username c hc
      · decide
    · simp only [behind, Option.elim_some, List.cons_append, List.mem_append, List.mem_cons,
        List.not_mem_nil, or_false] at hc
      rcases hc with hc | rfl | hc | rfl
      · exact hwritten h.username c hc
      · decide
      · exact hwritten h.password c hc
      · decide
  · obtain ⟨hinner, hslash, hback, -⟩ := plain_hostChars h c hc
    exact ⟨hinner, hslash, hback⟩

theorem HasAuthority.with_path (h : HasAuthority u host) (path : Path) :
    HasAuthority { u with path } host :=
  ⟨h.given, h.read, h.text, h.username, h.password, h.port, h.empty⟩

theorem HasAuthority.plain (h : HasAuthority u host) :
    ∀ c ∈ authorityChars u host, IsInner c :=
  fun c hc => (plain_authorityChars h c hc).1

end Text

end LedgerBridge.Url
