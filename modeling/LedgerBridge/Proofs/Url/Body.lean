import LedgerBridge.Proofs.Url.Authority
import LedgerBridge.Proofs.Url.Segments

/-!
# Authorities and paths read back

What stands in a URL between the scheme and the query, for each kind of scheme.

* `bodyChars u`: these characters. `readBody?` reads them, by the rules of the scheme;
* `special?_text`, `unknown?_host`, `unknown?_ofSegments`, `unknown?_ofRootless`, `file?_text`: a
  URL of each kind is read back from them;
* `readsBack_of_readBody?`: so is every URL that was read.
-/

namespace LedgerBridge.Url

/-! ### Between the scheme and the query -/

/-- The reader of what stands between the scheme and the query. -/
def readBody? (scheme : String) (cs : List Char) : Option Url :=
  if scheme = "file" then file? cs
  else if isSpecialScheme scheme then special? scheme cs
  else unknown? scheme cs

/-- The characters between the scheme and the query. -/
def bodyChars (u : Url) : List Char := (u.authority ++ u.pathText).toList

/-- The URL without what stands behind its path. -/
def stump (u : Url) : Url := { u with query := none, fragment := none }

section Rooted

variable {u : Url} {host : String} {ss : List String}

theorem bodyChars_of_host (hhost : u.host = some host) (hpath : u.path = .segments ss) :
    bodyChars u = '/' :: '/' :: (authorityChars u host ++ (segmentsText ss).toList) := by
  rw [bodyChars, String.toList_append, toList_authority hhost, pathText, hpath, hhost]
  rfl

/-- An authority ends where the first slash of the path stands. -/
theorem span_segmentsText {p : Char → Bool} {cs : List Char} (h : ∀ c ∈ cs, p c = true)
    (hslash : p '/' = false) (ss : List String) :
    (cs ++ (segmentsText ss).toList).takeWhile p = cs ∧
      (cs ++ (segmentsText ss).toList).dropWhile p = (segmentsText ss).toList := by
  rw [List.takeWhile_append_of_pos h, List.dropWhile_append_of_pos h]
  cases ss with
  | nil => exact ⟨List.append_nil cs, rfl⟩
  | cons s ss =>
    rw [toList_segmentsText_cons, List.takeWhile_cons_of_neg (by simp [hslash]),
      List.dropWhile_cons_of_neg (by simp [hslash]), List.append_nil]
    exact ⟨rfl, rfl⟩

theorem plain_bodyChars {special : Bool} (hhost : u.host = some host)
    (hpath : u.path = .segments ss)
    (hplain : ∀ c ∈ authorityChars u host, IsInner c)
    (hss : ∀ t ∈ ss, IsWritten special t) :
    ∀ c ∈ bodyChars u, IsInner c := by
  have hslash : IsInner '/' := by decide
  rw [bodyChars_of_host hhost hpath]
  exact List.forall_mem_cons.2 ⟨hslash, List.forall_mem_cons.2 ⟨hslash,
    List.forall_mem_append.2 ⟨hplain, plain_segmentsText hss⟩⟩⟩

theorem exists_authorityChars_eq_cons (u : Url) (hne : host ≠ "") :
    ∃ c r, authorityChars u host = c :: r := by
  refine List.exists_cons_of_ne_nil fun hnil => hne ?_
  rw [authorityChars, hostChars, List.append_eq_nil_iff, List.append_eq_nil_iff] at hnil
  exact String.toList_eq_nil_iff.1 hnil.2.1

/-- **A URL of a scheme with known rules is read back.** -/
theorem special?_text (h : HasAuthority u host) (hspecial : u.isSpecial = true)
    (hpath : u.path = .segments ss) (hss : ∀ t ∈ ss, IsWritten true t) (hne : ss ≠ []) :
    special? u.scheme (bodyChars u) = some u.stump := by
  have hplain : ∀ c ∈ authorityChars u host, isSlashOf true c = false := by
    intro c hc
    obtain ⟨-, hslash, hback⟩ := plain_authorityChars h c hc
    simp [isSlashOf, hslash, hback]
  -- all slashes in front are dropped, and the authority begins with none
  have hfront : (bodyChars u).dropWhile (isSlashOf true) =
      authorityChars u host ++ (segmentsText ss).toList := by
    obtain ⟨c, r, hcons⟩ := exists_authorityChars_eq_cons u fun hempty => by
      rw [(h.empty hempty).1] at hspecial
      cases hspecial
    have hc : isSlashOf true c = false := hplain c (hcons ▸ List.mem_cons_self)
    rw [bodyChars_of_host h.given hpath, List.dropWhile_cons_of_pos (by decide),
      List.dropWhile_cons_of_pos (by decide), hcons, List.cons_append,
      List.dropWhile_cons_of_neg (by simp [hc])]
  obtain ⟨htake, hdrop⟩ := span_segmentsText (p := fun c => !isSlashOf true c)
    (fun c hc => by rw [hplain c hc]; rfl) (by decide) ss
  simp only [special?, hfront, htake, hdrop, withAuthority?_text h, Option.bind_eq_bind,
    Option.bind_some, parsePath_text hss fun _ => hne]
  rw [stump, ← hpath]
  rfl

/-- **So is one of an unknown scheme with an authority.** -/
theorem unknown?_host (h : HasAuthority u host) (hpath : u.path = .segments ss)
    (hss : ∀ t ∈ ss, IsWritten false t) : unknown? u.scheme (bodyChars u) = some u.stump := by
  obtain ⟨htake, hdrop⟩ := span_segmentsText (p := fun c => decide (c ≠ '/'))
    (fun c hc => decide_eq_true (plain_authorityChars h c hc).2.1) (by decide) ss
  rw [bodyChars_of_host h.given hpath]
  simp only [unknown?, htake, hdrop, withAuthority?_text h, Option.bind_eq_bind, Option.bind_some,
    parsePath_text hss (by simp)]
  rw [stump, ← hpath]
  rfl

end Rooted

/-! ### Unknown schemes without an authority -/

section Unknown

variable {scheme : String} {ss : List String} {cs : List Char}

/-- A URL without an authority whose path has segments. -/
def ofSegments (scheme : String) (ss : List String) : Url := { scheme, path := .segments ss }

/-- A URL whose path names no place. -/
def ofRootless (scheme : String) (cs : List Char) : Url :=
  { scheme, path := .rootless (String.ofList (Percent.encodeChars Percent.isControl cs)) }

theorem unknown?_slash (h : cs.head? ≠ some '/') :
    unknown? scheme ('/' :: cs) =
      some (ofSegments scheme (parseSegments (isSlashOf false) cs)) := by
  rw [isSlashOf_false]
  unfold unknown?
  split
  · next heq =>
    obtain rfl := (List.cons.inj heq).2
    exact absurd rfl h
  · next heq =>
    rw [(List.cons.inj heq).2]
    rfl
  · next hslash => exact absurd rfl (hslash cs)

theorem unknown?_rootless (h : cs.head? ≠ some '/') :
    unknown? scheme cs = some (ofRootless scheme cs) := by
  unfold unknown?
  split
  · exact absurd rfl h
  · exact absurd rfl h
  · rfl

/-- A dot in front of the path is no segment of it. -/
theorem parseSegments_dot (cs : List Char) : parseSegments (isSlashOf false) ('.' :: '/' :: cs) =
    parseSegments (isSlashOf false) cs := by
  have hdot : parseSegments.resolve [] (parseSegments.written ['.']) = [] := by decide
  rw [parseSegments, parseSegments.go, if_neg (by decide), parseSegments.go, if_pos (by decide),
    hdot]
  rfl

theorem bodyChars_ofSegments (scheme : String) (ss : List String) :
    bodyChars (ofSegments scheme ss) =
      (if ss.length > 1 ∧ ss.head? = some "" then ['/', '.'] else []) ++
        (segmentsText ss).toList := by
  simp only [bodyChars, ofSegments, authority, pathText, true_and]
  split_ifs <;> simp

/-- **Without an authority a path does not look like one.** -/
theorem unknown?_ofSegments (hss : ∀ t ∈ ss, IsWritten false t) (hne : ss ≠ []) :
    unknown? scheme (bodyChars (ofSegments scheme ss)) = some (ofSegments scheme ss) := by
  obtain ⟨s, rest, rfl⟩ := List.exists_cons_of_ne_nil hne
  obtain ⟨hs, hrest⟩ := List.forall_mem_cons.1 hss
  have hlength : (s :: rest).length > 1 ↔ rest ≠ [] := by
    rw [List.length_cons, ← List.length_pos_iff]
    omega
  rw [bodyChars_ofSegments, toList_segmentsText_cons]
  simp only [List.head?_cons, Option.some.injEq, hlength]
  split_ifs with hempty
  · have hdot : ('.' :: '/' :: (s.toList ++ rest.flatMap fun t => '/' :: t.toList)).head? ≠
        some '/' := by
      simp
    rw [List.cons_append, List.singleton_append, unknown?_slash hdot, parseSegments_dot,
      parseSegments_text hs hrest]
  · have hhead : (s.toList ++ rest.flatMap fun t => '/' :: t.toList).head? ≠ some '/' := by
      by_cases hs' : s = ""
      · have hnil : rest = [] := by
          by_contra hrest'
          exact hempty ⟨hrest', hs'⟩
        simp [hs', hnil]
      · rw [List.head?_append_of_ne_nil _ (mt String.toList_eq_nil_iff.1 hs')]
        intro hslash
        have := hs.noSlash '/' (List.mem_of_mem_head? hslash)
        simp [isSlashOf] at this
    rw [List.nil_append, unknown?_slash hhead, parseSegments_text hs hrest]

theorem plain_ofSegments (hss : ∀ t ∈ ss, IsWritten false t) :
    ∀ c ∈ bodyChars (ofSegments scheme ss), IsInner c := by
  rw [bodyChars_ofSegments]
  refine List.forall_mem_append.2 ⟨?_, plain_segmentsText hss⟩
  split_ifs
  · exact List.forall_mem_cons.2 ⟨by decide, List.forall_mem_singleton.2 (by decide)⟩
  · simp

theorem bodyChars_ofRootless (scheme : String) (cs : List Char) :
    bodyChars (ofRootless scheme cs) = Percent.encodeChars Percent.isControl cs := by
  simp [bodyChars, ofRootless, authority, pathText]

theorem isPlain_ofRootless (scheme : String) (cs : List Char) :
    Percent.IsPlain Percent.isControl (bodyChars (ofRootless scheme cs)) := by
  rw [bodyChars_ofRootless]
  exact Percent.isPlain_encodeChars (by decide) (by decide) cs

/-- **A path that names no place is read back.** -/
theorem unknown?_ofRootless (h : cs.head? ≠ some '/') :
    unknown? scheme (bodyChars (ofRootless scheme cs)) = some (ofRootless scheme cs) := by
  have hhead : (bodyChars (ofRootless scheme cs)).head? ≠ some '/' := by
    rw [bodyChars_ofRootless]
    exact fun hslash => h (Percent.head?_encodeChars (by decide) (by decide) hslash)
  have hplain := Percent.encodeChars_of_isPlain (isPlain_ofRootless scheme cs)
  rw [unknown?_rootless hhead, ofRootless, hplain, bodyChars_ofRootless, ofRootless]

/-- Spaces may stand in such a path. -/
theorem plain_ofRootless (hcs : ∀ c ∈ cs, c ≠ '?' ∧ c ≠ '#') :
    ∀ c ∈ bodyChars (ofRootless scheme cs), 0x20 ≤ c.toNat ∧ c ≠ '?' ∧ c ≠ '#' := by
  intro c hc
  have hcontrol := (isPlain_ofRootless scheme cs c hc).2
  simp only [Percent.isControl, Bool.or_eq_false_iff, decide_eq_false_iff_not] at hcontrol
  refine ⟨by omega, ?_⟩
  have hdigit : ∀ n < 16, Percent.digit n ≠ '?' ∧ Percent.digit n ≠ '#' := by decide
  rw [bodyChars_ofRootless] at hc
  rcases Percent.mem_encodeChars hc with ⟨-, hc⟩ | rfl | ⟨n, hn, rfl⟩
  · exact hcs c hc
  · decide
  · exact hdigit n hn

end Unknown

/-! ### Files -/

section File

variable {host : String} {ss : List String} {cs : List Char}

/-- A URL of a file. -/
def ofFile (host : String) (ss : List String) : Url :=
  { scheme := "file", host := some host, path := .segments ss }

/-- The host of a URL of a file: this machine has no name. -/
def IsFileHost (host : String) : Prop :=
  host = "" ∨ host ≠ "" ∧ host ≠ "localhost" ∧ Host.parse? host.toList = some host ∧
    Host.IsText host.toList

/-- The host that stands between two slashes and the path. -/
def fileHost? (cs : List Char) : Option String :=
  if cs = [] then some "" else
    (Host.parse? cs).map fun host => if host = "localhost" then "" else host

theorem file?_slashes {a b : Char} (ha : isSlashOf true a = true) (hb : isSlashOf true b = true) :
    file? (a :: b :: cs) = (fileHost? (cs.takeWhile (!isSlashOf true ·))).map fun host =>
      ofFile host (filePath (cs.dropWhile (!isSlashOf true ·))) := by
  simp only [file?, ha, hb, fileHost?]
  by_cases hempty : cs.takeWhile (!isSlashOf true ·) = []
  · simp [hempty, ofFile]
  · simp only [and_self, if_true, if_neg hempty, ofFile]
    cases Host.parse? (cs.takeWhile (!isSlashOf true ·)) <;> rfl

theorem isFileHost_of_fileHost? (h : fileHost? cs = some host) : IsFileHost host := by
  unfold fileHost? at h
  split_ifs at h with hempty
  · exact .inl (Option.some.inj h).symm
  · obtain ⟨read, hread, rfl⟩ := Option.map_eq_some_iff.1 h
    obtain ⟨hback, htext, hne⟩ := Host.parse?_text hread
    split_ifs with hlocal
    · exact .inl rfl
    · exact .inr ⟨hne, hlocal, hback, htext⟩

theorem fileHost?_text (h : IsFileHost host) : fileHost? host.toList = some host := by
  rcases h with rfl | ⟨hne, hlocal, hread, -⟩
  · rfl
  · rw [fileHost?, if_neg (mt String.toList_eq_nil_iff.1 hne), hread, Option.map_some,
      if_neg hlocal]

/-- A URL of a file names a host or this machine, and a path. -/
theorem exists_of_file? {u : Url} (h : file? cs = some u) :
    ∃ host rest, IsFileHost host ∧ u = ofFile host (filePath rest) := by
  rcases cs with _ | ⟨a, _ | ⟨b, r⟩⟩
  · exact ⟨"", [], .inl rfl, (Option.some.inj h).symm⟩
  · exact ⟨"", [a], .inl rfl, (Option.some.inj h).symm⟩
  · by_cases hslashes : isSlashOf true a = true ∧ isSlashOf true b = true
    · rw [file?_slashes hslashes.1 hslashes.2] at h
      obtain ⟨host, hhost, rfl⟩ := Option.map_eq_some_iff.1 h
      exact ⟨host, _, isFileHost_of_fileHost? hhost, rfl⟩
    · have hplain : file? (a :: b :: r) = some (ofFile "" (filePath (a :: b :: r))) :=
        if_neg hslashes
      rw [hplain] at h
      exact ⟨"", a :: b :: r, .inl rfl, (Option.some.inj h).symm⟩

theorem authorityChars_ofFile (host : String) (ss : List String) :
    authorityChars (ofFile host ss) host = host.toList := by
  simp [authorityChars, hostChars, credentials, ofFile, behind]

theorem plain_of_isFileHost (h : IsFileHost host) : ∀ c ∈ host.toList,
    IsInner c ∧ c ≠ '/' ∧ c ≠ '\\' ∧ c ≠ '@' := by
  rcases h with rfl | ⟨-, -, -, htext⟩
  · simp
  · exact htext.plain

/-- **A URL of a file is read back.** -/
theorem file?_text (hhost : IsFileHost host) (hss : ∀ t ∈ ss, IsWritten true t)
    (h : ss = [""] ∨ ss ≠ [] ∧ ss.head? ≠ some "") :
    file? (bodyChars (ofFile host ss)) = some (ofFile host ss) := by
  have hplain : ∀ c ∈ host.toList, (!isSlashOf true c) = true := by
    intro c hc
    obtain ⟨-, hslash, hback, -⟩ := plain_of_isFileHost hhost c hc
    simp [isSlashOf, hslash, hback]
  obtain ⟨htake, hdrop⟩ := span_segmentsText hplain (by decide) ss
  rw [bodyChars_of_host (u := ofFile host ss) rfl rfl, authorityChars_ofFile,
    file?_slashes (by decide) (by decide), htake, hdrop, fileHost?_text hhost, Option.map_some,
    filePath_text hss h]

end File

/-! ### What is read -/

section Read

variable {scheme : String} {cs : List Char} {u : Url}

/-- The URL, without a query and a fragment yet, was read from these characters and is read back
from its own. No other part begins in them, and no blank ends them that was not there. -/
structure ReadsBack (scheme : String) (cs : List Char) (u : Url) : Prop where
  scheme_eq : u.scheme = scheme
  query_eq : u.query = none
  fragment_eq : u.fragment = none
  read : readBody? scheme (bodyChars u) = some u.stump
  plain : ∀ c ∈ bodyChars u, 0x20 ≤ c.toNat ∧ c ≠ '?' ∧ c ≠ '#'
  last : (bodyChars u).getLast? = some ' ' → cs.getLast? = some ' '

theorem readsBack_of_plain (hscheme : u.scheme = scheme) (hquery : u.query = none)
    (hfragment : u.fragment = none) (hread : readBody? scheme (bodyChars u) = some u.stump)
    (hplain : ∀ c ∈ bodyChars u, IsInner c) : ReadsBack scheme cs u where
  scheme_eq := hscheme
  query_eq := hquery
  fragment_eq := hfragment
  read := hread
  plain := fun c hc => ⟨(hplain c hc).1.le, (hplain c hc).2⟩
  last := fun hblank => absurd (hplain ' ' (List.mem_of_mem_getLast? hblank)).1 (by decide)

/-- What was read with an authority, if the reader of its scheme reads it back. -/
theorem readsBack_authority {special : Bool} {front : List Char} {v : Url} {ss : List String}
    (hv : withAuthority? scheme front = some v) (hss : ∀ t ∈ ss, IsWritten special t)
    (hread : ∀ host, HasAuthority { v with path := .segments ss } host →
      readBody? scheme (bodyChars { v with path := .segments ss }) =
        some (stump { v with path := .segments ss })) :
    ReadsBack scheme cs { v with path := .segments ss } := by
  obtain ⟨⟨host, hhost⟩, hscheme, hquery, hfragment⟩ := withAuthority?_written hv
  have hauthority := hhost.with_path (.segments ss)
  exact readsBack_of_plain hscheme hquery hfragment (hread host hauthority)
    (plain_bodyChars hauthority.given rfl hauthority.plain hss)

theorem readsBack_special (hfile : scheme ≠ "file") (hspecial : isSpecialScheme scheme = true)
    (h : special? scheme cs = some u) : ReadsBack scheme cs u := by
  obtain ⟨v, hv, h⟩ := Option.bind_eq_some_iff.1 h
  obtain rfl := Option.some.inj h
  obtain ⟨-, rfl, -⟩ := withAuthority?_written hv
  obtain ⟨hne, hss⟩ := parsePath_written true
    ((cs.dropWhile (isSlashOf true)).dropWhile fun c => !isSlashOf true c)
  refine readsBack_authority hv hss fun host hhost => ?_
  rw [readBody?, if_neg hfile, if_pos hspecial]
  exact special?_text hhost hspecial rfl hss (hne rfl)

theorem readsBack_file (h : file? cs = some u) : ReadsBack "file" cs u := by
  obtain ⟨host, rest, hhost, rfl⟩ := exists_of_file? h
  obtain ⟨hfront, hss⟩ := filePath_written rest
  refine readsBack_of_plain rfl rfl rfl ?_ (plain_bodyChars rfl rfl ?_ hss)
  · rw [readBody?, if_pos rfl]
    exact file?_text hhost hss hfront
  · rw [authorityChars_ofFile]
    exact fun c hc => (plain_of_isFileHost hhost c hc).1

theorem readsBack_rootless (hfile : scheme ≠ "file") (hspecial : isSpecialScheme scheme = false)
    (hcs : ∀ c ∈ cs, c ≠ '?' ∧ c ≠ '#') (hhead : cs.head? ≠ some '/') :
    ReadsBack scheme cs (ofRootless scheme cs) := by
  refine ⟨rfl, rfl, rfl, ?_, plain_ofRootless hcs, ?_⟩
  · rw [readBody?, if_neg hfile, hspecial, if_neg (by decide), unknown?_ofRootless hhead]
    rfl
  · rw [bodyChars_ofRootless]
    exact Percent.getLast?_encodeChars (by decide) (by decide)

theorem readsBack_unknown (hfile : scheme ≠ "file") (hspecial : isSpecialScheme scheme = false)
    (hcs : ∀ c ∈ cs, c ≠ '?' ∧ c ≠ '#') (h : unknown? scheme cs = some u) :
    ReadsBack scheme cs u := by
  have hreader (cs : List Char) : readBody? scheme cs = unknown? scheme cs := by
    rw [readBody?, if_neg hfile, hspecial, if_neg (by decide)]
  unfold unknown? at h
  split at h
  · next r =>
    obtain ⟨v, hv, h⟩ := Option.bind_eq_some_iff.1 h
    obtain rfl := Option.some.inj h
    obtain ⟨-, rfl, -⟩ := withAuthority?_written hv
    obtain ⟨-, hss⟩ := parsePath_written false (r.dropWhile (· ≠ '/'))
    refine readsBack_authority hv hss fun host hhost => ?_
    rw [hreader]
    exact unknown?_host hhost rfl hss
  · next r _ =>
    obtain rfl := Option.some.inj h
    rw [← isSlashOf_false]
    obtain ⟨hne, hss⟩ := parseSegments_written false r
    refine readsBack_of_plain rfl rfl rfl ?_ (plain_ofSegments hss)
    rw [hreader]
    exact unknown?_ofSegments hss hne
  · next hslashes hslash =>
    obtain rfl := Option.some.inj h
    refine readsBack_rootless hfile hspecial hcs fun hhead => ?_
    obtain ⟨r, rfl⟩ := List.head?_eq_some_iff.1 hhead
    exact hslash r rfl

/-- **What stands between the scheme and the query is read back.** -/
theorem readsBack_of_readBody? (hcs : ∀ c ∈ cs, c ≠ '?' ∧ c ≠ '#')
    (h : readBody? scheme cs = some u) : ReadsBack scheme cs u := by
  unfold readBody? at h
  split_ifs at h with hfile hspecial
  · subst hfile
    exact readsBack_file h
  · exact readsBack_special hfile hspecial h
  · exact readsBack_unknown hfile (Bool.not_eq_true _ ▸ hspecial) hcs h

end Read

end LedgerBridge.Url
