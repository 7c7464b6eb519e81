import LedgerBridge.Proofs.Url.Percent
import LedgerBridge.Url

/-!
# Segments of a path

* `IsSegment s`: a path can hold the text in a segment of its own. One or two dots cannot be
  written, and tabs and line ends are no part of a URL. It can hold every `IsName s`;
* `Encodes segment s`: the segment is a percent-encoding of the text, and no part of a URL ends in
  it;
* `stem ss`: the segments that appended ones follow;
* `append_path_iff`: a path grows by encodings of the given texts exactly if they are segments;
* `readSegments`: the segments of a written path.
-/

namespace LedgerBridge.Url

/-! ### Texts and segments -/

/-- A path can hold the text in a segment of its own. -/
def IsSegment (s : String) : Prop := s ≠ "." ∧ s ≠ ".." ∧ ∀ c ∈ s.toList, isBreak c = false

instance (s : String) : Decidable (IsSegment s) :=
  haveI : Decidable (∀ c ∈ s.toList, isBreak c = false) := List.decidableBAll _ s.toList
  inferInstanceAs (Decidable (s ≠ "." ∧ s ≠ ".." ∧ ∀ c ∈ s.toList, isBreak c = false))

/-- Letters and digits of ASCII, hyphens and underscores. -/
def IsName (s : String) : Prop := ∀ ch ∈ s.toList, ch.isAlphanum = true ∨ ch = '-' ∨ ch = '_'

instance (s : String) : Decidable (IsName s) :=
  List.decidableBAll (fun ch : Char => ch.isAlphanum = true ∨ ch = '-' ∨ ch = '_') s.toList

theorem IsName.isSegment {s : String} (h : IsName s) : IsSegment s := by
  refine ⟨?_, ?_, fun ch hch => ?_⟩
  · rintro rfl
    exact absurd h (by decide)
  · rintro rfl
    exact absurd h (by decide)
  · rw [Bool.eq_false_iff]
    intro hbreak
    simp only [isBreak, Bool.or_eq_true, decide_eq_true_eq] at hbreak
    have hname := h ch hch
    rcases hbreak with (rfl | rfl) | rfl <;> revert hname <;> decide

/-- The segment stands for the text: it is read back as the text, no segment, query or fragment
begins in it, and no dots are resolved in it. -/
structure Encodes (segment s : String) : Prop where
  decode_eq : Percent.decode (Utf8.encode segment) = Utf8.encode s
  plain : '/' ∉ segment.toList ∧ '?' ∉ segment.toList ∧ '#' ∉ segment.toList
  noDots : isSingleDot segment = false ∧ isDoubleDot segment = false

/-- Tabs and line ends apart, a text is read back from its segment. -/
theorem decode_encodeSegment (special : Bool) (s : String) :
    Percent.decode (Utf8.encode (encodeSegment special s)) =
      (s.toList.filter fun c => !isBreak c).flatMap String.utf8EncodeChar := by
  have hsign : Percent.inSegment special '%' = true := by cases special <;> decide
  rw [encodeSegment, Utf8.encode_ofList, Percent.decode_encodeChars hsign]

theorem filter_isBreak {s : String} (h : ∀ c ∈ s.toList, isBreak c = false) :
    (s.toList.filter fun c => !isBreak c) = s.toList :=
  List.filter_eq_self.2 fun c hc => by rw [h c hc]; rfl

theorem not_mem_encodeSegment {special : Bool} {s : String} {d : Char}
    (hd : d = '/' ∨ d = '?' ∨ d = '#') : d ∉ (encodeSegment special s).toList := by
  rw [encodeSegment, String.toList_ofList]
  rcases hd with rfl | rfl | rfl <;>
    exact Percent.not_mem_encodeChars (by cases special <;> decide) (by decide) (by decide)

theorem decode_of_isSingleDot {segment : String} (h : isSingleDot segment = true) :
    Percent.decode (Utf8.encode segment) = Utf8.encode "." := by
  simp only [isSingleDot, Bool.or_eq_true, decide_eq_true_eq] at h
  rcases h with (rfl | rfl) | rfl <;> decide

theorem decode_of_isDoubleDot {segment : String} (h : isDoubleDot segment = true) :
    Percent.decode (Utf8.encode segment) = Utf8.encode ".." := by
  simp only [isDoubleDot, List.contains_iff_mem, List.mem_cons, List.not_mem_nil, or_false] at h
  rcases h with rfl | rfl | rfl | rfl | rfl | rfl | rfl | rfl | rfl <;> decide

/-- **A segment stands for its text.** -/
theorem encodes_encodeSegment (special : Bool) {s : String} (h : IsSegment s) :
    Encodes (encodeSegment special s) s := by
  obtain ⟨hdot, hdots, hbreak⟩ := h
  have hdecode : Percent.decode (Utf8.encode (encodeSegment special s)) = Utf8.encode s := by
    rw [decode_encodeSegment, filter_isBreak hbreak]
    rfl
  refine ⟨hdecode, ⟨not_mem_encodeSegment (.inl rfl), not_mem_encodeSegment (.inr (.inl rfl)),
    not_mem_encodeSegment (.inr (.inr rfl))⟩, ?_, ?_⟩
  · rw [Bool.eq_false_iff]
    intro hsingle
    exact hdot (Utf8.encode_injective (hdecode.symm.trans (decode_of_isSingleDot hsingle)))
  · rw [Bool.eq_false_iff]
    intro hdouble
    exact hdots (Utf8.encode_injective (hdecode.symm.trans (decode_of_isDoubleDot hdouble)))

theorem Encodes.unique {segment s t : String} (hs : Encodes segment s) (ht : Encodes segment t) :
    s = t :=
  Utf8.encode_injective (hs.decode_eq.symm.trans ht.decode_eq)

theorem Encodes.size_le {segment s : String} (h : Encodes segment s) :
    Utf8.size s ≤ Utf8.size segment := by
  rw [Utf8.size, ← h.decode_eq]
  exact Percent.length_decode_le _

/-- Segments stand for one list of texts only. -/
theorem eq_of_forall₂_encodes {segments ss ts : List String}
    (hss : List.Forall₂ Encodes segments ss) (hts : List.Forall₂ Encodes segments ts) :
    ss = ts := by
  induction hss generalizing ts with
  | nil =>
    cases hts
    rfl
  | cons hs _ ih =>
    obtain _ | ⟨ht, hts⟩ := hts
    rw [hs.unique ht, ih hts]

theorem plain_of_forall₂ {segments ss : List String} (h : List.Forall₂ Encodes segments ss) :
    ∀ segment ∈ segments, '/' ∉ segment.toList ∧ '?' ∉ segment.toList := by
  induction h with
  | nil => simp
  | cons hs _ ih => exact List.forall_mem_cons.2 ⟨⟨hs.plain.1, hs.plain.2.1⟩, ih⟩

/-! ### Appending -/

/-- What a text becomes at the end of a path if it becomes a segment at all: one that stands for the
place itself is empty. -/
def lastSegment (special : Bool) (s : String) : String :=
  if isSingleDot (encodeSegment special s) then "" else encodeSegment special s

/-- The segments that appended ones follow: an empty last one is left out, and so is an empty one in
front of it when they are all. -/
def stem (ss : List String) : List String := if popEmpty ss = [""] then [] else popEmpty ss

theorem isSegment_of_decode_lastSegment {special : Bool} {s : String} (hdot : s ≠ ".")
    (hdots : s ≠ "..")
    (h : Percent.decode (Utf8.encode (lastSegment special s)) = Utf8.encode s) : IsSegment s := by
  refine ⟨hdot, hdots, ?_⟩
  unfold lastSegment at h
  split_ifs at h with hsingle
  · -- an empty segment stands for the empty text, which has no dots
    obtain rfl : "" = s := Utf8.encode_injective h
    exact absurd hsingle (by cases special <;> decide)
  · rw [decode_encodeSegment, ← Utf8.encode_ofList] at h
    have hs : s.toList.filter (fun c => !isBreak c) = s.toList := by
      have := congrArg String.toList (Utf8.encode_injective h)
      rwa [String.toList_ofList] at this
    intro c hc
    rw [← hs] at hc
    simpa using (List.mem_filter.1 hc).2

section Push

variable {special : Bool} {ss more : List String} {s : String}

theorem pushSegment_of_isSegment (h : IsSegment s) : pushSegment special ss s =
    (if ss = [""] then [] else ss) ++ [encodeSegment special s] := by
  obtain ⟨hsingle, hdouble⟩ := (encodes_encodeSegment special h).noDots
  rw [pushSegment, if_neg (not_or.2 ⟨h.1, h.2.1⟩), step, if_neg (by simp [hdouble]),
    if_neg (by simp [hsingle])]

theorem length_pushSegment_le (special : Bool) (ss : List String) (s : String) :
    (pushSegment special ss s).length ≤ ss.length + 1 := by
  have hstep (ss : List String) (segment : String) : (step ss segment).length ≤ ss.length + 1 := by
    unfold step
    split_ifs <;> simp
  unfold pushSegment
  split_ifs with hdots hroot
  · exact Nat.le_succ _
  · exact (hstep [] _).trans (Nat.succ_le_succ (Nat.zero_le _))
  · exact hstep ss _

/-- Behind a segment a text becomes the last one, or the path does not grow. -/
theorem pushSegment_cases (hss : ss ≠ [] ∧ ss ≠ [""]) (s : String) :
    (pushSegment special ss s).length ≤ ss.length ∨
      (s ≠ "." ∧ s ≠ "..") ∧ pushSegment special ss s = ss ++ [lastSegment special s] := by
  rw [pushSegment, if_neg hss.2]
  split_ifs with hdots
  · exact .inl le_rfl
  by_cases hdouble : isDoubleDot (encodeSegment special s) = true
  · -- the place above takes the last segment away
    left
    have := List.length_pos_of_ne_nil hss.1
    rw [step, if_pos hdouble, List.length_append, List.length_dropLast, List.length_singleton]
    omega
  · right
    rw [step, if_neg hdouble, lastSegment]
    refine ⟨not_or.1 hdots, ?_⟩
    split_ifs <;> rfl

theorem length_foldl_pushSegment_le (special : Bool) (more ss : List String) :
    (more.foldl (pushSegment special) ss).length ≤ ss.length + more.length := by
  induction more generalizing ss with
  | nil => exact le_rfl
  | cons s more ih =>
    have hpush := length_pushSegment_le special ss s
    have hrest := ih (pushSegment special ss s)
    rw [List.foldl_cons, List.length_cons]
    omega

theorem append_singleton_ne (h : ss ≠ []) (s : String) : ss ++ [s] ≠ [] ∧ ss ++ [s] ≠ [""] := by
  refine ⟨by simp, fun heq => h (List.eq_nil_of_length_eq_zero ?_)⟩
  simpa using congrArg List.length heq

/-- A path that has grown by a segment for each text has grown by theirs. -/
theorem foldl_pushSegment_of_length (hss : ss ≠ [] ∧ ss ≠ [""])
    (h : (more.foldl (pushSegment special) ss).length = ss.length + more.length) :
    (∀ s ∈ more, s ≠ "." ∧ s ≠ "..") ∧
      more.foldl (pushSegment special) ss = ss ++ more.map (lastSegment special) := by
  induction more generalizing ss with
  | nil => simp
  | cons s more ih =>
    rw [List.foldl_cons, List.length_cons] at h
    have hcases : (pushSegment special ss s).length ≤ ss.length ∨ _ := pushSegment_cases hss s
    rcases hcases with hle | ⟨hdots, hpush⟩
    · have hrest := length_foldl_pushSegment_le special more (pushSegment special ss s)
      omega
    · have hlength : (ss ++ [lastSegment special s]).length = ss.length + 1 := by simp
      rw [hpush] at h
      obtain ⟨hmore, hfold⟩ := ih (append_singleton_ne hss.1 _) (by rw [h, hlength]; omega)
      refine ⟨List.forall_mem_cons.2 ⟨hdots, hmore⟩, ?_⟩
      rw [List.foldl_cons, hpush, hfold]
      simp

theorem foldl_pushSegment_of_isSegment (hss : ss ≠ [] ∧ ss ≠ [""])
    (h : ∀ s ∈ more, IsSegment s) :
    more.foldl (pushSegment special) ss = ss ++ more.map (encodeSegment special) := by
  induction more generalizing ss with
  | nil => simp
  | cons s more ih =>
    obtain ⟨hs, hmore⟩ := List.forall_mem_cons.1 h
    rw [List.foldl_cons, pushSegment_of_isSegment hs, if_neg hss.2,
      ih (append_singleton_ne hss.1 _) hmore]
    simp

theorem forall₂_encodes_map (h : ∀ s ∈ more, IsSegment s) :
    List.Forall₂ Encodes (more.map (encodeSegment special)) more := by
  rw [List.forall₂_map_left_iff, List.forall₂_same]
  exact fun s hs => encodes_encodeSegment special (h s hs)

end Push

section Append

variable {u : Url} {ss more : List String} {first : String}

theorem path_append (hpath : u.path = .segments ss) (hfirst : IsSegment first)
    (more : List String) : (u.append (first :: more)).path = .segments
      (more.foldl (pushSegment u.isSpecial) (stem ss ++ [encodeSegment u.isSpecial first])) := by
  rw [append.eq_def, hpath]
  simp only [List.foldl_cons]
  rw [pushSegment_of_isSegment hfirst]
  rfl

/-- **A path grows by segments for all texts exactly if they are segments.** -/
theorem append_path_iff (hpath : u.path = .segments ss) (hfirst : IsSegment first)
    (hne : first ≠ "") :
    (∃ ts, (u.append (first :: more)).path = .segments (stem ss ++ ts) ∧
      List.Forall₂ Encodes ts (first :: more)) ↔ ∀ s ∈ more, IsSegment s := by
  have henc := encodes_encodeSegment u.isSpecial hfirst
  have hnonempty : encodeSegment u.isSpecial first ≠ "" := by
    intro h
    have hdecode := henc.decode_eq
    rw [h] at hdecode
    exact hne (Utf8.encode_injective (t := "") hdecode.symm)
  have hstart : stem ss ++ [encodeSegment u.isSpecial first] ≠ [] ∧
      stem ss ++ [encodeSegment u.isSpecial first] ≠ [""] := by
    refine ⟨by simp, fun heq => hnonempty ?_⟩
    have := congrArg List.getLast? heq
    simpa using this
  rw [path_append hpath hfirst]
  constructor
  · rintro ⟨ts, hts, hforall⟩
    have hfold := Path.segments.inj hts
    obtain ⟨t, ts, -, hmore, rfl⟩ := List.forall₂_cons_right_iff.1 hforall
    have hcount := hmore.length_eq
    -- the lengths leave no text out, so the new segments are those of the texts
    have hlength := congrArg List.length hfold
    rw [List.length_append, List.length_cons] at hlength
    obtain ⟨hdots, hmap⟩ := @foldl_pushSegment_of_length u.isSpecial _ more hstart
      (by rw [hlength, List.length_append, List.length_singleton]; omega)
    rw [hmap, List.append_assoc, List.append_cancel_left_eq, List.singleton_append] at hfold
    rw [← (List.cons.inj hfold).2, List.forall₂_map_left_iff, List.forall₂_same] at hmore
    intro s hs
    exact isSegment_of_decode_lastSegment (hdots s hs).1 (hdots s hs).2 (hmore s hs).decode_eq
  · intro h
    refine ⟨encodeSegment u.isSpecial first :: more.map (encodeSegment u.isSpecial), ?_,
      .cons henc (forall₂_encodes_map h)⟩
    rw [foldl_pushSegment_of_isSegment hstart h, List.append_assoc, List.singleton_append]

/-- Nothing but the path changes. -/
theorem append_eq (u : Url) (more : List String) :
    u.append more = { u with path := (u.append more).path } := by
  rw [append.eq_def]
  split <;> rfl

end Append

/-! ### Written paths -/

theorem toList_segmentsText (ss : List String) :
    (segmentsText ss).toList = ss.flatMap fun s => '/' :: s.toList := by
  have hjoin (ts : List String) : (String.join ts).toList = ts.flatMap String.toList := by
    simp
  rw [segmentsText, hjoin, List.flatMap_map]
  simp

theorem segmentsText_append (ss ts : List String) :
    segmentsText (ss ++ ts) = segmentsText ss ++ segmentsText ts := by
  rw [← String.toList_inj, String.toList_append, toList_segmentsText, toList_segmentsText,
    toList_segmentsText, List.flatMap_append]

theorem size_le_segmentsText {ss : List String} {s : String} (h : s ∈ ss) :
    Utf8.size s ≤ Utf8.size (segmentsText ss) := by
  obtain ⟨before, behind, rfl⟩ := List.append_of_mem h
  have hsingle : segmentsText [s] = "/" ++ s := String.empty_append
  rw [← List.singleton_append, segmentsText_append, segmentsText_append, hsingle]
  simp only [Utf8.size_append]
  omega

/-- The segments of a written path. -/
def readSegments : List Char → List String
  | '/' :: r => (r.splitOn '/').map String.ofList
  | _ => []

/-- **The segments of a path are read back.** -/
theorem readSegments_segmentsText {ss : List String} (h : ∀ s ∈ ss, '/' ∉ s.toList) :
    readSegments (segmentsText ss).toList = ss := by
  cases ss with
  | nil => rfl
  | cons s ss =>
    have hwritten (s : String) (ss : List String) :
        (segmentsText (s :: ss)).toList =
          '/' :: ['/'].intercalate ((s :: ss).map String.toList) := by
      rw [toList_segmentsText]
      induction ss generalizing s with
      | nil => simp
      | cons t ss ih =>
        rw [List.flatMap_cons, ih, List.map_cons (a := s), List.map_cons,
          List.intercalate_cons_cons]
        simp
    have hplain : ∀ l ∈ (s :: ss).map String.toList, '/' ∉ l := by
      intro l hl
      obtain ⟨t, ht, rfl⟩ := List.mem_map.1 hl
      exact h t ht
    rw [hwritten, readSegments, List.splitOn_intercalate _ hplain (by simp), List.map_map]
    simp

end LedgerBridge.Url
