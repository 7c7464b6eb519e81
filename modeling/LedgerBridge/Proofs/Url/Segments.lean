import LedgerBridge.Proofs.Text.Blank
import LedgerBridge.Proofs.Text.Case
import LedgerBridge.Proofs.Url.Path
import LedgerBridge.Url.Parse

/-!
# Paths read back

* `IsWritten special s`: a segment as a path that was read has them. Nothing in it is encoded again,
  it ends at no slash, and it stands for no other place;
* `parsePath_written`, `filePath_written`: the segments of a path that was read are such;
* `parsePath_text`, `filePath_text`: segments like that are read back from their text.
-/

namespace LedgerBridge.Url

/-- A segment as a path that was read has them. -/
structure IsWritten (special : Bool) (s : String) : Prop where
  plain : Percent.IsPlain Percent.inPath s.toList
  noSlash : ∀ c ∈ s.toList, isSlashOf special c = false
  noDots : isSingleDot s = false ∧ isDoubleDot s = false

theorem isWritten_empty (special : Bool) : IsWritten special "" where
  plain := by simp [Percent.IsPlain]
  noSlash := by simp
  noDots := by decide

section Segments

variable {special : Bool} {s : String} {ss : List String} {cs segment : List Char}

theorem isSlashOf_false : isSlashOf false = fun c => decide (c = '/') := by
  funext c
  simp [isSlashOf]

/-! ### What is read -/

/-- What stands between slashes has none when it is written. -/
theorem noSlash_written (h : ∀ c ∈ segment, isSlashOf special c = false) :
    ∀ c ∈ (parseSegments.written segment).toList, isSlashOf special c = false := by
  intro c hc
  have hdigit : ∀ n < 16, isSlashOf true (Percent.digit n) = false ∧
      isSlashOf false (Percent.digit n) = false := by decide
  rw [parseSegments.written, String.toList_ofList] at hc
  rcases Percent.mem_encodeChars hc with ⟨-, hc⟩ | rfl | ⟨n, hn, rfl⟩
  · exact h c (List.mem_reverse.1 hc)
  · cases special <;> decide
  · cases special
    · exact (hdigit n hn).2
    · exact (hdigit n hn).1

theorem plain_written (segment : List Char) :
    Percent.IsPlain Percent.inPath (parseSegments.written segment).toList := by
  rw [parseSegments.written, String.toList_ofList]
  exact Percent.isPlain_encodeChars (by decide) (by decide) _

theorem written_resolve (hss : ∀ t ∈ ss, IsWritten special t)
    (h : ∀ c ∈ segment, isSlashOf special c = false) :
    ∀ t ∈ parseSegments.resolve ss (parseSegments.written segment), IsWritten special t := by
  unfold parseSegments.resolve
  split_ifs with hdouble hsingle
  · exact fun t ht => hss t (List.mem_of_mem_dropLast ht)
  · exact hss
  · refine List.forall_mem_append.2 ⟨hss, List.forall_mem_singleton.2 ?_⟩
    exact ⟨plain_written segment, noSlash_written h, by simpa using hsingle, by simpa using hdouble⟩

theorem written_step (hss : ∀ t ∈ ss, IsWritten special t)
    (h : ∀ c ∈ segment, isSlashOf special c = false) :
    step ss (parseSegments.written segment) ≠ [] ∧
      ∀ t ∈ step ss (parseSegments.written segment), IsWritten special t := by
  have hempty := List.forall_mem_singleton.2 (isWritten_empty special)
  unfold step
  split_ifs with hdouble hsingle
  · refine ⟨by simp, List.forall_mem_append.2 ⟨fun t ht => ?_, hempty⟩⟩
    exact hss t (List.mem_of_mem_dropLast ht)
  · exact ⟨by simp, List.forall_mem_append.2 ⟨hss, hempty⟩⟩
  · refine ⟨by simp, List.forall_mem_append.2 ⟨hss, List.forall_mem_singleton.2 ?_⟩⟩
    exact ⟨plain_written segment, noSlash_written h, by simpa using hsingle, by simpa using hdouble⟩

/-- The segments before the place of the reader are written, and so are all in the end. -/
theorem written_go (hss : ∀ t ∈ ss, IsWritten special t)
    (h : ∀ c ∈ segment, isSlashOf special c = false) :
    parseSegments.go (isSlashOf special) cs segment ss ≠ [] ∧
      ∀ t ∈ parseSegments.go (isSlashOf special) cs segment ss, IsWritten special t := by
  induction cs generalizing segment ss with
  | nil => exact written_step hss h
  | cons c cs ih =>
    unfold parseSegments.go
    split_ifs with hslash
    · exact ih (written_resolve hss h) (by simp)
    · exact ih hss (List.forall_mem_cons.2 ⟨by simpa using hslash, h⟩)

theorem parseSegments_written (special : Bool) (cs : List Char) :
    parseSegments (isSlashOf special) cs ≠ [] ∧
      ∀ t ∈ parseSegments (isSlashOf special) cs, IsWritten special t :=
  written_go (by simp) (by simp)

theorem parsePath_written (special : Bool) (cs : List Char) :
    (special = true → parsePath special cs ≠ []) ∧
      ∀ t ∈ parsePath special cs, IsWritten special t := by
  unfold parsePath
  split
  · cases special with
    | false => simp
    | true => simpa using isWritten_empty true
  · split_ifs
    · exact (parseSegments_written special _).imp_left fun h _ => h
    · exact (parseSegments_written special _).imp_left fun h _ => h

/-! ### Reading back -/

/-- The reader of segments, behind the characters of one. -/
theorem go_append (h : ∀ c ∈ cs, isSlashOf special c = false) (rest : List Char) :
    parseSegments.go (isSlashOf special) (cs ++ rest) segment ss =
      parseSegments.go (isSlashOf special) rest (cs.reverse ++ segment) ss := by
  induction cs generalizing segment with
  | nil => rfl
  | cons c cs ih =>
    obtain ⟨hc, hcs⟩ := List.forall_mem_cons.1 h
    rw [List.cons_append, parseSegments.go, hc, if_neg (by decide), ih hcs, List.reverse_cons,
      List.append_assoc, List.singleton_append]

theorem written_reverse (h : IsWritten special s) : parseSegments.written s.toList.reverse = s := by
  rw [parseSegments.written, List.reverse_reverse, Percent.encodeChars_of_isPlain h.plain,
    String.ofList_toList]

/-- **Written segments are read back.** -/
theorem go_text (hs : IsWritten special s) (hss : ∀ t ∈ ss, IsWritten special t)
    (before : List String) :
    parseSegments.go (isSlashOf special)
        (s.toList ++ ss.flatMap fun t => '/' :: t.toList) [] before =
      before ++ s :: ss := by
  have hdots (t : String) (ht : IsWritten special t) (before : List String) :
      step before t = before ++ [t] ∧ parseSegments.resolve before t = before ++ [t] := by
    obtain ⟨hsingle, hdouble⟩ := ht.noDots
    simp [step, parseSegments.resolve, hsingle, hdouble]
  induction ss generalizing s before with
  | nil =>
    rw [List.flatMap_nil, go_append hs.noSlash, parseSegments.go, List.append_nil,
      written_reverse hs, (hdots s hs before).1]
  | cons t ss ih =>
    obtain ⟨ht, hss⟩ := List.forall_mem_cons.1 hss
    have hslash : isSlashOf special '/' = true := by cases special <;> decide
    rw [go_append hs.noSlash, List.flatMap_cons, List.cons_append, parseSegments.go, if_pos hslash,
      List.append_nil, written_reverse hs, (hdots s hs before).2, ih ht hss, List.append_assoc,
      List.singleton_append]

theorem parseSegments_text (hs : IsWritten special s) (hss : ∀ t ∈ ss, IsWritten special t) :
    parseSegments (isSlashOf special) (s.toList ++ ss.flatMap fun t => '/' :: t.toList) = s :: ss :=
  go_text hs hss []

theorem toList_segmentsText_cons (s : String) (ss : List String) : (segmentsText (s :: ss)).toList =
    '/' :: (s.toList ++ ss.flatMap fun t => '/' :: t.toList) := by
  rw [toList_segmentsText]
  rfl

/-- **A path is read back.** -/
theorem parsePath_text (hss : ∀ t ∈ ss, IsWritten special t) (hne : special = true → ss ≠ []) :
    parsePath special (segmentsText ss).toList = ss := by
  cases ss with
  | nil =>
    cases special with
    | false => rfl
    | true => exact absurd rfl (hne rfl)
  | cons s ss =>
    obtain ⟨hs, hss⟩ := List.forall_mem_cons.1 hss
    have hslash : isSlashOf special '/' = true := by cases special <;> decide
    rw [toList_segmentsText_cons, parsePath, if_pos hslash, parseSegments_text hs hss]

/-! ### Files -/

theorem filePath_eq (cs : List Char) : filePath cs =
    if (parsePath true cs).dropWhile (· = "") = [] then [""]
    else (parsePath true cs).dropWhile (· = "") := by
  unfold filePath
  split
  · next h => rw [if_pos h]
  · next h => rw [if_neg h]

/-- The path of a file has no empty segment in front, unless it has no other. -/
theorem filePath_written (cs : List Char) :
    (filePath cs = [""] ∨ filePath cs ≠ [] ∧ (filePath cs).head? ≠ some "") ∧
      ∀ t ∈ filePath cs, IsWritten true t := by
  rw [filePath_eq]
  split_ifs with hempty
  · exact ⟨.inl rfl, List.forall_mem_singleton.2 (isWritten_empty true)⟩
  · refine ⟨.inr ⟨hempty, fun hhead => ?_⟩, fun t ht => ?_⟩
    · simpa using Blank.head?_dropWhile_eq hhead
    · exact (parsePath_written true cs).2 t ((List.dropWhile_sublist _).mem ht)

theorem filePath_text (hss : ∀ t ∈ ss, IsWritten true t)
    (h : ss = [""] ∨ ss ≠ [] ∧ ss.head? ≠ some "") : filePath (segmentsText ss).toList = ss := by
  have hne : ss ≠ [] := by
    rcases h with rfl | ⟨hne, -⟩
    · simp
    · exact hne
  rw [filePath_eq, parsePath_text hss fun _ => hne]
  rcases h with rfl | ⟨-, hhead⟩
  · rfl
  · have hstay : ss.dropWhile (· = "") = ss := by
      refine Blank.dropWhile_eq_self fun t ht => ?_
      rw [decide_eq_false_iff_not]
      rintro rfl
      exact hhead ht
    rw [hstay, if_neg hne]

/-! ### Characters -/

theorem plain_of_inPath {c : Char} (hascii : c.toNat < 0x80) (h : Percent.inPath c = false) :
    IsInner c :=
  Case.forall_ascii (p := fun c => Percent.inPath c = false → IsInner c) (by decide) hascii h

/-- No query and no fragment begins in a path, and there are no blanks in it. -/
theorem plain_segmentsText (hss : ∀ t ∈ ss, IsWritten special t) :
    ∀ c ∈ (segmentsText ss).toList, IsInner c := by
  intro c hc
  rw [toList_segmentsText, List.mem_flatMap] at hc
  obtain ⟨t, ht, hc⟩ := hc
  rcases List.mem_cons.1 hc with rfl | hc
  · decide
  · obtain ⟨hascii, hplain⟩ := (hss t ht).plain c hc
    exact plain_of_inPath hascii hplain

end Segments

end LedgerBridge.Url
