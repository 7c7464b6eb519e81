import LedgerBridge.Proofs.Text.LowerCase
import LedgerBridge.Proofs.Url.Address
import LedgerBridge.Proofs.Url.Percent
import LedgerBridge.Proofs.Url.Punycode
import LedgerBridge.Url.Parse

/-!
# Hosts read back

* `fold_of_mem_fold`: what a character of a domain counts as counts as itself;
* `IsDomain cs`: a domain in its written form, as every one that was read is
  (`isDomain_of_domain?`);
* `IsText cs`: a host that a URL can hold. No other part begins in it, and a port behind it is told
  apart from it;
* `parse?_text`, `parseUnknown?_text`: every host that was read is read back, and is such a text.
-/

namespace LedgerBridge.Url.Host

/-! ### Characters of domains -/

section Fold

variable {c d : Char}

/-- Characters that do not count as their lower case form, as runs. -/
def unusualRuns : List Case.Run :=
  [⟨0xff01, 0xff5e, 1, 0⟩, ⟨0x3002, 0x3002, 1, 0⟩, ⟨0xff61, 0xff61, 1, 0⟩, ⟨0xad, 0xad, 1, 0⟩,
   ⟨0x200b, 0x200b, 1, 0⟩, ⟨0x2060, 0x2060, 1, 0⟩, ⟨0xfeff, 0xfeff, 1, 0⟩]

/-- The character counts as its lower case form. -/
def IsUsual (c : Char) : Prop := ∀ r ∈ unusualRuns, ¬ r.Changes c.toNat

instance (c : Char) : Decidable (IsUsual c) := List.decidableBAll _ unusualRuns

theorem isUsual_iff : IsUsual c ↔ ¬ (0xff01 ≤ c.toNat ∧ c.toNat ≤ 0xff5e) ∧ c.toNat ≠ 0x3002 ∧
    c.toNat ≠ 0xff61 ∧ c.toNat ≠ 0xad ∧ c.toNat ≠ 0x200b ∧ c.toNat ≠ 0x2060 ∧ c.toNat ≠ 0xfeff := by
  simp only [IsUsual, unusualRuns, List.forall_mem_cons, Case.Run.Changes, Nat.mod_one, and_true]
  constructor
  · rintro ⟨h1, h2, h3, h4, h5, h6, h7, -⟩
    omega
  · rintro ⟨h1, h2, h3, h4, h5, h6, h7⟩
    exact ⟨h1, by omega, by omega, by omega, by omega, by omega, by omega, by simp⟩

theorem fold_eq_lower (h : IsUsual c) : fold c = Case.lower c := by
  rw [isUsual_iff] at h
  have hdots : ¬ (c = '\u3002' ∨ c = '\uff0e' ∨ c = '\uff61') := by
    rintro (rfl | rfl | rfl) <;> exact absurd h (by decide)
  have hnothing : ¬ (c = '\u00ad' ∨ c = '\u200b' ∨ c = '\u2060' ∨ c = '\ufeff') := by
    rintro (rfl | rfl | rfl | rfl) <;> exact absurd h (by decide)
  rw [fold, if_neg h.1, if_neg hdots, if_neg hnothing]

/-- No run leads from a usual character to an unusual one. -/
theorem isApart_unusualRuns : ∀ r ∈ Case.lowerRuns, r.first < 0xff01 ∨ 0xff5e < r.last →
    ∀ s ∈ unusualRuns, r.isApart s = true := by
  decide +kernel

theorem isUsual_of_mem_lower (hc : IsUsual c) (h : d ∈ Case.lower c) : IsUsual d := by
  rcases Case.mem_lower_cases h with ⟨hascii, rfl⟩ | rfl | rfl | ⟨rfl, -⟩ | ⟨r, hr, hleads⟩
  · have hlower : c.toLower.toNat < 0x80 :=
      Case.forall_ascii (p := fun c => c.toLower.toNat < 0x80) (by decide) hascii
    exact isUsual_iff.2 (by omega)
  · decide
  · decide
  · exact hc
  · have hwide := (isUsual_iff.1 hc).1
    obtain ⟨hfirst, hlast, -⟩ := hleads.1
    exact fun s hs => Case.Run.not_changes hleads (isApart_unusualRuns r hr (by omega) s hs)

/-- **What a character counts as counts as itself.** -/
theorem fold_of_mem_fold (h : d ∈ fold c) : fold d = [d] := by
  by_cases husual : IsUsual c
  · rw [fold_eq_lower husual] at h
    rw [fold_eq_lower (isUsual_of_mem_lower husual h), Case.lower_of_mem_lower h]
  · unfold fold at h
    split_ifs at h with hwide hdots hnothing
    · have hnarrow : ∀ n < 0x7f, fold (Char.ofNat n).toLower = [(Char.ofNat n).toLower] := by decide
      rw [List.mem_singleton.1 h]
      exact hnarrow _ (by omega)
    · rw [List.mem_singleton.1 h]
      decide
    · cases h
    · have hne {e : Char} (he : c ≠ e) : c.toNat ≠ e.toNat := fun heq => he (Char.toNat_inj.1 heq)
      simp only [not_or] at hdots hnothing
      obtain ⟨hsoft, hspace, hjoiner, hmark⟩ := hnothing
      exact absurd (isUsual_iff.2 ⟨hwide, hne hdots.1, hne hdots.2.2, hne hsoft, hne hspace,
        hne hjoiner, hne hmark⟩) husual

/-- All characters count as themselves. -/
def IsFolded (cs : List Char) : Prop := ∀ c ∈ cs, fold c = [c]

theorem flatMap_fold {cs : List Char} (h : IsFolded cs) : cs.flatMap fold = cs := by
  induction cs with
  | nil => rfl
  | cons c cs ih =>
    obtain ⟨hc, hcs⟩ := List.forall_mem_cons.1 h
    rw [List.flatMap_cons, hc, ih hcs, List.singleton_append]

theorem isFolded_flatMap (cs : List Char) : IsFolded (cs.flatMap fold) := by
  intro d hd
  obtain ⟨c, -, hd⟩ := List.mem_flatMap.1 hd
  exact fold_of_mem_fold hd

end Fold

/-! ### Labels -/

section Label

variable {cs : List Char}

theorem label_ascii (h : ∀ c ∈ cs, c.toNat < 0x80) : label cs = cs :=
  if_pos (List.all_eq_true.2 fun c hc => decide_eq_true (h c hc))

/-- The characters of a label in ASCII: those that it had, hyphens, and digits of two kinds. -/
theorem mem_label {c : Char} (h : c ∈ label cs) :
    c ∈ cs ∧ c.toNat < 0x80 ∨ c = '-' ∨ ∃ d < 36, c = Punycode.digit d := by
  unfold label at h
  split_ifs at h with hascii
  · exact .inl ⟨h, by simpa using List.all_eq_true.1 hascii c h⟩
  · simp only [List.mem_cons] at h
    rcases h with rfl | rfl | rfl | rfl | h
    · exact .inr (.inr ⟨23, by decide, rfl⟩)
    · exact .inr (.inr ⟨13, by decide, rfl⟩)
    · exact .inr (.inl rfl)
    · exact .inr (.inl rfl)
    · exact Punycode.mem_encode h

theorem toNat_lt_of_mem_label {c : Char} (h : c ∈ label cs) : c.toNat < 0x80 := by
  have hdigit : ∀ d < 36, (Punycode.digit d).toNat < 0x80 := by decide
  rcases mem_label h with ⟨-, hc⟩ | rfl | ⟨d, hd, rfl⟩
  · exact hc
  · decide
  · exact hdigit d hd

theorem isFolded_label (h : IsFolded cs) : IsFolded (label cs) := by
  intro c hc
  have hdigit : ∀ d < 36, fold (Punycode.digit d) = [Punycode.digit d] := by decide
  rcases mem_label hc with ⟨hc, -⟩ | rfl | ⟨d, hd, rfl⟩
  · exact h c hc
  · decide
  · exact hdigit d hd

theorem dot_not_mem_label (h : '.' ∉ cs) : '.' ∉ label cs := by
  intro hc
  have hdigit : ∀ d < 36, '.' ≠ Punycode.digit d := by decide
  rcases mem_label hc with ⟨hc, -⟩ | heq | ⟨d, hd, heq⟩
  · exact h hc
  · exact absurd heq (by decide)
  · exact hdigit d hd heq

/-- **A label that can be one of a domain is one in ASCII.** -/
theorem isLabel_label (hfolded : IsFolded cs) (h : isLabel cs = true) :
    isLabel (label cs) = true := by
  by_cases hascii : cs.all (·.toNat < 0x80) = true
  · rwa [label, if_pos hascii]
  · have hcontrol : cs.any isHighControl = false := by
      unfold isLabel at h
      split at h
      · -- what has the mark is in ASCII, as it would be written
        next written =>
        obtain ⟨ds, -, hds⟩ := (Option.any_eq_true _ _).1 h
        simp only [Bool.and_eq_true, decide_eq_true_eq] at hds
        rw [← hds.2, List.all_eq_true] at hascii
        exact absurd (fun c hc => decide_eq_true (toNat_lt_of_mem_label hc)) hascii
      · simpa using h
    rw [label, if_neg hascii]
    show isWritten ('x' :: 'n' :: '-' :: '-' :: Punycode.encode cs) (Punycode.encode cs) = true
    rw [isWritten, Punycode.decode?_encode, Option.any_some, hcontrol, flatMap_fold hfolded, label,
      if_neg hascii]
    simp

end Label

/-! ### Domains -/

section Domain

variable {cs domain : List Char}

/-- A domain in its written form. -/
structure IsDomain (cs : List Char) : Prop where
  nonempty : cs ≠ []
  plain : ∀ c ∈ cs, c.toNat < 0x80 ∧ isForbidden c = false ∧ fold c = [c]
  read : domain? cs = some cs

/-- A text whose characters count as themselves and whose parts are labels in ASCII is a domain. -/
theorem isDomain_of_labels (hne : cs ≠ [])
    (h : ∀ c ∈ cs, c.toNat < 0x80 ∧ isForbidden c = false ∧ fold c = [c])
    (hlabels : ∀ l ∈ cs.splitOn '.', isLabel l = true) : IsDomain cs := by
  refine ⟨hne, h, ?_⟩
  have hfold : cs.flatMap fold = cs := flatMap_fold fun c hc => (h c hc).2.2
  have hmap : (cs.splitOn '.').map label = cs.splitOn '.' := by
    refine (List.map_congr_left fun l hl => ?_).trans (List.map_id _)
    exact label_ascii fun c hc => (h c (Split.mem_of_mem_splitOn hl hc)).1
  have hforbidden : cs.any isForbidden = false := by
    rw [List.any_eq_false]
    exact fun c hc => by rw [(h c hc).2.1]; decide
  have hall : (cs.splitOn '.').all isLabel = true := List.all_eq_true.2 hlabels
  simp only [domain?, hfold, hmap, List.intercalate_splitOn, hforbidden, hall]
  simp [hne]

/-- **A domain that was read is in its written form.** -/
theorem isDomain_of_domain? (h : domain? cs = some domain) : IsDomain domain := by
  unfold domain? at h
  extract_lets labels text at h
  have hfolded : ∀ l ∈ labels, IsFolded l := fun l hl c hc =>
    isFolded_flatMap cs c (Split.mem_of_mem_splitOn hl hc)
  split_ifs at h with hbad
  obtain ⟨hne, hforbidden, hlabels⟩ := not_or.1 hbad |>.imp_right not_or.1
  obtain rfl := Option.some.inj h
  have hlabel (c : Char) (hc : c ∈ text) : c = '.' ∨ ∃ l ∈ labels, c ∈ label l := by
    rcases Split.mem_intercalate hc with rfl | ⟨part, hpart, hc⟩
    · exact .inl rfl
    · obtain ⟨l, hl, rfl⟩ := List.mem_map.1 hpart
      exact .inr ⟨l, hl, hc⟩
  have hchars : ∀ c ∈ text, c.toNat < 0x80 ∧ isForbidden c = false ∧ fold c = [c] := by
    intro c hc
    have hplain : isForbidden c = false := by
      simpa using fun h => hforbidden (List.any_eq_true.2 ⟨c, hc, h⟩)
    rcases hlabel c hc with rfl | ⟨l, hl, hc⟩
    · exact ⟨by decide, hplain, by decide⟩
    · exact ⟨toNat_lt_of_mem_label hc, hplain, isFolded_label (hfolded l hl) c hc⟩
  have hsplit : text.splitOn '.' = labels.map label := by
    refine List.splitOn_intercalate '.' (fun part hpart => ?_) ?_
    · obtain ⟨l, hl, rfl⟩ := List.mem_map.1 hpart
      exact dot_not_mem_label (Split.not_mem_of_mem_splitOn hl)
    · rw [ne_eq, List.map_eq_nil_iff]
      exact List.splitOn_ne_nil _ _
  refine isDomain_of_labels hne hchars fun part hpart => ?_
  rw [hsplit] at hpart
  obtain ⟨l, hl, rfl⟩ := List.mem_map.1 hpart
  refine isLabel_label (hfolded l hl) ?_
  simp only [Bool.not_eq_true', Bool.not_eq_false] at hlabels
  exact List.all_eq_true.1 hlabels l hl

end Domain

/-! ### Hosts -/

/-- A host that a URL can hold: no other part begins in it, and a port behind it is told apart from
it. -/
structure IsText (cs : List Char) : Prop where
  plain : ∀ c ∈ cs, IsInner c ∧ c ≠ '/' ∧ c ≠ '\\' ∧ c ≠ '@'
  alone : splitPort false cs = (cs, none)
  port : ∀ digits, splitPort false (cs ++ ':' :: digits) = (cs, some digits)

section Text

variable {cs body : List Char}

theorem splitPort_append (h : ∀ c ∈ cs, c ≠ ':' ∧ c ≠ '[') (rest : List Char) :
    splitPort false (cs ++ rest) = (cs ++ (splitPort false rest).1, (splitPort false rest).2) := by
  induction cs with
  | nil => rfl
  | cons c cs ih =>
    obtain ⟨⟨hcolon, hbracket⟩, hcs⟩ := List.forall_mem_cons.1 h
    rw [List.cons_append, splitPort, if_neg (by simp [hcolon]), if_neg hbracket, ite_self, ih hcs]
    rfl

theorem splitPort_brackets (h : ∀ c ∈ body, c ≠ '[' ∧ c ≠ ']') (rest : List Char) :
    splitPort true (body ++ ']' :: rest) =
      (body ++ ']' :: (splitPort false rest).1, (splitPort false rest).2) := by
  induction body with
  | nil => rfl
  | cons c body ih =>
    obtain ⟨⟨hopen, hclose⟩, hbody⟩ := List.forall_mem_cons.1 h
    rw [List.cons_append, splitPort, if_neg (by simp), if_neg hopen, if_neg hclose, ih hbody]
    rfl

theorem isText_of_forall (hplain : ∀ c ∈ cs, IsInner c ∧ c ≠ '/' ∧ c ≠ '\\' ∧ c ≠ '@')
    (hport : ∀ c ∈ cs, c ≠ ':' ∧ c ≠ '[') : IsText cs := by
  refine ⟨hplain, ?_, fun digits => ?_⟩
  · have := splitPort_append hport []
    rwa [List.append_nil, splitPort, List.append_nil] at this
  · rw [splitPort_append hport, splitPort, if_pos (by decide), List.append_nil]

/-- Digits and colons are no other part of a URL, and no brackets. -/
theorem plain_of_hex {c : Char} (h : isDigitOf 16 c = true ∨ c = ':') :
    (IsInner c ∧ c ≠ '/' ∧ c ≠ '\\' ∧ c ≠ '@') ∧ c ≠ '[' ∧ c ≠ ']' := by
  by_cases hascii : c.toNat < 0x80
  · exact Case.forall_ascii (p := fun c => isDigitOf 16 c = true ∨ c = ':' →
      (IsInner c ∧ c ≠ '/' ∧ c ≠ '\\' ∧ c ≠ '@') ∧ c ≠ '[' ∧ c ≠ ']')
      (by decide) hascii h
  · have hne {d : Char} (hd : d.toNat < 0x80) : c ≠ d := fun heq => hascii (heq ▸ hd)
    refine ⟨⟨⟨by omega, ?_, ?_⟩, ?_, ?_, ?_⟩, ?_, ?_⟩ <;> exact hne (by decide)

theorem isText_brackets (h : ∀ c ∈ body, isDigitOf 16 c = true ∨ c = ':') :
    IsText ('[' :: (body ++ [']'])) := by
  have hsplit (rest : List Char) : splitPort false ('[' :: (body ++ ']' :: rest)) =
      ('[' :: (body ++ ']' :: (splitPort false rest).1), (splitPort false rest).2) := by
    rw [splitPort, if_neg (by decide), if_pos rfl,
      splitPort_brackets fun c hc => (plain_of_hex (h c hc)).2]
  refine ⟨fun c hc => ?_, hsplit [], fun digits => ?_⟩
  · simp only [List.mem_cons, List.mem_append, List.not_mem_nil, or_false] at hc
    rcases hc with rfl | hc | rfl
    · decide
    · exact (plain_of_hex (h c hc)).1
    · decide
  · have hport : splitPort false (':' :: digits) = ([], some digits) := if_pos (by decide)
    have := hsplit (':' :: digits)
    rw [hport] at this
    simpa using this

/-- What a domain can hold is no other part of a URL. -/
theorem plain_of_isForbidden {c : Char} (h : isForbidden c = false) :
    (IsInner c ∧ c ≠ '/' ∧ c ≠ '\\' ∧ c ≠ '@') ∧ c ≠ ':' ∧ c ≠ '[' := by
  have hne {d : Char} (hd : isForbidden d = true) : c ≠ d := by
    rintro rfl
    rw [h] at hd
    cases hd
  refine ⟨⟨⟨?_, ?_, ?_⟩, ?_, ?_, ?_⟩, ?_, ?_⟩
  · simp only [isForbidden, Bool.or_eq_false_iff, decide_eq_false_iff_not] at h
    omega
  all_goals exact hne (by decide)

theorem IsDomain.isText (h : IsDomain cs) : IsText cs :=
  isText_of_forall (fun c hc => (plain_of_isForbidden (h.plain c hc).2.1).1)
    fun c hc => (plain_of_isForbidden (h.plain c hc).2.1).2

end Text

section Read

variable {cs : List Char} {host : String}

theorem parse?_of_isDomain (h : IsDomain cs) : parse? cs =
    if endsInNumber cs then ipv4? cs else some (String.ofList cs) := by
  have hne {d : Char} (hd : isForbidden d = true) : d ∉ cs := by
    intro hmem
    rw [(h.plain d hmem).2.1] at hd
    cases hd
  have hsign : 0x25 ∉ cs.flatMap String.utf8EncodeChar := by
    intro hmem
    obtain ⟨c, hc, hb⟩ := List.mem_flatMap.1 hmem
    have hascii := (h.plain c hc).1
    rw [Utf8.utf8EncodeChar_of_lt hascii, List.mem_singleton, ← UInt8.toNat_inj,
      Utf8.toNat_ofNat (by omega)] at hb
    obtain rfl : c = '%' := Char.toNat_inj.1 hb.symm
    exact hne (by decide) hc
  unfold parse?
  split
  · exact absurd List.mem_cons_self (hne (by decide))
  · rw [Percent.decode_of_not_mem hsign, ← Utf8.encode_ofList, Utf8.decode?_encode]
    simp only [Option.bind_eq_bind, Option.bind_some, String.toList_ofList, h.read]
    rfl

theorem isLabel_of_isDigit (h : ∀ c ∈ cs, c.isDigit = true) : isLabel cs = true := by
  unfold isLabel
  split
  · exact absurd (h 'x' List.mem_cons_self) (by decide)
  · rw [Bool.not_eq_true', List.any_eq_false]
    intro c hc
    have hbound : c.toNat ≤ 57 := (Char.isDigit_iff_toNat.1 (h c hc)).2
    simp only [isHighControl, Bool.and_eq_true, decide_eq_true_eq]
    omega

/-- What stands in the text of four bytes. -/
theorem plain_of_digit {c : Char} (h : c.isDigit = true ∨ c = '.') :
    c.toNat < 0x80 ∧ isForbidden c = false ∧ fold c = [c] := by
  have hascii : c.toNat < 0x80 := by
    rcases h with h | rfl
    · exact (show c.toNat ≤ 57 from (Char.isDigit_iff_toNat.1 h).2).trans_lt (by decide)
    · decide
  exact Case.forall_ascii (p := fun c => c.isDigit = true ∨ c = '.' →
    c.toNat < 0x80 ∧ isForbidden c = false ∧ fold c = [c]) (by decide) hascii h

theorem isDomain_ipv4Text (n : Nat) : IsDomain (ipv4Text n).toList := by
  refine isDomain_of_labels (fun hnil => ?_) (fun c hc => plain_of_digit (mem_ipv4Text hc)) ?_
  · have := splitOn_ipv4Text n
    rw [hnil] at this
    simp [bytesOf] at this
  · intro l hl
    rw [splitOn_ipv4Text] at hl
    obtain ⟨k, -, rfl⟩ := List.mem_map.1 hl
    exact isLabel_of_isDigit Decimal.isDigit_of_mem_toDigits

theorem IsDomain.ne_empty (h : IsDomain host.toList) : host ≠ "" :=
  fun hempty => h.nonempty (String.toList_eq_nil_iff.2 hempty)

/-- **A host is read back.** -/
theorem parse?_text (h : parse? cs = some host) :
    parse? host.toList = some host ∧ IsText host.toList ∧ host ≠ "" := by
  unfold parse? at h
  split at h
  · obtain ⟨body, hbody, hread, hchars⟩ := bracketed?_text h
    refine ⟨?_, hbody ▸ isText_brackets hchars, ?_⟩
    · rw [hbody]
      exact hread
    · rintro rfl
      cases hbody
  · obtain ⟨text, -, h⟩ := Option.bind_eq_some_iff.1 h
    obtain ⟨domain, hdomain, h⟩ := Option.bind_eq_some_iff.1 h
    split_ifs at h with hnumber
    · obtain ⟨numbers, -, h⟩ := Option.bind_eq_some_iff.1 h
      obtain ⟨n, -, h⟩ := Option.bind_eq_some_iff.1 h
      obtain rfl : ipv4Text n = host := Option.some.inj h
      have hdomain := isDomain_ipv4Text n
      refine ⟨?_, hdomain.isText, hdomain.ne_empty⟩
      rw [parse?_of_isDomain hdomain, endsInNumber_ipv4Text, if_pos rfl, ipv4?_text]
    · have hdomain := isDomain_of_domain? hdomain
      obtain rfl : String.ofList domain = host := Option.some.inj h
      rw [← String.toList_ofList (l := domain)] at hdomain hnumber
      refine ⟨?_, hdomain.isText, hdomain.ne_empty⟩
      rw [parse?_of_isDomain hdomain, if_neg hnumber, String.ofList_toList]

/-- What is written of a host of an unknown scheme need not be encoded again, and can be held. -/
theorem plain_unknown (h : ∀ c ∈ cs, isForbiddenUnknown c = false) :
    ∀ c ∈ Percent.encodeChars Percent.isControl cs, isForbiddenUnknown c = false := by
  intro c hc
  have hdigit : ∀ n < 16, isForbiddenUnknown (Percent.digit n) = false := by decide
  rcases Percent.mem_encodeChars hc with ⟨-, hc⟩ | rfl | ⟨n, hn, rfl⟩
  · exact h c hc
  · decide
  · exact hdigit n hn

theorem isText_unknown (hcontrol : Percent.IsPlain Percent.isControl cs)
    (h : ∀ c ∈ cs, isForbiddenUnknown c = false) : IsText cs := by
  have hne {c d : Char} (hc : c ∈ cs) (hd : isForbiddenUnknown d = true) : c ≠ d := by
    rintro rfl
    rw [h c hc] at hd
    cases hd
  refine isText_of_forall (fun c hc => ⟨⟨?_, ?_, ?_⟩, ?_, ?_, ?_⟩) fun c hc => ⟨?_, ?_⟩
  · have hcontrol := (hcontrol c hc).2
    have hspace : c.toNat ≠ 0x20 := fun heq => hne hc (d := ' ') (by decide) (Char.toNat_inj.1 heq)
    simp only [Percent.isControl, Bool.or_eq_false_iff, decide_eq_false_iff_not] at hcontrol
    omega
  all_goals exact hne hc (by decide)

theorem parseUnknown?_of_plain (hcontrol : Percent.IsPlain Percent.isControl cs)
    (h : ∀ c ∈ cs, isForbiddenUnknown c = false) : parseUnknown? cs = some (String.ofList cs) := by
  unfold parseUnknown?
  split
  · exact absurd (h '[' List.mem_cons_self) (by decide)
  · rw [if_neg, Percent.encodeChars_of_isPlain hcontrol]
    simpa using h

/-- **A host of an unknown scheme is read back.** It is empty if nothing was read. -/
theorem parseUnknown?_text (h : parseUnknown? cs = some host) :
    parseUnknown? host.toList = some host ∧ IsText host.toList ∧ (host = "" → cs = []) := by
  unfold parseUnknown? at h
  split at h
  · obtain ⟨body, hbody, hread, hchars⟩ := bracketed?_text h
    refine ⟨?_, hbody ▸ isText_brackets hchars, ?_⟩
    · rw [hbody]
      exact hread
    · rintro rfl
      cases hbody
  · split_ifs at h with hforbidden
    obtain rfl := Option.some.inj h
    have hcontrol : Percent.IsPlain Percent.isControl (Percent.encodeChars Percent.isControl cs) :=
      Percent.isPlain_encodeChars (by decide) (by decide) cs
    have hplain := plain_unknown (by simpa using hforbidden)
    refine ⟨?_, ?_, fun hempty => ?_⟩
    · rw [String.toList_ofList]
      exact parseUnknown?_of_plain hcontrol hplain
    · rw [String.toList_ofList]
      exact isText_unknown hcontrol hplain
    · rwa [String.ofList_eq_empty_iff, Percent.encodeChars_eq_nil] at hempty

end Read

end LedgerBridge.Url.Host
