import LedgerBridge.Http.Cors
import LedgerBridge.Proofs.Text.Blank
import LedgerBridge.Proofs.Text.Split

/-!
# Allowed origins, normalized

* `Cors.IsEntry e`: a setting can list the text as an origin;
* `Cors.IsNormal c`: the setting lists only such texts. What was read is normal, and a normal
  setting is read back from its spelling;
* `OriginRule.Guards rule c`: the rule lets a browser do what the setting allows, and no more;
* `Cors.settings_normalized`: all of this for every text.
-/

namespace LedgerBridge

namespace Http.OriginRule

open Settings (Cors)

/-- The rule is that of the setting. The responses under the rule of a list allow listed origins
only, never all of them. -/
def Guards (rule : OriginRule) : Cors → Prop
  | .all => rule = .wildcard
  | .only origins => rule = .listed origins ∧ ∀ request value,
      ("access-control-allow-origin", value) ∈ rule.headers request → value ∈ origins ∧ value ≠ "*"

/-- The first listed origin that no header can hold. -/
def FirstInvalid (origins : List String) (o : String) : Prop :=
  ∃ before behind, origins = before ++ o :: behind ∧ isFieldValue o = false ∧
    ∀ e ∈ before, isFieldValue e = true

theorem mem_of_mem_headers {origins : List String} {request : Headers} {value : String}
    (h : ("access-control-allow-origin", value) ∈ (listed origins).headers request) :
    value ∈ origins := by
  simp only [headers, List.mem_cons, Prod.mk.injEq, Option.mem_toList, Option.map_eq_some_iff] at h
  rcases h with ⟨hname, -⟩ | ⟨origin, hallowed, -, rfl⟩
  · exact absurd hname (by decide)
  · simp only [allowed?, Option.filter_eq_some_iff, decide_eq_true_eq] at hallowed
    exact hallowed.2

/-- Where the wildcard is not listed, a list gives its rule, or its first invalid origin. -/
theorem ofList_cases {origins : List String} (h : "*" ∉ origins) :
    ofList origins = .ok (.listed origins) ∨
      ∃ o, FirstInvalid origins o ∧ ofList origins = .error (.invalid o) := by
  unfold ofList
  cases hfind : origins.find? (!isFieldValue ·) with
  | none => exact .inl (if_neg h)
  | some o =>
    obtain ⟨hinvalid, before, behind, heq, hbefore⟩ := List.find?_eq_some_iff_append.1 hfind
    exact .inr ⟨o, ⟨before, behind, heq, by simpa using hinvalid, by simpa using hbefore⟩, rfl⟩

end Http.OriginRule

namespace Settings.Cors

open Http (OriginRule)

/-- The parts of a text between commas, without the blanks around them. -/
def trimmedParts (s : String) : List String :=
  (s.toList.splitOn ',').map fun p => String.ofList (Blank.strip Blank.isBlank p)

/-- A setting can list the text: there is something in it, it holds no comma, and blanks only
inside, and it stands for one origin. -/
structure IsEntry (e : String) : Prop where
  nonempty : e ≠ ""
  noComma : ',' ∉ e.toList
  noBlanks : Blank.Stripped Blank.isBlank e.toList
  single : e ≠ "*" ∧ e ≠ "all"

/-- Only entries are listed. -/
def IsNormal : Cors → Prop
  | .all => True
  | .only origins => ∀ e ∈ origins, IsEntry e

/-! ### Reading -/

section Reading

variable {s e : String} {es : List String}

theorem entries_eq (s : String) : entries s = (trimmedParts s).filter (· ≠ "") := rfl

theorem mem_entries : e ∈ entries s ↔ e ∈ trimmedParts s ∧ e ≠ "" := by
  rw [entries_eq, List.mem_filter, decide_eq_true_eq]

theorem isWildcard_iff : isWildcard e = true ↔ e = "all" ∨ e = "*" := by
  simp only [isWildcard, Bool.or_eq_true, decide_eq_true_eq]

theorem parse_eq_all_iff : parse s = .all ↔ ∃ p ∈ trimmedParts s, p = "all" ∨ p = "*" := by
  have hany : (entries s).any isWildcard = true ↔ ∃ p ∈ trimmedParts s, p = "all" ∨ p = "*" := by
    simp only [List.any_eq_true, isWildcard_iff]
    constructor
    · rintro ⟨p, hp, hwildcard⟩
      exact ⟨p, (mem_entries.1 hp).1, hwildcard⟩
    · rintro ⟨p, hp, hwildcard⟩
      refine ⟨p, mem_entries.2 ⟨hp, ?_⟩, hwildcard⟩
      rintro rfl
      exact absurd hwildcard (by decide)
  rw [← hany]
  simp [parse]

theorem parse_of_ne_all (h : parse s ≠ .all) : parse s = .only (entries s) := by
  unfold parse at h ⊢
  by_cases hany : (entries s).any isWildcard = true
  · exact absurd (if_pos hany) h
  · exact if_neg hany

theorem isNormal_parse (s : String) : (parse s).IsNormal := by
  by_cases hall : parse s = .all
  · rw [hall]
    exact trivial
  · have hnone := mt parse_eq_all_iff.2 hall
    rw [parse_of_ne_all hall]
    intro e he
    obtain ⟨hpart, hne⟩ := mem_entries.1 he
    obtain ⟨p, hp, rfl⟩ := List.mem_map.1 hpart
    refine ⟨hne, ?_, ?_, ?_⟩
    · rw [String.toList_ofList]
      exact fun hcomma => Split.not_mem_of_mem_splitOn hp (Blank.mem_of_mem_strip hcomma)
    · rw [String.toList_ofList]
      exact Blank.stripped_strip _ _
    · exact ⟨fun heq => hnone ⟨_, hpart, .inr heq⟩, fun heq => hnone ⟨_, hpart, .inl heq⟩⟩

end Reading

/-! ### Reading back -/

theorem trimmedParts_intercalate {es : List String} (h : ∀ e ∈ es, IsEntry e) (hne : es ≠ []) :
    trimmedParts (",".intercalate es) = es := by
  have hplain : ∀ l ∈ es.map String.toList, ',' ∉ l := by
    intro l hl
    obtain ⟨e, he, rfl⟩ := List.mem_map.1 hl
    exact (h e he).noComma
  have hsplit : (",".intercalate es).toList.splitOn ',' = es.map String.toList := by
    rw [String.toList_intercalate]
    exact List.splitOn_intercalate ',' hplain (by simpa using hne)
  have htrim : ∀ e ∈ es, String.ofList (Blank.strip Blank.isBlank e.toList) = e := by
    intro e he
    rw [Blank.strip_of_stripped (h e he).noBlanks, String.ofList_toList]
  rw [trimmedParts, hsplit, List.map_map]
  exact (List.map_congr_left htrim).trans (List.map_id' es)

/-- **A normal setting is read back.** -/
theorem parse_text {c : Cors} (h : c.IsNormal) : parse c.text = c := by
  cases c with
  | all => exact parse_eq_all_iff.2 ⟨"*", by decide, .inr rfl⟩
  | only es =>
    by_cases hne : es = []
    · rw [hne]
      rfl
    have hparts : trimmedParts (text (.only es)) = es := trimmedParts_intercalate h hne
    have hone : parse (text (.only es)) ≠ .all := by
      rw [ne_eq, parse_eq_all_iff, hparts]
      rintro ⟨e, he, rfl | rfl⟩
      · exact (h _ he).single.2 rfl
      · exact (h _ he).single.1 rfl
    rw [parse_of_ne_all hone, entries_eq, hparts]
    congr 1
    rw [List.filter_eq_self]
    exact fun e he => decide_eq_true (h e he).nonempty

/-! ### Rules -/

/-- **A normal setting gives its rule, or its first invalid origin.** -/
theorem ofCors_cases {c : Cors} (h : c.IsNormal) :
    (∃ rule, OriginRule.ofCors c = .ok rule ∧ rule.Guards c) ∨
      ∃ origins o, c = .only origins ∧ OriginRule.FirstInvalid origins o ∧
        OriginRule.ofCors c = .error (.invalid o) := by
  cases c with
  | all => exact .inl ⟨.wildcard, rfl, rfl⟩
  | only origins =>
    have hone : "*" ∉ origins := fun hmem => (h _ hmem).single.1 rfl
    rcases OriginRule.ofList_cases hone with hok | ⟨o, hfirst, herror⟩
    · refine .inl ⟨.listed origins, hok, rfl, fun request value hvalue => ?_⟩
      have hmem := OriginRule.mem_of_mem_headers hvalue
      exact ⟨hmem, fun heq => hone (heq ▸ hmem)⟩
    · exact .inr ⟨origins, o, rfl, hfirst, herror⟩

/-- **Settings are normalized, read back, and made into rules.** A text allows all origins if and
only if one of its trimmed parts says so, and else lists its trimmed parts that are not empty, which
are entries all. The setting is read back from its spelling. It gives the rule that guards it, or
its first origin that is invalid is reported: the wildcard is never listed. -/
theorem settings_normalized (s : String) :
    (parse s = .all ↔ ∃ p ∈ trimmedParts s, p = "all" ∨ p = "*") ∧
    (parse s ≠ .all → parse s = .only ((trimmedParts s).filter (· ≠ "")) ∧
      ∀ e ∈ (trimmedParts s).filter (· ≠ ""), IsEntry e) ∧
    parse (parse s).text = parse s ∧
    ((∃ rule, OriginRule.ofCors (parse s) = .ok rule ∧ rule.Guards (parse s)) ∨
      ∃ origins o, parse s = .only origins ∧ OriginRule.FirstInvalid origins o ∧
        OriginRule.ofCors (parse s) = .error (.invalid o)) := by
  have hnormal := isNormal_parse s
  refine ⟨parse_eq_all_iff, fun hall => ?_, parse_text hnormal, ofCors_cases hnormal⟩
  have hlist := parse_of_ne_all hall
  rw [hlist] at hnormal
  exact ⟨hlist, hnormal⟩

/-- Two origins, and something empty between them. -/
theorem settings_normalized_two :
    parse " https://a , ,http://b" ≠ .all ∧
      parse " https://a , ,http://b" = .only ["https://a", "http://b"] ∧
      parse "https://a,http://b" = .only ["https://a", "http://b"] := by
  have hne : parse " https://a , ,http://b" ≠ .all := by decide
  obtain ⟨-, hlist, hback, -⟩ := settings_normalized " https://a , ,http://b"
  have hparse : parse " https://a , ,http://b" = .only ["https://a", "http://b"] := (hlist hne).1
  rw [hparse] at hback
  exact ⟨hne, hparse, hback⟩

end Settings.Cors

end LedgerBridge
