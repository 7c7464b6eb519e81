import LedgerBridge.Proofs.Text.Blank
import LedgerBridge.Proofs.Text.Decimal
import LedgerBridge.Settings.Duration

/-!
# What durations spell

* `Duration.Spells s n u`: between blanks the text has digits with the value `n` and the name of the
  unit `u`, and blanks between the two;
* `Duration.parse_eq_ok_iff`: the texts that are read as durations are those, with numbers of 64
  bits;
* `Duration.parse_text`: a duration that was read is written in a form that is read as the same one.
-/

namespace LedgerBridge.Settings.Duration

/-- The units of durations. -/
inductive TimeUnit where
  | millisecond
  | second
  | minute
  deriving DecidableEq

namespace TimeUnit

/-- How a unit is written. -/
def name : TimeUnit → String
  | millisecond => "ms"
  | second => "s"
  | minute => "min"

/-- The length of a unit. -/
def nanoseconds : TimeUnit → Nat
  | millisecond => 1000000
  | second => 1000000000
  | minute => 60000000000

/-- So many of a unit, as they are counted in 64 bits. -/
def times (n : Nat) : TimeUnit → Duration
  | millisecond => ofMilliseconds n
  | second => ofSeconds n
  | minute => ofSeconds (n * 60 % UInt64.size)

/-- The greatest number of minutes whose seconds have 64 bits. -/
def greatestMinutes : Nat := 307445734561825860

theorem times_eq {n : Nat} {u : TimeUnit} (h : u = minute → n ≤ greatestMinutes) :
    u.times n = ⟨n * u.nanoseconds⟩ := by
  cases u with
  | millisecond => rfl
  | second => rfl
  | minute =>
    have hn : n * 60 < UInt64.size := by
      have := h rfl
      simp only [greatestMinutes, UInt64.size] at this ⊢
      omega
    rw [times, Nat.mod_eq_of_lt hn, ofSeconds, nanoseconds, Nat.mul_assoc]

end TimeUnit

/-- A number and a unit stand in the text, with blanks around them and between them. -/
def Spells (s : String) (n : Nat) (u : TimeUnit) : Prop :=
  ∃ front digits gap back, s.toList = front ++ (digits ++ gap ++ u.name.toList) ++ back ∧
    (∀ c ∈ front ++ gap ++ back, Blank.isBlank c = true) ∧
    digits ≠ [] ∧ (∀ c ∈ digits, c.isDigit = true) ∧ n = Nat.ofDigitChars 10 digits 0

/-! ### Numbers and units -/

theorem number?_eq_some_iff {digits : List Char} {n : Nat} : number? digits = some n ↔
    digits ≠ [] ∧ n = Nat.ofDigitChars 10 digits 0 ∧ n < UInt64.size := by
  unfold number?
  simp only [Decimal.foldl_eq_ofDigitChars]
  by_cases hdigits : digits = []
  · simp [hdigits]
  · by_cases hsize : Nat.ofDigitChars 10 digits 0 < UInt64.size
    · simp only [hdigits, hsize, if_false, if_true, Option.some.injEq, ne_eq, not_false_eq_true,
        true_and]
      exact ⟨fun h => h ▸ ⟨rfl, hsize⟩, fun h => h.1.symm⟩
    · simp only [hdigits, hsize, if_false, reduceCtorEq, ne_eq, not_false_eq_true, true_and,
        false_iff, not_and]
      rintro rfl
      exact hsize

theorem ofUnit?_eq_some_iff {n : Nat} {unit : String} {d : Duration} :
    ofUnit? n unit = some d ↔ ∃ u : TimeUnit, unit = u.name ∧ d = u.times n := by
  constructor
  · intro h
    unfold ofUnit? at h
    split_ifs at h with hms hs hmin
    · exact ⟨.millisecond, hms, (Option.some.inj h).symm⟩
    · exact ⟨.second, hs, (Option.some.inj h).symm⟩
    · exact ⟨.minute, hmin, (Option.some.inj h).symm⟩
  · rintro ⟨u, rfl, rfl⟩
    cases u <;> rfl

theorem isBlank_of_isDigit {c : Char} (h : c.isDigit = true) : Blank.isBlank c = false := by
  have hbounds : 48 ≤ c.toNat ∧ c.toNat ≤ 57 := Char.isDigit_iff_toNat.1 h
  simp only [Blank.isBlank, Bool.or_eq_false_iff, Bool.and_eq_false_iff, decide_eq_false_iff_not]
  omega

/-- The name of a unit starts with a letter, and ends in one. -/
theorem exists_letters (u : TimeUnit) : (∃ c r, u.name.toList = c :: r ∧ c.isDigit = false) ∧
    Blank.Stripped Blank.isBlank u.name.toList ∧ u.name.toList ≠ [] := by
  refine ⟨?_, ?_, ?_⟩
  · cases u <;> exact ⟨_, _, rfl, rfl⟩
  · intro c h
    cases u <;> simp [TimeUnit.name] at h <;> rcases h with rfl | rfl <;> rfl
  · cases u <;> simp [TimeUnit.name]

/-! ### Reading -/

section Reading

variable {s : String} {d : Duration}

/-- Digits in front of something else, and what is behind them. -/
theorem span_digits {digits rest : List Char} (hdigits : ∀ c ∈ digits, c.isDigit = true)
    (hrest : ∀ c, rest.head? = some c → c.isDigit = false) :
    (digits ++ rest).takeWhile Char.isDigit = digits ∧
      (digits ++ rest).dropWhile Char.isDigit = rest := by
  have hstop : rest.takeWhile Char.isDigit = [] ∧ rest.dropWhile Char.isDigit = rest := by
    cases rest with
    | nil => exact ⟨rfl, rfl⟩
    | cons c rest => simp [hrest c rfl]
  rw [List.takeWhile_append_of_pos hdigits, List.dropWhile_append_of_pos hdigits, hstop.1, hstop.2]
  simp

theorem parse_of_spells {n : Nat} {u : TimeUnit} (h : Spells s n u) (hn : n < UInt64.size) :
    parse s = .ok (u.times n) := by
  obtain ⟨front, digits, gap, back, hs, hblank, hne, hdigits, rfl⟩ := h
  obtain ⟨⟨first, name, hname, hfirst⟩, hunit, hunitNe⟩ := exists_letters u
  simp only [List.mem_append, or_assoc] at hblank
  have hcore : Blank.Stripped Blank.isBlank (digits ++ gap ++ u.name.toList) := by
    intro c hc
    rcases hc with hc | hc
    · rw [List.append_assoc, List.head?_append_of_ne_nil _ hne] at hc
      exact isBlank_of_isDigit (hdigits c (List.mem_of_mem_head? hc))
    · rw [List.getLast?_append_of_ne_nil _ hunitNe] at hc
      exact hunit c (.inr hc)
  have htrim : Blank.trimChars s.toList = digits ++ (gap ++ u.name.toList) := by
    rw [Blank.trimChars_eq_strip, hs, Blank.strip_append (fun c hc => hblank c (.inl hc))
      (fun c hc => hblank c (.inr (.inr hc))) hcore, List.append_assoc]
  have hrest : ∀ c, (gap ++ u.name.toList).head? = some c → c.isDigit = false := by
    intro c hc
    cases gap with
    | nil =>
      rw [List.nil_append, hname, List.head?_cons, Option.some.injEq] at hc
      rw [← hc, hfirst]
    | cons b gap =>
      rw [List.cons_append, List.head?_cons, Option.some.injEq] at hc
      have hb := hblank b (.inr (.inl List.mem_cons_self))
      rw [Bool.eq_false_iff]
      intro hdigit
      rw [hc, isBlank_of_isDigit hdigit] at hb
      cases hb
  obtain ⟨htake, hdrop⟩ := span_digits hdigits hrest
  have hunitText : Blank.trimChars (gap ++ u.name.toList) = u.name.toList := by
    rw [Blank.trimChars_eq_strip, Blank.strip_eq_iff]
    refine ⟨hunit, gap, [], fun c hc => hblank c (.inr (.inl hc)), ?_, ?_⟩
    · exact fun c hc => absurd hc List.not_mem_nil
    · rw [List.append_nil]
  have hnumber : number? digits = some (Nat.ofDigitChars 10 digits 0) :=
    number?_eq_some_iff.2 ⟨hne, rfl, hn⟩
  have hofUnit : ofUnit? (Nat.ofDigitChars 10 digits 0) (String.ofList u.name.toList) =
      some (u.times (Nat.ofDigitChars 10 digits 0)) :=
    ofUnit?_eq_some_iff.2 ⟨u, String.ofList_toList, rfl⟩
  have hsuffix : gap ++ u.name.toList ≠ [] := by
    rw [hname]
    simp
  simp only [parse, parseTrimmed, htrim, htake, hdrop, if_neg hsuffix, hnumber, hunitText, hofUnit]

/-- The parts of a trimmed text, of which the unit is what is left of the last one. -/
theorem exists_gap {core digits suffix : List Char} {u : TimeUnit}
    (hcore : Blank.Stripped Blank.isBlank core) (hsplit : core = digits ++ suffix)
    (hunit : Blank.strip Blank.isBlank suffix = u.name.toList) :
    ∃ gap, (∀ c ∈ gap, Blank.isBlank c = true) ∧ core = digits ++ gap ++ u.name.toList := by
  obtain ⟨gap, rear, hgap, hrear, hparts⟩ := Blank.exists_append_strip Blank.isBlank suffix
  rw [hunit] at hparts
  refine ⟨gap, hgap, ?_⟩
  rcases List.eq_nil_or_concat rear with rfl | ⟨rear', c, rfl⟩
  · rw [hsplit, hparts, List.append_nil, List.append_assoc]
  · have hlast : core.getLast? = some c := by
      rw [hsplit, hparts]
      simp
    have hblank := hrear c (by simp)
    rw [hcore c (.inr hlast)] at hblank
    cases hblank

theorem exists_of_parseTrimmed {core : List Char} (hcore : Blank.Stripped Blank.isBlank core)
    (h : parseTrimmed core = .ok d) : ∃ n, ∃ u : TimeUnit, ∃ digits gap,
      core = digits ++ gap ++ u.name.toList ∧ (∀ c ∈ gap, Blank.isBlank c = true) ∧
      digits ≠ [] ∧ (∀ c ∈ digits, c.isDigit = true) ∧
      n = Nat.ofDigitChars 10 digits 0 ∧ n < UInt64.size ∧ d = u.times n := by
  unfold parseTrimmed at h
  extract_lets digits suffix at h
  split_ifs at h with hempty
  cases hn : number? digits with
  | none =>
    rw [hn] at h
    cases h
  | some n =>
    rw [hn] at h
    cases hd : ofUnit? n (String.ofList (Blank.trimChars suffix)) with
    | none =>
      simp only [hd] at h
      cases h
    | some d' =>
      simp only [hd, Except.ok.injEq] at h
      obtain ⟨hne, hvalue, hsize⟩ := number?_eq_some_iff.1 hn
      obtain ⟨u, hu, hd'⟩ := ofUnit?_eq_some_iff.1 hd
      obtain ⟨gap, hgap, hparts⟩ := exists_gap hcore List.takeWhile_append_dropWhile.symm
        (by rw [← hu, String.toList_ofList, Blank.trimChars_eq_strip])
      exact ⟨n, u, digits, gap, hparts, hgap, hne, fun c hc => List.mem_takeWhile_imp hc, hvalue,
        hsize, h ▸ hd'⟩

theorem exists_spells_of_parse (h : parse s = .ok d) :
    ∃ n u, Spells s n u ∧ n < UInt64.size ∧ d = u.times n := by
  obtain ⟨front, back, hfront, hback, hs⟩ := Blank.exists_append_strip Blank.isBlank s.toList
  obtain ⟨n, u, digits, gap, hparts, hgap, hne, hdigits, hvalue, hsize, hd⟩ :=
    exists_of_parseTrimmed (Blank.stripped_strip Blank.isBlank s.toList) h
  rw [hparts] at hs
  refine ⟨n, u, ⟨front, digits, gap, back, hs, ?_, hne, hdigits, hvalue⟩, hsize, hd⟩
  intro c hc
  simp only [List.mem_append] at hc
  rcases hc with (hc | hc) | hc
  · exact hfront c hc
  · exact hgap c hc
  · exact hback c hc

/-- **The texts that are read as durations spell them.** -/
theorem parse_eq_ok_iff : parse s = .ok d ↔
    ∃ n u, Spells s n u ∧ n < UInt64.size ∧ d = u.times n := by
  constructor
  · exact exists_spells_of_parse
  · rintro ⟨n, u, hspells, hn, rfl⟩
    exact parse_of_spells hspells hn

end Reading

/-! ### Writing -/

/-- Digits and a unit without blanks. -/
theorem spells_written (n : Nat) (u : TimeUnit) : Spells (toString n ++ u.name) n u := by
  refine ⟨[], Nat.toDigits 10 n, [], [], ?_, by simp, Nat.toDigits_ne_nil, ?_, ?_⟩
  · simp only [String.toList_append, List.nil_append, List.append_nil]
    rw [Decimal.toList_toString]
  · exact Decimal.isDigit_of_mem_toDigits
  · rw [Nat.ofDigitChars_toDigits (by decide) le_rfl]

/-- A duration that 64 bits count: whole milliseconds or whole seconds. -/
def IsCounted (d : Duration) : Prop :=
  ∃ n < UInt64.size, d = ofMilliseconds n ∨ d = ofSeconds n

theorem isCounted_of_parse {s : String} {d : Duration} (h : parse s = .ok d) : IsCounted d := by
  obtain ⟨n, u, -, hn, rfl⟩ := parse_eq_ok_iff.1 h
  cases u with
  | millisecond => exact ⟨n, hn, .inl rfl⟩
  | second => exact ⟨n, hn, .inr rfl⟩
  | minute => exact ⟨_, Nat.mod_lt _ (by decide), .inr rfl⟩

/-- Whole seconds are written as such, and all else in milliseconds. -/
def WrittenAs (d : Duration) : Prop :=
  (∃ n < UInt64.size, d = ofSeconds n ∧ d.text = toString n ++ "s") ∨
    ((∀ n, d ≠ ofSeconds n) ∧ ∃ n < UInt64.size, d = ofMilliseconds n ∧ d.text = toString n ++ "ms")

theorem text_ofSeconds (n : Nat) : (ofSeconds n).text = toString n ++ "s" := by
  have hwhole : n * 1000000000 % 1000000000 = 0 := Nat.mul_mod_left n _
  have hback : n * 1000000000 / 1000000000 = n := Nat.mul_div_cancel n (by decide)
  simp only [text, ofSeconds, hwhole, if_true, seconds, hback]
  rfl

theorem text_ofMilliseconds {n : Nat} (h : n % 1000 ≠ 0) :
    (ofMilliseconds n).text = toString n ++ "ms" := by
  have hpart : n * 1000000 % 1000000000 ≠ 0 := by omega
  have hback : n * 1000000 / 1000000 = n := Nat.mul_div_cancel n (by decide)
  simp only [text, ofMilliseconds, hpart, if_false, milliseconds, hback]
  rfl

theorem writtenAs_of_isCounted {d : Duration} (h : IsCounted d) : WrittenAs d := by
  obtain ⟨n, hn, rfl | rfl⟩ := h
  · by_cases hwhole : n % 1000 = 0
    · have hseconds : ofMilliseconds n = ofSeconds (n / 1000) := by
        simp only [ofMilliseconds, ofSeconds, mk.injEq]
        omega
      refine .inl ⟨n / 1000, by omega, hseconds, ?_⟩
      rw [hseconds, text_ofSeconds]
    · refine .inr ⟨fun m hm => hwhole ?_, n, hn, rfl, text_ofMilliseconds hwhole⟩
      simp only [ofMilliseconds, ofSeconds, mk.injEq] at hm
      omega
  · exact .inl ⟨n, hn, rfl, text_ofSeconds n⟩

/-- **A duration is read back.** -/
theorem parse_text {d : Duration} (h : IsCounted d) : parse d.text = .ok d := by
  rcases writtenAs_of_isCounted h with ⟨n, hn, heq, htext⟩ | ⟨-, n, hn, heq, htext⟩
  · rw [htext, heq]
    exact parse_of_spells (spells_written n .second) hn
  · rw [htext, heq]
    exact parse_of_spells (spells_written n .millisecond) hn

/-- **Durations are read exactly, and read back.** A text is read if and only if it spells a number
of 64 bits and a unit, and then as so many of that unit, as far as the seconds of minutes have 64
bits. What was read is written in whole seconds if it is a number of them, and else in whole
milliseconds, and is read back from that. -/
theorem durations_exact (s : String) :
    ((∃ d, parse s = .ok d) ↔ ∃ n u, Spells s n u ∧ n < 2 ^ 64) ∧
    (∀ n u, Spells s n u → n < 2 ^ 64 → (u = .minute → n ≤ TimeUnit.greatestMinutes) →
      parse s = .ok ⟨n * u.nanoseconds⟩) ∧
    ∀ d, parse s = .ok d → WrittenAs d ∧ parse d.text = .ok d := by
  refine ⟨?_, fun n u hspells hn hminutes => ?_, fun d hd => ?_⟩
  · simp only [parse_eq_ok_iff]
    constructor
    · rintro ⟨d, n, u, hspells, hn, -⟩
      exact ⟨n, u, hspells, hn⟩
    · rintro ⟨n, u, hspells, hn⟩
      exact ⟨u.times n, n, u, hspells, hn, rfl⟩
  · rw [parse_of_spells hspells hn, TimeUnit.times_eq hminutes]
  · have hcounted := isCounted_of_parse hd
    exact ⟨writtenAs_of_isCounted hcounted, parse_text hcounted⟩

/-- The greatest number of minutes, between blanks. -/
theorem durations_exact_minutes :
    Spells " 307445734561825860\tmin\n" 307445734561825860 .minute ∧
      parse " 307445734561825860\tmin\n" = .ok ⟨18446744073709551600000000000⟩ ∧
      parse (Duration.text ⟨18446744073709551600000000000⟩) =
        .ok ⟨18446744073709551600000000000⟩ := by
  have hspells : Spells " 307445734561825860\tmin\n" 307445734561825860 .minute :=
    ⟨[' '], "307445734561825860".toList, ['\t'], ['\n'], rfl, List.all_eq_true.1 (by decide),
      by decide, List.all_eq_true.1 (by decide), by decide⟩
  obtain ⟨-, hread, hback⟩ := durations_exact " 307445734561825860\tmin\n"
  have hparse := hread 307445734561825860 .minute hspells (by decide) fun _ => le_rfl
  exact ⟨hspells, hparse, (hback _ hparse).2⟩

end LedgerBridge.Settings.Duration
