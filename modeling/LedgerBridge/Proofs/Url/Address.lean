import Mathlib.Data.List.TakeWhile
import LedgerBridge.Proofs.Except
import LedgerBridge.Proofs.Text.Decimal
import LedgerBridge.Proofs.Text.Split
import LedgerBridge.Url.Host

/-!
# Addresses read back

* `ipv4?_text`: an address of four bytes is read back from its text;
* `bracketed?_text`: so is one of eight pieces, whichever run of zeros is left out of it;
* `length_ipv6Pieces?`: what is read in brackets is eight pieces of sixteen bits each.
-/

namespace LedgerBridge.Url.Host

/-! ### Digits -/

section Digits

variable {b n : Nat}

theorem digitValue_digitChar {d : Nat} (h : d < 16) : digitValue (Nat.digitChar d) = d := by
  interval_cases d <;> rfl

theorem isDigitOf_digitChar {d : Nat} (hb : b ≤ 16) (h : d < b) :
    isDigitOf b (Nat.digitChar d) = true := by
  have hhex : ∀ d < 16, isDigitOf 16 (Nat.digitChar d) = true := by decide
  have hd := hhex d (h.trans_le hb)
  rw [isDigitOf, Bool.and_eq_true] at hd ⊢
  refine ⟨hd.1, ?_⟩
  rw [digitValue_digitChar (h.trans_le hb)]
  exact decide_eq_true h

/-- **The digits of a number denote it.** -/
theorem foldl_toDigits (hb : 1 < b) (hb' : b ≤ 16) (n : Nat) :
    (Nat.toDigits b n).foldl (fun n c => n * b + digitValue c) 0 = n := by
  induction n using Nat.strong_induction_on with
  | _ n ih =>
    rw [Nat.toDigits_eq_if hb]
    by_cases h : n < b
    · rw [if_pos h, List.foldl_cons, List.foldl_nil, digitValue_digitChar (h.trans_le hb')]
      omega
    · have hless : n / b < n := Nat.div_lt_self (by omega) hb
      have hmod : n % b < 16 := (Nat.mod_lt n (by omega)).trans_le hb'
      rw [if_neg h, List.foldl_append, ih _ hless, List.foldl_cons, List.foldl_nil,
        digitValue_digitChar hmod, Nat.div_add_mod']

theorem isDigitOf_of_mem_toDigits (hb : 1 < b) (hb' : b ≤ 16) (n : Nat) :
    ∀ c ∈ Nat.toDigits b n, isDigitOf b c = true := by
  induction n using Nat.strong_induction_on with
  | _ n ih =>
    rw [Nat.toDigits_eq_if hb]
    by_cases h : n < b
    · rw [if_pos h]
      simpa using isDigitOf_digitChar hb' h
    · rw [if_neg h]
      intro c hc
      rcases List.mem_append.1 hc with hc | hc
      · exact ih _ (Nat.div_lt_self (by omega) hb) c hc
      · rw [List.mem_singleton.1 hc]
        exact isDigitOf_digitChar hb' (Nat.mod_lt n (by omega))

end Digits

/-! ### Four bytes -/

section Ipv4

/-- The bytes of an address, the first one first. -/
def bytesOf (n : Nat) : List Nat := [3, 2, 1, 0].map fun i => n / byteBound i % 256

theorem toList_ipv4Text (n : Nat) :
    (ipv4Text n).toList = ['.'].intercalate ((bytesOf n).map (Nat.toDigits 10)) := by
  rw [ipv4Text, String.toList_intercalate, bytesOf, List.map_map, List.map_map]
  have hdigits : String.toList ∘ (fun i => toString (n / byteBound i % 256)) =
      Nat.toDigits 10 ∘ fun i => n / byteBound i % 256 :=
    funext fun i => Decimal.toList_toString _
  rw [hdigits]
  rfl

theorem splitOn_ipv4Text (n : Nat) :
    (ipv4Text n).toList.splitOn '.' = (bytesOf n).map (Nat.toDigits 10) := by
  rw [toList_ipv4Text]
  refine List.splitOn_intercalate '.' (fun l hl => ?_) (by simp [bytesOf])
  obtain ⟨k, -, rfl⟩ := List.mem_map.1 hl
  exact fun h => absurd (Decimal.isDigit_of_mem_toDigits _ h) (by decide)

/-- Digits and dots. -/
theorem mem_ipv4Text {n : Nat} {c : Char} (h : c ∈ (ipv4Text n).toList) :
    c.isDigit = true ∨ c = '.' := by
  rw [toList_ipv4Text] at h
  rcases Split.mem_intercalate h with rfl | ⟨part, hpart, hc⟩
  · exact .inr rfl
  · obtain ⟨k, -, rfl⟩ := List.mem_map.1 hpart
    exact .inl (Decimal.isDigit_of_mem_toDigits c hc)

theorem parts_ipv4Text (n : Nat) :
    parts (ipv4Text n).toList = (bytesOf n).map (Nat.toDigits 10) := by
  have hlast : ((bytesOf n).map (Nat.toDigits 10)).getLast? ≠ some [] := by
    simp [bytesOf, Nat.toDigits_ne_nil]
  rw [parts, splitOn_ipv4Text]
  exact if_neg fun h => hlast h.2

theorem endsInNumber_ipv4Text (n : Nat) : endsInNumber (ipv4Text n).toList = true := by
  have hlast : ((bytesOf n).map (Nat.toDigits 10)).getLast? =
      some (Nat.toDigits 10 (n / byteBound 0 % 256)) := rfl
  rw [endsInNumber, parts_ipv4Text, hlast]
  have hdigits : (Nat.toDigits 10 (n / byteBound 0 % 256)).all Char.isDigit = true :=
    List.all_eq_true.2 Decimal.isDigit_of_mem_toDigits
  simp only [hdigits, Nat.toDigits_ne_nil, Bool.and_true, ne_eq, not_false_eq_true, decide_true,
    Bool.true_or]

theorem number?_toDigits : ∀ k < 256, number? (Nat.toDigits 10 k) = some k := by
  decide +kernel

theorem lt_of_mem_bytesOf {n k : Nat} (h : k ∈ bytesOf n) : k < 256 := by
  obtain ⟨i, -, rfl⟩ := List.mem_map.1 h
  exact Nat.mod_lt _ (by decide)

theorem ipv4Of?_bytesOf (n : Nat) : ipv4Of? 4 (bytesOf n) = some (n % 4294967296) := by
  have hlast : n % 256 < 256 := Nat.mod_lt _ (by decide)
  simp only [bytesOf, List.map_cons, List.map_nil, ipv4Of?, byteBound, Nat.one_mul, Nat.div_one,
    Nat.mod_lt _ (show 0 < 256 by decide), if_true, Option.map_some, Option.some.injEq]
  omega

theorem ipv4Text_mod (n : Nat) : ipv4Text (n % 4294967296) = ipv4Text n := by
  have hbytes : bytesOf (n % 4294967296) = bytesOf n := by
    simp only [bytesOf, List.map_cons, List.map_nil, byteBound, List.cons.injEq, and_true]
    omega
  rw [← String.toList_inj, toList_ipv4Text, toList_ipv4Text, hbytes]

/-- **An address of four bytes is read back.** -/
theorem ipv4?_text (n : Nat) : ipv4? (ipv4Text n).toList = some (ipv4Text n) := by
  have hnumbers : ((bytesOf n).map (Nat.toDigits 10)).mapM number? = some (bytesOf n) := by
    rw [mapM_eq_some_iff, List.forall₂_map_left_iff, List.forall₂_same]
    exact fun k hk => number?_toDigits k (lt_of_mem_bytesOf hk)
  rw [ipv4?, parts_ipv4Text, hnumbers]
  simp only [Option.bind_eq_bind, Option.bind_some, ipv4Of?_bytesOf, ipv4Text_mod]
  rfl

end Ipv4

/-! ### Eight pieces -/

section Ipv6

/-- Pieces between colons, as characters. -/
def piecesChars (ps : List Nat) : List Char := [':'].intercalate (ps.map (Nat.toDigits 16))

theorem toList_piecesText (ps : List Nat) : (piecesText ps).toList = piecesChars ps := by
  have hdigits : String.toList ∘ (fun p => String.ofList (Nat.toDigits 16 p)) = Nat.toDigits 16 :=
    funext fun p => String.toList_ofList
  rw [piecesText, String.toList_intercalate, List.map_map, hdigits]
  rfl

/-- What stands in the brackets of an address. -/
def bracketChars (ps : List Nat) : List Char :=
  if (longestZeros ps).2 < 2 then piecesChars ps
  else piecesChars (ps.take (longestZeros ps).1) ++
    ':' :: ':' :: piecesChars (ps.drop ((longestZeros ps).1 + (longestZeros ps).2))

theorem toList_ipv6Text (ps : List Nat) :
    (ipv6Text ps).toList = '[' :: (bracketChars ps ++ [']']) := by
  unfold ipv6Text bracketChars
  by_cases h : (longestZeros ps).2 < 2
  · simp only [if_pos h]
    simp [toList_piecesText, toString]
  · simp only [if_neg h]
    simp [toList_piecesText, toString]

theorem isDigitOf_of_mem_hex {p : Nat} : ∀ c ∈ Nat.toDigits 16 p, isDigitOf 16 c = true :=
  isDigitOf_of_mem_toDigits (by decide) le_rfl p

theorem not_mem_hex {p : Nat} {c : Char} (h : isDigitOf 16 c = false) : c ∉ Nat.toDigits 16 p := by
  intro hc
  rw [isDigitOf_of_mem_hex c hc] at h
  cases h

theorem mem_piecesChars {ps : List Nat} {c : Char} (h : c ∈ piecesChars ps) :
    isDigitOf 16 c = true ∨ c = ':' := by
  rcases Split.mem_intercalate h with rfl | ⟨part, hpart, hc⟩
  · exact .inr rfl
  · obtain ⟨p, -, rfl⟩ := List.mem_map.1 hpart
    exact .inl (isDigitOf_of_mem_hex c hc)

/-- Digits and colons. -/
theorem mem_bracketChars {ps : List Nat} {c : Char} (h : c ∈ bracketChars ps) :
    isDigitOf 16 c = true ∨ c = ':' := by
  unfold bracketChars at h
  split_ifs at h
  · exact mem_piecesChars h
  · simp only [List.mem_append, List.mem_cons] at h
    rcases h with h | rfl | rfl | h
    · exact mem_piecesChars h
    · exact .inr rfl
    · exact .inr rfl
    · exact mem_piecesChars h

/-! #### Pieces -/

theorem piece?_toDigits {p : Nat} (h : p < 65536) : piece? (Nat.toDigits 16 p) = some p := by
  have hlength : (Nat.toDigits 16 p).length ≤ 4 :=
    (Nat.length_toDigits_le_iff (by decide) (by decide)).2 h
  have hall : (Nat.toDigits 16 p).all (isDigitOf 16) = true :=
    List.all_eq_true.2 isDigitOf_of_mem_hex
  rw [piece?, if_pos ⟨Nat.toDigits_ne_nil, hlength, hall⟩, foldl_toDigits (by decide) le_rfl]

theorem pieces?_map {ps : List Nat} (h : ∀ p ∈ ps, p < 65536) :
    pieces? (ps.map (Nat.toDigits 16)) = some ps := by
  induction ps with
  | nil => rfl
  | cons p ps ih =>
    obtain ⟨hp, hps⟩ := List.forall_mem_cons.1 h
    cases ps with
    | nil =>
      have hdot : (Nat.toDigits 16 p).contains '.' = false := by
        simpa using not_mem_hex (by decide)
      simp only [List.map_cons, List.map_nil, pieces?, hdot, piece?_toDigits hp]
      rfl
    | cons q ps =>
      simp only [List.map_cons, pieces?, piece?_toDigits hp, Option.bind_eq_bind, Option.bind_some]
      rw [← List.map_cons, ih hps]
      rfl

theorem piecesChars_cons (p : Nat) (ps : List Nat) :
    ∃ rest, piecesChars (p :: ps) = Nat.toDigits 16 p ++ rest := by
  cases ps with
  | nil => exact ⟨[], by simp [piecesChars]⟩
  | cons q ps =>
    refine ⟨':' :: piecesChars (q :: ps), ?_⟩
    rw [piecesChars, List.map_cons, List.map_cons, List.intercalate_cons_cons]
    simp [piecesChars]

theorem side?_piecesChars {ps : List Nat} (h : ∀ p ∈ ps, p < 65536) :
    side? (piecesChars ps) = some ps := by
  cases ps with
  | nil => rfl
  | cons p ps =>
    have hne : piecesChars (p :: ps) ≠ [] := by
      obtain ⟨rest, hrest⟩ := piecesChars_cons p ps
      rw [hrest]
      exact List.append_ne_nil_of_left_ne_nil Nat.toDigits_ne_nil rest
    have hsplit : (piecesChars (p :: ps)).splitOn ':' = (p :: ps).map (Nat.toDigits 16) := by
      refine List.splitOn_intercalate ':' (fun l hl => ?_) (by simp)
      obtain ⟨q, -, rfl⟩ := List.mem_map.1 hl
      exact not_mem_hex (by decide)
    rw [side?, if_neg hne, hsplit, pieces?_map h]

/-! #### Gaps -/

theorem splitGap_append {p : List Char} (h : ':' ∉ p) (rest : List Char) :
    splitGap (p ++ rest) = (splitGap rest).map fun q => (p ++ q.1, q.2) := by
  induction p with
  | nil => simp
  | cons c p ih =>
    rw [List.mem_cons, not_or] at h
    have hstep : splitGap (c :: (p ++ rest)) =
        (splitGap (p ++ rest)).map fun q => (c :: q.1, q.2) := by
      rw [splitGap]
      rintro r rfl
      exact absurd rfl h.1
    rw [List.cons_append, hstep, ih h.2, Option.map_map]
    rfl

theorem splitGap_colon {cs : List Char} (h : cs.head? ≠ some ':') :
    splitGap (':' :: cs) = (splitGap cs).map fun q => (':' :: q.1, q.2) := by
  rw [splitGap]
  rintro r - rfl
  exact h rfl

theorem splitGap_piecesChars (ps : List Nat) (rest : List Char) :
    splitGap (piecesChars ps ++ rest) =
      (splitGap rest).map fun q => (piecesChars ps ++ q.1, q.2) := by
  have hplain (p : Nat) : ':' ∉ Nat.toDigits 16 p := not_mem_hex (by decide)
  induction ps with
  | nil => simp [piecesChars]
  | cons p ps ih =>
    cases ps with
    | nil =>
      rw [show piecesChars [p] = Nat.toDigits 16 p by simp [piecesChars]]
      exact splitGap_append (hplain p) rest
    | cons q ps =>
      have hcons : piecesChars (p :: q :: ps) =
          Nat.toDigits 16 p ++ ':' :: piecesChars (q :: ps) := by
        rw [piecesChars, List.map_cons, List.map_cons, List.intercalate_cons_cons]
        simp [piecesChars]
      have hhead : (piecesChars (q :: ps) ++ rest).head? ≠ some ':' := by
        obtain ⟨more, hmore⟩ := piecesChars_cons q ps
        rw [hmore, List.append_assoc, List.head?_append_of_ne_nil _ Nat.toDigits_ne_nil]
        exact fun h => hplain q (List.mem_of_mem_head? h)
      rw [hcons, List.append_assoc, splitGap_append (hplain p), List.cons_append,
        splitGap_colon hhead, ih]
      simp [Function.comp_def]

/-! #### Zeros left out -/

/-- The run that is left out is one of zeros, as long as it is said to be. -/
theorem zeros_longestZeros (ps : List Nat) :
    (longestZeros ps).2 = 0 ∨ zeros (ps.drop (longestZeros ps).1) = (longestZeros ps).2 := by
  unfold longestZeros
  generalize List.range ps.length = is
  have hfold (best : Nat × Nat) (h : best.2 = 0 ∨ zeros (ps.drop best.1) = best.2) :
      let last := is.foldl (fun best i =>
        if zeros (ps.drop i) > best.2 then (i, zeros (ps.drop i)) else best) best
      last.2 = 0 ∨ zeros (ps.drop last.1) = last.2 := by
    induction is generalizing best with
    | nil => exact h
    | cons i is ih =>
      refine ih _ ?_
      dsimp only
      split_ifs
      · exact .inr rfl
      · exact h
  exact hfold (0, 0) (.inl rfl)

theorem append_longestZeros {ps : List Nat} (h : 2 ≤ (longestZeros ps).2) :
    ps.take (longestZeros ps).1 ++ List.replicate (longestZeros ps).2 0 ++
      ps.drop ((longestZeros ps).1 + (longestZeros ps).2) = ps := by
  have hzeros := (zeros_longestZeros ps).resolve_left (by omega)
  generalize (longestZeros ps).1 = start at hzeros ⊢
  generalize (longestZeros ps).2 = count at hzeros ⊢
  have htake : (ps.drop start).takeWhile (· = 0) = List.replicate count 0 := by
    rw [List.eq_replicate_iff]
    exact ⟨hzeros, fun p hp => by simpa using List.mem_takeWhile_imp hp⟩
  have hsplit := (ps.drop start).takeWhile_append_dropWhile (p := (· = 0))
  have hdrop : (ps.drop start).drop count = (ps.drop start).dropWhile (· = 0) := by
    conv_lhs => rw [← hsplit, htake]
    rw [List.drop_left' (List.length_replicate ..)]
  rw [List.append_assoc, ← List.drop_drop, hdrop, ← htake, hsplit, List.take_append_drop]

/-- **What stands in brackets is read back.** -/
theorem ipv6Pieces?_bracketChars {ps : List Nat} (hlength : ps.length = 8)
    (h : ∀ p ∈ ps, p < 65536) : ipv6Pieces? (bracketChars ps) = some ps := by
  unfold bracketChars
  split_ifs with hshort
  · have hgap : splitGap (piecesChars ps) = none := by
      have := splitGap_piecesChars ps []
      rwa [List.append_nil] at this
    simp only [ipv6Pieces?, hgap, side?_piecesChars h, Option.bind_eq_bind, Option.bind_some,
      if_pos hlength]
    rfl
  · have hwhole := append_longestZeros (Nat.le_of_not_lt hshort)
    generalize (longestZeros ps).1 = start at hwhole ⊢
    generalize (longestZeros ps).2 = count at hwhole hshort ⊢
    have hcount := congrArg List.length hwhole
    rw [List.length_append, List.length_append, List.length_replicate, hlength] at hcount
    have hgap := splitGap_piecesChars (ps.take start)
      (':' :: ':' :: piecesChars (ps.drop (start + count)))
    have hdot : (piecesChars (ps.take start)).contains '.' = false := by
      rw [Bool.eq_false_iff, ne_eq, List.contains_iff_mem]
      intro hmem
      exact absurd (mem_piecesChars hmem) (by decide)
    have hfront : ∀ p ∈ ps.take start, p < 65536 := fun p hp => h p (List.mem_of_mem_take hp)
    have hback : ∀ p ∈ ps.drop (start + count), p < 65536 :=
      fun p hp => h p (List.mem_of_mem_drop hp)
    have hmissing : 8 - (ps.take start).length - (ps.drop (start + count)).length = count := by
      omega
    simp only [ipv6Pieces?, hgap, splitGap, Option.map_some, List.append_nil, hdot,
      side?_piecesChars hfront, side?_piecesChars hback, Option.bind_eq_bind, Option.bind_some,
      hmissing, hwhole]
    rw [if_neg (by decide), if_pos (by omega)]
    rfl

/-! #### What is read -/

theorem foldl_lt {cs : List Char} (h : ∀ c ∈ cs, digitValue c < 16) (n : Nat) :
    cs.foldl (fun n c => n * 16 + digitValue c) n < (n + 1) * 16 ^ cs.length := by
  induction cs generalizing n with
  | nil => simp
  | cons c cs ih =>
    obtain ⟨hc, hcs⟩ := List.forall_mem_cons.1 h
    calc (c :: cs).foldl (fun n c => n * 16 + digitValue c) n
        < (n * 16 + digitValue c + 1) * 16 ^ cs.length := ih hcs _
      _ ≤ ((n + 1) * 16) * 16 ^ cs.length := Nat.mul_le_mul_right _ (by omega)
      _ = (n + 1) * 16 ^ (c :: cs).length := by rw [List.length_cons, Nat.pow_succ]; ring

theorem piece?_lt {cs : List Char} {p : Nat} (h : piece? cs = some p) : p < 65536 := by
  unfold piece? at h
  split_ifs at h with hpiece
  obtain ⟨-, hlength, hall⟩ := hpiece
  have hdigits : ∀ c ∈ cs, digitValue c < 16 := by
    intro c hc
    have := List.all_eq_true.1 hall c hc
    rw [isDigitOf, Bool.and_eq_true] at this
    exact of_decide_eq_true this.2
  calc p < (0 + 1) * 16 ^ cs.length := Option.some.inj h ▸ foldl_lt hdigits 0
    _ ≤ (0 + 1) * 16 ^ 4 := Nat.mul_le_mul_left _ (Nat.pow_le_pow_right (by decide) hlength)
    _ = 65536 := by decide

theorem byte?_lt {cs : List Char} {n : Nat} (h : byte? cs = some n) : n < 256 := by
  simp only [byte?] at h
  split_ifs at h with hform hbound
  exact Option.some.inj h ▸ hbound

theorem lt_of_mem_pieces? {parts : List (List Char)} {ps : List Nat} (h : pieces? parts = some ps) :
    ∀ p ∈ ps, p < 65536 := by
  induction parts generalizing ps with
  | nil => simp [← Option.some.inj h]
  | cons part parts ih =>
    cases parts with
    | nil =>
      rw [pieces?.eq_2] at h
      split_ifs at h with hdot
      · split at h
        · next a b c d hbytes =>
          obtain ⟨_, _, ha, hbytes, -⟩ := List.forall₂_cons_right_iff.1 (mapM_eq_some_iff.1 hbytes)
          obtain ⟨_, _, hb, hbytes, -⟩ := List.forall₂_cons_right_iff.1 hbytes
          obtain ⟨_, _, hc, hbytes, -⟩ := List.forall₂_cons_right_iff.1 hbytes
          obtain ⟨_, _, hd, -, -⟩ := List.forall₂_cons_right_iff.1 hbytes
          have := byte?_lt ha
          have := byte?_lt hb
          have := byte?_lt hc
          have := byte?_lt hd
          rw [← Option.some.inj h]
          simp only [List.mem_cons, List.not_mem_nil, or_false, forall_eq_or_imp, forall_eq]
          omega
        · cases h
      · obtain ⟨p, hp, rfl⟩ := Option.map_eq_some_iff.1 h
        simpa using piece?_lt hp
    | cons next parts =>
      rw [pieces?.eq_3 _ _ (by simp)] at h
      obtain ⟨p, hp, h⟩ := Option.bind_eq_some_iff.1 h
      obtain ⟨rest, hrest, h⟩ := Option.bind_eq_some_iff.1 h
      rw [← Option.some.inj h]
      exact List.forall_mem_cons.2 ⟨piece?_lt hp, ih hrest⟩

theorem lt_of_mem_side? {cs : List Char} {ps : List Nat} (h : side? cs = some ps) :
    ∀ p ∈ ps, p < 65536 := by
  unfold side? at h
  split_ifs at h
  · simp [← Option.some.inj h]
  · exact lt_of_mem_pieces? h

/-- What is read in brackets is eight pieces of sixteen bits each. -/
theorem length_ipv6Pieces? {cs : List Char} {ps : List Nat} (h : ipv6Pieces? cs = some ps) :
    ps.length = 8 ∧ ∀ p ∈ ps, p < 65536 := by
  unfold ipv6Pieces? at h
  split at h
  · next front back hgap =>
    by_cases hdot : front.contains '.' = true
    · simp only [if_pos hdot] at h
      cases h
    simp only [if_neg hdot] at h
    obtain ⟨a, ha, h⟩ := Option.bind_eq_some_iff.1 h
    obtain ⟨b, hb, h⟩ := Option.bind_eq_some_iff.1 h
    split_ifs at h with hlength
    rw [← Option.some.inj h]
    refine ⟨?_, fun p hp => ?_⟩
    · simp only [List.length_append, List.length_replicate]
      omega
    · simp only [List.mem_append, List.mem_replicate] at hp
      rcases hp with (hp | ⟨-, rfl⟩) | hp
      · exact lt_of_mem_side? ha p hp
      · decide
      · exact lt_of_mem_side? hb p hp
  · obtain ⟨a, ha, h⟩ := Option.bind_eq_some_iff.1 h
    split_ifs at h with hlength
    rw [← Option.some.inj h]
    exact ⟨hlength, lt_of_mem_side? ha⟩

/-- **An address of eight pieces is read back.** -/
theorem bracketed?_text {cs : List Char} {host : String} (h : bracketed? cs = some host) :
    ∃ body, host.toList = '[' :: (body ++ [']']) ∧ bracketed? (body ++ [']']) = some host ∧
      ∀ c ∈ body, isDigitOf 16 c = true ∨ c = ':' := by
  unfold bracketed? at h
  split_ifs at h with hlast
  obtain ⟨ps, hps, rfl⟩ := Option.map_eq_some_iff.1 h
  obtain ⟨hlength, hbound⟩ := length_ipv6Pieces? hps
  refine ⟨bracketChars ps, toList_ipv6Text ps, ?_, fun c hc => mem_bracketChars hc⟩
  rw [bracketed?, if_pos (List.getLast?_concat ..), List.dropLast_concat,
    ipv6Pieces?_bracketChars hlength hbound]
  rfl

end Ipv6

end LedgerBridge.Url.Host
