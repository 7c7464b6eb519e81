import LedgerBridge.Hex.Fixed
import LedgerBridge.Proofs.Except

/-!
# Marks do not matter to values of fixed width

A text denotes the same value of fixed width whether the mark stands in front of it or not
(`toOption_parse_marked_bare`), although the mark alone stays when it is taken off.
-/

namespace LedgerBridge

theorem Hex.bare_eq_empty_iff {s : String} : Hex.bare s = "" ↔ s = "" := by
  constructor
  · intro h
    unfold Hex.bare at h
    split at h
    · simp at h
    · exact h
  · rintro rfl
    rfl

namespace FixedHex

variable {n : Nat}

/-- What a text denotes is decided by what stands behind its mark. -/
theorem toOption_parse_congr {s t : String} (h : Hex.bare s = Hex.bare t) :
    (parse n s).toOption = (parse n t).toOption := by
  simp only [parse, h]
  split
  · rfl
  · cases Hex.decode (Utf8.encode (Hex.bare t)) with
    | error flaw => rfl
    | ok bytes =>
      by_cases hb : bytes.length = n
      · simp only [hb, dite_true]
      · simp only [hb, dite_false]
        rfl

theorem toOption_parse_empty (hn : 0 < n) : (parse n "").toOption = none := by
  have h : Utf8.encode (Hex.bare "") = [] := rfl
  simp only [parse, h, List.length_nil]
  rw [if_pos (by omega)]
  rfl

/-- The mark alone has as many characters as a byte, but denotes none. -/
theorem toOption_parse_mark (hn : 0 < n) : (parse n "0x").toOption = none := by
  have h : Utf8.encode (Hex.bare "0x") = [0x30, 0x78] := by decide
  simp only [parse, h, List.length_cons, List.length_nil]
  by_cases h1 : n = 1
  · subst h1
    decide
  · rw [if_pos (by omega)]
    rfl

theorem ne_of_parse {s t : String} {v : FixedHex n} (h : parse n s = .ok v)
    (ht : (parse n t).toOption = none) : s ≠ t := by
  rintro rfl
  rw [h] at ht
  cases ht

/-- **A text and the same text behind the mark denote the same.** -/
theorem toOption_parse_marked_bare (hn : 0 < n) (s : String) :
    (parse n (Hex.marked (Hex.bare s))).toOption = (parse n s).toOption := by
  by_cases hs : Hex.bare s = ""
  · have hs' : s = "" := Hex.bare_eq_empty_iff.1 hs
    rw [hs, hs', toOption_parse_empty hn]
    exact toOption_parse_mark hn
  · exact toOption_parse_congr (Hex.bare_marked hs)

theorem denotedBy_eq (v : FixedHex n) (s : String) :
    v.denotedBy s = ((parse n s).toOption == some v) := by
  unfold denotedBy
  cases parse n s with
  | error e => rfl
  | ok w => simp [Except.toOption]

theorem parse_of_denotedBy {v : FixedHex n} {s : String} (h : v.denotedBy s) :
    parse n s = .ok v := by
  rw [denotedBy_eq, beq_iff_eq] at h
  exact toOption_eq_some.1 h

theorem denotedBy_marked_bare (hn : 0 < n) (v : FixedHex n) (s : String) :
    v.denotedBy (Hex.marked (Hex.bare s)) = v.denotedBy s := by
  rw [denotedBy_eq, denotedBy_eq, toOption_parse_marked_bare hn]

end FixedHex

end LedgerBridge
