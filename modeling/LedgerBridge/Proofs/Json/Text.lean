import LedgerBridge.Json.Text
import LedgerBridge.Proofs.Except
import LedgerBridge.Proofs.Text.Utf8

/-!
# Texts in JSON read back

A text has many spellings. `Piece.Spelled` says which bytes between the quotes spell a piece,
`Pieces` which pieces make a character, and `TextSpelled` which bytes spell a text. The reader takes
every spelling back (`readText_spelled`), and what the writer gives is one of them
(`textSpelled_writeText`, `readText_writeText`).
-/

namespace LedgerBridge.Json

/-- The bytes between quotes that spell a piece. -/
inductive Piece.Spelled : Piece → Bytes → Prop where
  | plain {b : UInt8} (hcontrol : ¬ b < 0x20) (hquote : b ≠ 0x22) (hslash : b ≠ 0x5c) :
      Spelled (.byte b) [b]
  | escape {letter e : UInt8} (h : escape? letter = some e) : Spelled (.byte e) [0x5c, letter]
  | unit {h3 h2 h1 h0 : UInt8} {u : Nat} (h : codeUnit? h3 h2 h1 h0 = some u) :
      Spelled (.unit u) [0x5c, 0x75, h3, h2, h1, h0]

/-- The pieces that make a character: the bytes of its UTF-8 form, or its code units. -/
inductive Pieces (c : Char) : List Piece → Prop where
  | bytes : Pieces c ((String.utf8EncodeChar c).map .byte)
  | unit : Pieces c [.unit c.toNat]
  | pair {high low : Nat} (hhigh : isHighSurrogate high) (hlow : isLowSurrogate low)
      (h : pairChar high low = c) : Pieces c [.unit high, .unit low]

/-! ### Pieces -/

theorem readPiecesFrom_spelled {p : Piece} {w : Bytes} (h : p.Spelled w) (before : List Piece)
    (rest : Bytes) : readPiecesFrom before (w ++ rest) = readPiecesFrom (p :: before) rest := by
  cases h with
  | plain hcontrol hquote hslash =>
    rw [List.singleton_append, readPiecesFrom.eq_def]
    exact (if_neg hquote).trans ((if_neg hcontrol).trans (if_pos hslash))
  | @escape letter e h =>
    have hunit : letter ≠ 0x75 := by
      rintro rfl
      cases h
    rw [readPiecesFrom.eq_def]
    simp [hunit, h]
  | unit h =>
    rw [readPiecesFrom.eq_def]
    simp [h]

theorem readPieces_spelled {ps : List Piece} {ws : List Bytes}
    (h : List.Forall₂ Piece.Spelled ps ws) (rest : Bytes) :
    readPieces (ws.flatten ++ 0x22 :: rest) = some (ps, rest) := by
  have hrun (before : List Piece) :
      readPiecesFrom before (ws.flatten ++ 0x22 :: rest) = some (before.reverse ++ ps, rest) := by
    induction h generalizing before with
    | nil =>
      rw [readPiecesFrom.eq_def]
      simp
    | @cons p w ps ws hp _ ih =>
      rw [List.flatten_cons, List.append_assoc, readPiecesFrom_spelled hp, ih]
      simp
  exact hrun []

/-! ### Characters -/

theorem assembleFrom_bytes (before w : Bytes) (rest : List Piece) :
    assembleFrom before (w.map .byte ++ rest) = assembleFrom (w.reverse ++ before) rest := by
  induction w generalizing before with
  | nil => rfl
  | cons b w ih =>
    rw [List.map_cons, List.cons_append, assembleFrom, ih]
    simp

/-- No character is a surrogate. -/
theorem isSurrogate_toNat (c : Char) :
    isHighSurrogate c.toNat = false ∧ isLowSurrogate c.toNat = false := by
  have hc : c.toNat < 0xd800 ∨ 0xdfff < c.toNat := c.valid.imp id And.left
  simp only [isHighSurrogate, isLowSurrogate, Bool.and_eq_false_iff, decide_eq_false_iff_not]
  omega

theorem assembleFrom_pieces {c : Char} {ps : List Piece} (h : Pieces c ps) (before : Bytes)
    (rest : List Piece) : assembleFrom before (ps ++ rest) =
      assembleFrom ((String.utf8EncodeChar c).reverse ++ before) rest := by
  cases h with
  | bytes => exact assembleFrom_bytes before _ rest
  | unit =>
    obtain ⟨hhigh, hlow⟩ := isSurrogate_toNat c
    rw [assembleFrom.eq_def]
    simp [hhigh, hlow, Char.ofNat_toNat]
  | @pair high low hhigh hlow h =>
    have hne : isLowSurrogate high = false := by
      simp only [isHighSurrogate, Bool.and_eq_true, decide_eq_true_eq] at hhigh
      simp only [isLowSurrogate, Bool.and_eq_false_iff, decide_eq_false_iff_not]
      omega
    rw [assembleFrom.eq_def]
    simp [hhigh, hlow, hne, h]

theorem assemble_pieces {s : String} {pss : List (List Piece)}
    (h : List.Forall₂ Pieces s.toList pss) : assemble pss.flatten = some s := by
  have hrun {cs : List Char} {pss : List (List Piece)} (h : List.Forall₂ Pieces cs pss)
      (before : Bytes) : assembleFrom before pss.flatten =
        some (before.reverse ++ cs.flatMap String.utf8EncodeChar) := by
    induction h generalizing before with
    | nil => simp [assembleFrom]
    | cons hc _ ih =>
      rw [List.flatten_cons, assembleFrom_pieces hc, ih]
      simp
  rw [assemble, hrun h]
  exact Utf8.decode?_encode s

/-- The bytes between quotes that spell a text: spelled pieces of its characters. There may also be
pieces that make no characters. -/
inductive TextSpelled : Option String → Bytes → Prop where
  | chars {s : String} {pss : List (List Piece)} {ws : List Bytes}
      (hs : List.Forall₂ Pieces s.toList pss) (hw : List.Forall₂ Piece.Spelled pss.flatten ws) :
      TextSpelled (some s) ws.flatten
  | broken {ps : List Piece} {ws : List Bytes} (hw : List.Forall₂ Piece.Spelled ps ws)
      (h : assemble ps = none) : TextSpelled none ws.flatten

/-- Texts are spelled part by part. -/
theorem TextSpelled.append {s t : String} {v w : Bytes} (hs : TextSpelled (some s) v)
    (ht : TextSpelled (some t) w) : TextSpelled (some (s ++ t)) (v ++ w) := by
  obtain @⟨_, pss, _, hs, hv⟩ := hs
  obtain @⟨_, qss, _, ht, hw⟩ := ht
  rw [← List.flatten_append]
  refine @TextSpelled.chars _ (pss ++ qss) _ ?_ ?_
  · rw [String.toList_append]
    exact List.rel_append hs ht
  · rw [List.flatten_append]
    exact List.rel_append hv hw

theorem TextSpelled.char {c : Char} {ps : List Piece} {ws : List Bytes} (hc : Pieces c ps)
    (hw : List.Forall₂ Piece.Spelled ps ws) :
    TextSpelled (some (String.singleton c)) ws.flatten := by
  refine @TextSpelled.chars _ [ps] ws ?_ ?_
  · rw [String.toList_singleton]
    exact .cons hc .nil
  · rwa [List.flatten_singleton]

/-- **Every spelling of a text is read as that text.** -/
theorem readText_spelled {t : Option String} {w : Bytes} (h : TextSpelled t w) (rest : Bytes) :
    readText (w ++ 0x22 :: rest) = some (t, rest) := by
  cases h with
  | chars hs hw =>
    rw [readText, readPieces_spelled hw, ← assemble_pieces hs]
    rfl
  | broken hw h =>
    rw [readText, readPieces_spelled hw, ← h]
    rfl

/-! ### Writing -/

/-- The two last digits of a control character. -/
theorem codeUnit?_digitChar {n : Nat} (hn : n < 0x20) : ∃ h1 h0,
    String.utf8EncodeChar (Nat.digitChar (n / 16)) = [h1] ∧
    String.utf8EncodeChar (Nat.digitChar (n % 16)) = [h0] ∧
    codeUnit? 0x30 0x30 h1 h0 = some n := by
  interval_cases n <;> exact ⟨_, _, rfl, rfl, rfl⟩

theorem exists_pieces_plain {c : Char} (hquote : c ≠ '"') (hslash : c ≠ '\\')
    (hcontrol : ¬ c.toNat < 0x20) : ∃ ws,
      List.Forall₂ Piece.Spelled ((String.utf8EncodeChar c).map .byte) ws ∧
      ws.flatten = String.utf8EncodeChar c := by
  refine ⟨(String.utf8EncodeChar c).map fun b => [b], ?_, ?_⟩
  · rw [List.forall₂_map_left_iff, List.forall₂_map_right_iff, List.forall₂_same]
    intro b hb
    have hbyte := Utf8.mem_utf8EncodeChar hb
    refine .plain ?_ ?_ ?_
    · rw [UInt8.lt_iff_toNat_lt]
      show ¬ b.toNat < 0x20
      omega
    · rintro rfl
      rcases hbyte with h | h
      · exact hquote (Char.toNat_inj.1 h.symm)
      · exact absurd h (by decide)
    · rintro rfl
      rcases hbyte with h | h
      · exact hslash (Char.toNat_inj.1 h.symm)
      · exact absurd h (by decide)
  · rw [← List.flatMap_def]
    exact List.flatMap_singleton' _

/-- What is written for a character spells it. -/
theorem exists_pieces_writeChar (c : Char) : ∃ ps ws, Pieces c ps ∧
    List.Forall₂ Piece.Spelled ps ws ∧
    ws.flatten = (writeChar c).flatMap String.utf8EncodeChar := by
  have hescape (letter e : UInt8) (h : escape? letter = some e)
      (hc : String.utf8EncodeChar c = [e])
      (hw : (writeChar c).flatMap String.utf8EncodeChar = [0x5c, letter]) :
      ∃ ps ws, Pieces c ps ∧ List.Forall₂ Piece.Spelled ps ws ∧
        ws.flatten = (writeChar c).flatMap String.utf8EncodeChar := by
    refine ⟨_, [[0x5c, letter]], .bytes, ?_, by rw [hw]; rfl⟩
    rw [hc]
    exact .cons (.escape h) .nil
  by_cases h1 : c = '"'
  · subst h1; exact hescape 0x22 0x22 rfl rfl rfl
  by_cases h2 : c = '\\'
  · subst h2; exact hescape 0x5c 0x5c rfl rfl rfl
  by_cases h3 : c = '\x08'
  · subst h3; exact hescape 0x62 8 rfl rfl rfl
  by_cases h4 : c = '\x0c'
  · subst h4; exact hescape 0x66 12 rfl rfl rfl
  by_cases h5 : c = '\n'
  · subst h5; exact hescape 0x6e 10 rfl rfl rfl
  by_cases h6 : c = '\r'
  · subst h6; exact hescape 0x72 13 rfl rfl rfl
  by_cases h7 : c = '\t'
  · subst h7; exact hescape 0x74 9 rfl rfl rfl
  rw [writeChar, if_neg h1, if_neg h2, if_neg h3, if_neg h4, if_neg h5, if_neg h6, if_neg h7]
  by_cases hcontrol : c.toNat < 0x20
  · -- any other control character is written as a code unit
    obtain ⟨d1, d0, hd1, hd0, hunit⟩ := codeUnit?_digitChar hcontrol
    refine ⟨_, [[0x5c, 0x75, 0x30, 0x30, d1, d0]], .unit, .cons (.unit hunit) .nil, ?_⟩
    rw [if_pos hcontrol]
    simp only [List.flatMap_cons, List.flatMap_nil, hd1, hd0]
    rfl
  · rw [if_neg hcontrol]
    obtain ⟨ws, hws, hflat⟩ := exists_pieces_plain h1 h2 hcontrol
    exact ⟨_, ws, .bytes, hws, by simp [hflat]⟩

/-- What is written for a text spells it. -/
theorem textSpelled_writeText (s : String) :
    TextSpelled (some s) ((s.toList.flatMap writeChar).flatMap String.utf8EncodeChar) := by
  have hrun (cs : List Char) : TextSpelled (some (String.ofList cs))
      ((cs.flatMap writeChar).flatMap String.utf8EncodeChar) := by
    induction cs with
    | nil => exact @TextSpelled.chars "" [] [] .nil .nil
    | cons c cs ih =>
      obtain ⟨ps, ws, hps, hws, hc⟩ := exists_pieces_writeChar c
      have h := (TextSpelled.char hps hws).append ih
      rw [hc, ← List.flatMap_append, ← List.flatMap_cons] at h
      rwa [← String.ofList_cons] at h
  have h := hrun s.toList
  rwa [String.ofList_toList] at h

/-- **A text is read back from what is written for it.** -/
theorem readText_writeText (s : String) (rest : Bytes) :
    readText ((s.toList.flatMap writeChar).flatMap String.utf8EncodeChar ++ 0x22 :: rest) =
      some (some s, rest) :=
  readText_spelled (textSpelled_writeText s) rest

end LedgerBridge.Json
