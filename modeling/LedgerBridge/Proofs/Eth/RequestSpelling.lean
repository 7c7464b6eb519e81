import LedgerBridge.Eth.Chain
import LedgerBridge.Eth.Contract
import LedgerBridge.Proofs.Eth.LogFilter
import LedgerBridge.Proofs.Hex.Spelling
import LedgerBridge.Proofs.Json.Related

/-!
# Requests in other spellings

Wherever a request has a hexadecimal text, the mark in front of it does not matter; nor does the
case of digits where they are read as values.

* `FixedHex.Respells` and `BlockRef.Respells` relate spellings of a value and of a block reference;
  both are read alike (`parse_eq`);
* `CallRequest.Respells` and `LogQuery.Respells` relate requests with such texts. They are what is
  read of JSON values which differ in those places (`CallRequest.rel_ofJson?`,
  `LogQuery.rel_ofJson?`);
* the methods cannot tell requests in different spellings apart (`getLogs_of_respells` and others).
-/

namespace LedgerBridge

/-! ### Values of fixed width -/

/-- A text, or another spelling of the value that it denotes: the mark may be put in front, and
digits may change their case. -/
inductive FixedHex.Respells (n : Nat) (s : String) : String → Prop
  | same : Respells n s s
  | respelled {u t : String} {v : FixedHex n} (hs : parse n s = .ok v) (hmark : Hex.Remarks s u)
      (hcase : Hex.Recases u t) : Respells n s t

namespace FixedHex.Respells

variable {n : Nat} {s t : String}

theorem parse_eq (h : Respells n s t) : parse n t = parse n s := by
  cases h with
  | same => rfl
  | respelled hs hmark hcase => rw [hs, parse_of_recases hcase (parse_of_remarks hmark hs)]

theorem eq_empty_iff (h : Respells n s t) : t = "" ↔ s = "" := by
  cases h with
  | same => rfl
  | respelled _ hmark hcase => rw [← hcase.eq_empty_iff, hmark.eq_empty_iff]

end FixedHex.Respells

namespace Eth

open Json (ListRel RecordRel TextRel rel_slots? rel_optionalText?)

/-! ### Block references -/

/-- A block reference, or the same one behind the mark that it did not have; the digits of a number
may change their case. -/
inductive BlockRef.Respells (s : String) : String → Prop
  | remarked {t : String} (h : Hex.Remarks s t) : Respells s t
  | recased {u t : String} {number : UInt64} (hmark : Hex.Remarks s u)
      (hnumber : parse u = .ok (.number number)) (hcase : Hex.Recases u t) : Respells s t

namespace BlockRef

variable {s t : String}

theorem parse_of_bare_eq (h : Hex.bare t = Hex.bare s) : parse t = parse s := by
  rw [parse, parse, h]

/-- No tag is a number. -/
theorem parse_eq_number {number : UInt64} :
    parse s = .ok (.number number) ↔ Quantity.parse? (Hex.bare s) = some number := by
  have htags : Quantity.parse? "latest" = none ∧ Quantity.parse? "earliest" = none ∧
      Quantity.parse? "pending" = none := by decide
  rw [parse, Quantity.parse]
  split_ifs with hlatest hearliest hpending
  · simp [hlatest, htags.1]
  · simp [hearliest, htags.2.1]
  · simp [hpending, htags.2.2]
  · cases Quantity.parse? (Hex.bare s) <;> simp [checkHex, Except.mapError]

theorem Respells.parse_eq (h : Respells s t) : parse t = parse s := by
  cases h with
  | remarked h => exact parse_of_bare_eq h.bare_eq
  | recased hmark hnumber hcase =>
    rw [← parse_of_bare_eq hmark.bare_eq, hnumber, parse_eq_number,
      ← Quantity.parse?_of_recases hcase.bare, ← parse_eq_number, hnumber]

theorem Respells.refl (s : String) : Respells s s := .remarked .same

end BlockRef

/-! ### Calls -/

namespace CallRequest

/-- Callee and data of a call may have the mark in front. -/
structure Respells (r r' : CallRequest) : Prop where
  recipient : Option.Rel Hex.Remarks r.recipient r'.recipient
  data : Option.Rel Hex.Remarks r.data r'.data

/-- The members of a call, of which callee and data may differ. -/
def fields : List Json.Field :=
  members.zip [TextRel Hex.Remarks, TextRel Eq, TextRel Eq, TextRel Eq, TextRel Eq,
    TextRel Hex.Remarks, TextRel Eq]

theorem refl_of_mem_fields : ∀ field ∈ fields, ∀ j, field.2 j j := by
  simp only [fields, members, List.zip_cons_cons, List.zip_nil_right, List.forall_mem_cons,
    List.not_mem_nil, false_implies, implies_true, and_true]
  exact ⟨.same, .same, .same, .same, .same, .same, .same⟩

theorem rel_ofJson? {j k : Json} (h : RecordRel fields j k) :
    Option.Rel Respells (ofJson? j) (ofJson? k) := by
  unfold ofJson?
  refine rel_bind (rel_slots? refl_of_mem_fields h) fun vs ws hslots => ?_
  obtain _ | ⟨hto, _ | ⟨hfrom, _ | ⟨hgas, _ | ⟨hprice, _ | ⟨hvalue, _ | ⟨hdata, _ | ⟨hnonce, _ |
    _⟩⟩⟩⟩⟩⟩⟩ := hslots
  refine rel_bind (rel_optionalText? (fun _ => .same) hto) fun _ _ hto => ?_
  refine rel_bind (rel_optionalText? Eq.refl hfrom) fun _ _ _ => ?_
  refine rel_bind (rel_optionalText? Eq.refl hgas) fun _ _ _ => ?_
  refine rel_bind (rel_optionalText? Eq.refl hprice) fun _ _ _ => ?_
  refine rel_bind (rel_optionalText? Eq.refl hvalue) fun _ _ _ => ?_
  refine rel_bind (rel_optionalText? (fun _ => .same) hdata) fun _ _ hdata => ?_
  refine rel_bind (rel_optionalText? Eq.refl hnonce) fun _ _ _ => ?_
  exact .some ⟨hto, hdata⟩

variable {r r' : CallRequest}

/-- An empty callee is none, in both spellings. -/
theorem Respells.rel_callee (h : r.Respells r') : Option.Rel Hex.Remarks r.callee r'.callee := by
  rw [callee, callee]
  obtain ⟨hr, hr'⟩ | ⟨s, t, hst, hr, hr'⟩ := rel_cases h.recipient
  · rw [hr, hr']
    exact .none
  · rw [hr, hr']
    by_cases hs : s = ""
    · have ht : t = "" := hst.eq_empty_iff.2 hs
      simp only [hs, ht]
      exact .none
    · have ht : t ≠ "" := fun ht => hs (hst.eq_empty_iff.1 ht)
      rw [Option.filter_some_pos (by simpa using hs), Option.filter_some_pos (by simpa using ht)]
      exact .some hst

theorem Respells.functionOf_eq (h : r.Respells r') : functionOf r' = functionOf r := by
  rw [functionOf, functionOf]
  obtain ⟨hr, hr'⟩ | ⟨s, t, hst, hr, hr'⟩ := rel_cases h.rel_callee
  · rw [hr, hr']
  · rw [hr, hr']
    exact hst.bare_eq

theorem Respells.argument_eq (h : r.Respells r') : argument r'.input = argument r.input := by
  rw [argument, argument, input, input]
  obtain ⟨hr, hr'⟩ | ⟨s, t, hst, hr, hr'⟩ := rel_cases h.data
  · rw [hr, hr']
  · rw [hr, hr']
    exact congrArg Utf8.encode hst.bare_eq

end CallRequest

theorem call_of_respells {r r' : CallRequest} (h : r.Respells r') (config : Config) :
    call config r' = call config r := by
  rw [call, call, h.argument_eq]
  obtain ⟨hr, hr'⟩ | ⟨s, t, hst, hr, hr'⟩ := rel_cases h.rel_callee
  · rw [hr, hr']
  · rw [hr, hr']
    simp only [hst.bare_eq]

theorem sendTransaction_of_respells {r r' : CallRequest} (h : r.Respells r') (config : Config) :
    sendTransaction config r' = sendTransaction config r := by
  rw [sendTransaction, sendTransaction, h.functionOf_eq, h.argument_eq]

/-! ### Addresses and hashes -/

section Texts

variable {s t : String}

theorem getCode_of_remarks (h : Hex.Remarks s t) (config : Config) :
    getCode config t = getCode config s := by
  rw [getCode, getCode, argument, argument, h.bare_eq]

theorem getReceipt_of_remarks (h : Hex.Remarks s t) : getReceipt t = getReceipt s := by
  rw [getReceipt, getReceipt, h.bare_eq]

theorem getTransaction_of_remarks (h : Hex.Remarks s t) : getTransaction t = getTransaction s := by
  rw [getTransaction, getTransaction, h.bare_eq]

end Texts

/-! ### Queries for logs -/

/-- The same choice, with its values in other spellings. -/
inductive Choice.Respells (n : Nat) : Choice → Choice → Prop
  | one {s t : String} (h : FixedHex.Respells n s t) : Respells n (.one s) (.one t)
  | anyOf {ss ts : List String} (h : List.Forall₂ (FixedHex.Respells n) ss ts) :
      Respells n (.anyOf ss) (.anyOf ts)

/-- JSON values of a choice, as a text or as a list. -/
inductive ChoiceRel (n : Nat) (j k : Json) : Prop
  | one (h : TextRel (FixedHex.Respells n) j k)
  | anyOf (h : ListRel (TextRel (FixedHex.Respells n)) j k)

section Choice

variable {n : Nat}

theorem Choice.Respells.refl (c : Choice) : c.Respells n c := by
  cases c with
  | one s => exact .one .same
  | anyOf ss => exact .anyOf (List.forall₂_same.2 fun _ _ => .same)

theorem Choice.Respells.alternatives {c d : Choice} (h : c.Respells n d) :
    List.Forall₂ (FixedHex.Respells n) c.alternatives d.alternatives := by
  cases h with
  | one h => exact .cons h .nil
  | anyOf h => exact h

theorem ChoiceRel.eq_null_iff {j k : Json} (h : ChoiceRel n j k) : j = .null ↔ k = .null := by
  cases h with
  | one h => exact h.eq_null_iff
  | anyOf h => exact h.eq_null_iff

theorem rel_choice {j k : Json} (h : ChoiceRel n j k) :
    Option.Rel (Choice.Respells n) (Choice.ofJson? j) (Choice.ofJson? k) := by
  rcases h with (_ | h) | (_ | h)
  · exact rel_refl Choice.Respells.refl _
  · exact .some (.one h)
  · exact rel_refl Choice.Respells.refl _
  · have htext (j k : Json) (h : TextRel (FixedHex.Respells n) j k) :
        Option.Rel (FixedHex.Respells n) j.asText? k.asText? :=
      Json.rel_asText? (fun _ => .same) h
    exact rel_map (rel_mapM htext h) fun _ _ => Choice.Respells.anyOf

end Choice

namespace LogQuery

/-- Bounds, addresses and topics of a query may have other spellings. -/
structure Respells (q q' : LogQuery) : Prop where
  fromBlock : Option.Rel BlockRef.Respells q.fromBlock q'.fromBlock
  toBlock : Option.Rel BlockRef.Respells q.toBlock q'.toBlock
  address : Option.Rel (Choice.Respells 20) q.address q'.address
  topics : Option.Rel (List.Forall₂ (Option.Rel (Choice.Respells 32))) q.topics q'.topics
  blockHash : Option.Rel Eq q.blockHash q'.blockHash

/-- The members of a query, of which all but the hash of a block may differ. -/
def fields : List Json.Field :=
  members.zip [TextRel BlockRef.Respells, TextRel BlockRef.Respells, ChoiceRel 20,
    ListRel (ChoiceRel 32), TextRel Eq]

theorem refl_of_mem_fields : ∀ field ∈ fields, ∀ j, field.2 j j := by
  simp only [fields, members, List.zip_cons_cons, List.zip_nil_right, List.forall_mem_cons,
    List.not_mem_nil, false_implies, implies_true, and_true]
  exact ⟨.same, .same, fun _ => .one (.same _), .same, .same⟩

theorem rel_ofJson? {j k : Json} (h : RecordRel fields j k) :
    Option.Rel Respells (ofJson? j) (ofJson? k) := by
  have haddress (j k : Json) (h : ChoiceRel 20 j k) :
      Option.Rel (Option.Rel (Choice.Respells 20)) (j.asOptional? Choice.ofJson?)
        (k.asOptional? Choice.ofJson?) :=
    Json.rel_asOptional? h.eq_null_iff (rel_choice h)
  have htopics (j k : Json) (h : ListRel (ChoiceRel 32) j k) :
      Option.Rel (Option.Rel (List.Forall₂ (Option.Rel (Choice.Respells 32))))
        (j.asOptional? positionsOfJson?) (k.asOptional? positionsOfJson?) :=
    Json.rel_asOptional? h.eq_null_iff <|
      Json.rel_asList? (fun _ => .one (.same _))
        (fun _ _ h => Json.rel_asOptional? h.eq_null_iff (rel_choice h)) h
  unfold ofJson?
  refine rel_bind (rel_slots? refl_of_mem_fields h) fun vs ws hslots => ?_
  obtain _ | ⟨hfrom, _ | ⟨hto, _ | ⟨ha, _ | ⟨ht, _ | ⟨hhash, _ | _⟩⟩⟩⟩⟩ := hslots
  refine rel_bind (rel_optionalText? BlockRef.Respells.refl hfrom) fun _ _ hfrom => ?_
  refine rel_bind (rel_optionalText? BlockRef.Respells.refl hto) fun _ _ hto => ?_
  refine rel_bind (Json.rel_orElse haddress .none ha) fun _ _ ha => ?_
  refine rel_bind (Json.rel_orElse htopics .none ht) fun _ _ ht => ?_
  refine rel_bind (rel_optionalText? Eq.refl hhash) fun _ _ hhash => ?_
  exact .some ⟨hfrom, hto, ha, ht, hhash⟩

end LogQuery

theorem parseOrLatest_of_respells {s? t? : Option String} (h : Option.Rel BlockRef.Respells s? t?) :
    BlockRef.parseOrLatest t? = BlockRef.parseOrLatest s? := by
  cases h with
  | none => rfl
  | some h => exact h.parse_eq

theorem addresses_of_respells {c? d? : Option Choice} (h : Option.Rel (Choice.Respells 20) c? d?) :
    d?.elim (pure {}) AddressFilter.ofChoice = c?.elim (pure {}) AddressFilter.ofChoice := by
  cases h with
  | none => rfl
  | @some c d h =>
    have hparse : List.Forall₂ (fun s t => checkHex (FixedHex.parse 20 s) =
        checkHex (FixedHex.parse 20 t)) c.alternatives d.alternatives :=
      h.alternatives.imp fun _ _ hst => congrArg checkHex hst.parse_eq.symm
    simp only [Option.elim, AddressFilter.ofChoice, mapM_congr hparse]

section Topics

variable {ss ts : List String} (h : List.Forall₂ (FixedHex.Respells 32) ss ts)
include h

theorem parseTopics_of_respells : TopicsFilter.parseTopics ss = TopicsFilter.parseTopics ts :=
  mapM_congr (h.imp fun _ _ hst => congrArg checkHex hst.parse_eq.symm)

theorem empty_mem_iff_of_respells : "" ∈ ss ↔ "" ∈ ts := by
  induction h with
  | nil => rfl
  | cons hst _ ih =>
    rw [List.mem_cons, List.mem_cons, ih, eq_comm, ← hst.eq_empty_iff, eq_comm]

theorem filter_of_respells :
    List.Forall₂ (FixedHex.Respells 32) (ss.filter (· ≠ "")) (ts.filter (· ≠ "")) :=
  List.rel_filter (fun s t hst => by simp [hst.eq_empty_iff]) h

end Topics

theorem parsePosition_of_respells {c? d? : Option Choice}
    (h : Option.Rel (Choice.Respells 32) c? d?) :
    TopicsFilter.parsePosition c? = TopicsFilter.parsePosition d? := by
  cases h with
  | none => rfl
  | some h =>
    cases h with
    | one h => exact parseTopics_of_respells (.cons h .nil)
    | anyOf h =>
      rw [TopicsFilter.parsePosition, TopicsFilter.parsePosition,
        parseTopics_of_respells (filter_of_respells h)]
      simp only [empty_mem_iff_of_respells h]

theorem topics_of_respells {ps? qs? : Option (List (Option Choice))}
    (h : Option.Rel (List.Forall₂ (Option.Rel (Choice.Respells 32))) ps? qs?) :
    qs?.elim (pure {}) TopicsFilter.ofPositions = ps?.elim (pure {}) TopicsFilter.ofPositions := by
  cases h with
  | none => rfl
  | some h =>
    have hparse := h.imp fun _ _ => parsePosition_of_respells
    simp only [Option.elim, TopicsFilter.ofPositions, mapM_congr hparse]

/-- The checks of a query cannot tell its spellings apart. -/
theorem ofQuery_of_respells {q q' : LogQuery} (h : q.Respells q') :
    LogFilter.ofQuery q' = LogFilter.ofQuery q := by
  have hfrom : q'.fromBlock.isSome = q.fromBlock.isSome := isSome_eq_of_rel h.fromBlock
  have hto : q'.toBlock.isSome = q.toBlock.isSome := isSome_eq_of_rel h.toBlock
  have hhash : q'.blockHash.isSome = q.blockHash.isSome := isSome_eq_of_rel h.blockHash
  rw [LogFilter.ofQuery_eq_ofParts, LogFilter.ofQuery_eq_ofParts, addresses_of_respells h.address,
    topics_of_respells h.topics]
  simp only [LogFilter.ofParts, hfrom, hto, hhash, parseOrLatest_of_respells h.fromBlock,
    parseOrLatest_of_respells h.toBlock]

theorem getLogs_of_respells {q q' : LogQuery} (h : q.Respells q') : getLogs q' = getLogs q := by
  rw [getLogs, getLogs, ofQuery_of_respells h]

end Eth

end LedgerBridge
