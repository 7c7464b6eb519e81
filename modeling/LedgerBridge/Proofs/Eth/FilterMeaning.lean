import LedgerBridge.Proofs.Eth.LogFilter
import LedgerBridge.Proofs.Hex.Denotes

/-!
# What an accepted query lets through

A query that is accepted is kept as the values of its texts, without the empty alternatives, and
what is left of a position says whether it accepts any topic. Here is what the query says in terms
of its texts.

* `Choice.Lists`: a text of the choice denotes what a text of the ledger denotes;
* `AnyAddress` and `AnyTopic`: the parts of a query that every log passes;
* `accepts_of_ofChoice`, `acceptsAt_iff`, `accepts_of_ofPositions`: the parts of a filter;
* `LogQuery.Admits` puts them together, and `accepts_iff_admits` says that the filter of a query
  follows it. So only the texts of a choice matter (`Choice.SameTexts`), and what denotes nothing
  passes no list.
-/

namespace LedgerBridge.Eth

open FixedHex (Denotes)

/-! ### What a query says -/

/-- Some text of the choice denotes the same `n` bytes as a text of the ledger. -/
def Choice.Lists (n : Nat) (c : Choice) (s : String) : Prop :=
  ∃ t ∈ c.alternatives, ∃ bytes, Denotes n t bytes ∧ Denotes n s bytes

/-- The query asks for logs of any emitter. -/
inductive AnyAddress : Option Choice → Prop
  | absent : AnyAddress none
  | empty : AnyAddress (some (.anyOf []))

/-- The query asks for any topic at a position. -/
inductive AnyTopic : Option Choice → Prop
  | null : AnyTopic none
  | empty : AnyTopic (some (.anyOf []))
  | blank {ss : List String} (h : "" ∈ ss) : AnyTopic (some (.anyOf ss))

/-- The query, read as its texts stand there, asks for this log: its address is listed, it has a
topic at each position of the query, and these topics are listed there. -/
structure LogQuery.Admits (q : LogQuery) (event : Ledger.EventRecord) : Prop where
  address : AnyAddress q.address ∨ ∃ c, q.address = some c ∧ c.Lists 20 event.address
  length_le : (q.topics.getD []).length ≤ event.topics.length
  topic (i : Nat) (c? : Option Choice) (topic : String) (hc : (q.topics.getD [])[i]? = some c?)
    (htopic : event.topics[i]? = some topic) :
    AnyTopic c? ∨ ∃ c, c? = some c ∧ c.Lists 32 topic

/-- The same texts may be chosen from, in whatever order and however often they stand there. -/
def Choice.SameTexts (c d : Choice) : Prop := ∀ s, s ∈ c.alternatives ↔ s ∈ d.alternatives

/-- The queries have the same choices, for the address and at each position. -/
structure LogQuery.SameChoices (q r : LogQuery) : Prop where
  address : Option.Rel Choice.SameTexts q.address r.address
  topics : List.Forall₂ (Option.Rel Choice.SameTexts) (q.topics.getD []) (r.topics.getD [])

/-! ### Choices -/

section Choices

variable {n : Nat} {ss : List String} {values : List (FixedHex n)} {s : String}

/-- What is denoted by a listed value is listed by its text. -/
theorem any_denotedBy_iff (hn : 0 < n)
    (h : (ss.mapM fun t => checkHex (FixedHex.parse n t)) = .ok values) :
    values.any (·.denotedBy s) = true ↔
      ∃ t ∈ ss, ∃ bytes, Denotes n t bytes ∧ Denotes n s bytes := by
  simp only [List.any_eq_true, FixedHex.denotedBy_iff hn]
  constructor
  · rintro ⟨v, hv, hs⟩
    obtain ⟨t, ht, htv⟩ := exists_of_mem_mapM h hv
    exact ⟨t, ht, v.bytes, (FixedHex.parse_eq_ok_iff hn).1 (mapError_eq_ok.1 htv), hs⟩
  · rintro ⟨t, ht, bytes, htbytes, hs⟩
    obtain ⟨v, hv, htv⟩ := exists_mem_of_mapM h ht
    have hparse : FixedHex.parse n t = .ok ⟨bytes, htbytes.1⟩ :=
      (FixedHex.parse_eq_ok_iff hn).2 htbytes
    obtain rfl := Except.ok.inj ((mapError_eq_ok.1 htv).symm.trans hparse)
    exact ⟨_, hv, hs⟩

end Choices

/-! ### Addresses -/

section Addresses

variable {c : Choice} {f : AddressFilter} {s : String}

theorem accepts_of_ofChoice (h : AddressFilter.ofChoice c = .ok f) :
    f.accepts s = true ↔ c.alternatives = [] ∨ c.Lists 20 s := by
  obtain ⟨values, hvalues, rfl⟩ := map_eq_ok.1 h
  rw [AddressFilter.accepts, Bool.or_eq_true, List.isEmpty_iff, eq_nil_iff_of_mapM hvalues,
    any_denotedBy_iff (by decide) hvalues, Choice.Lists]

theorem anyAddress_iff : AnyAddress (some c) ↔ c.alternatives = [] := by
  constructor
  · rintro ⟨⟩
    rfl
  · intro h
    cases c with
    | one t => cases h
    | anyOf ss =>
      obtain rfl : ss = [] := h
      exact .empty

theorem accepts_of_address {c? : Option Choice}
    (h : c?.elim (pure {}) AddressFilter.ofChoice = .ok f) :
    f.accepts s = true ↔ AnyAddress c? ∨ ∃ c, c? = some c ∧ c.Lists 20 s := by
  cases c? with
  | none =>
    cases h
    simp [AddressFilter.accepts, AnyAddress.absent]
  | some c =>
    rw [accepts_of_ofChoice h, anyAddress_iff]
    simp

end Addresses

/-! ### Topics -/

section Topics

variable {c? : Option Choice} {alternatives : List Topic} {s : String}

/-- Of the parts of a position that are accepted, the empty ones and those with an empty text let
any topic through. -/
theorem anyTopic_iff {c : Choice} (h : TopicsFilter.parsePosition (some c) = .ok alternatives) :
    AnyTopic (some c) ↔ c.alternatives = [] ∨ "" ∈ c.alternatives := by
  cases c with
  | one t =>
    obtain ⟨v, hv⟩ := exists_mapM_eq_ok.1 ⟨alternatives, h⟩ t (List.mem_singleton.2 rfl)
    have ht : "" ≠ t := (FixedHex.ne_of_parse (mapError_eq_ok.1 hv)
      (FixedHex.toOption_parse_empty (by decide))).symm
    simp only [Choice.alternatives, List.mem_singleton, ht]
    simp
    rintro ⟨⟩
  | anyOf ss =>
    constructor
    · rintro ⟨⟩
      · exact .inl rfl
      · next h => exact .inr h
    · rintro (h | h)
      · obtain rfl : ss = [] := h
        exact .empty
      · exact .blank h

theorem acceptsAt_of_parseTopics {ss : List String}
    (h : TopicsFilter.parseTopics ss = .ok alternatives) :
    TopicsFilter.acceptsAt alternatives s = true ↔
      ss = [] ∨ ∃ t ∈ ss, ∃ bytes, Denotes 32 t bytes ∧ Denotes 32 s bytes := by
  rw [TopicsFilter.acceptsAt, Bool.or_eq_true, List.isEmpty_iff, eq_nil_iff_of_mapM h,
    any_denotedBy_iff (by decide) h]

theorem acceptsAt_iff (h : TopicsFilter.parsePosition c? = .ok alternatives) :
    TopicsFilter.acceptsAt alternatives s = true ↔
      AnyTopic c? ∨ ∃ c, c? = some c ∧ c.Lists 32 s := by
  rcases c? with _ | (t | ss)
  · cases h
    simp [TopicsFilter.acceptsAt, AnyTopic.null]
  · have hany : ¬ AnyTopic (some (.one t)) := by rintro ⟨⟩
    rw [acceptsAt_of_parseTopics h]
    simp [hany, Choice.Lists, Choice.alternatives]
  · obtain ⟨topics, htopics, hresult⟩ := bind_eq_ok.1 h
    by_cases hblank : "" ∈ ss
    · rw [if_pos hblank] at hresult
      cases hresult
      simp [TopicsFilter.acceptsAt, AnyTopic.blank hblank]
    · have hfilter : ss.filter (· ≠ "") = ss :=
        List.filter_eq_self.2 fun t ht => decide_eq_true (ne_of_mem_of_not_mem ht hblank)
      rw [if_neg hblank] at hresult
      cases hresult
      rw [hfilter] at htopics
      rw [acceptsAt_of_parseTopics htopics, anyTopic_iff h]
      simp [Choice.Lists, Choice.alternatives, hblank]

/-- A log passes the topics of a query exactly if it has a topic at each position, and that is one
of those which are asked for there. -/
theorem accepts_of_ofPositions {positions : List (Option Choice)} {f : TopicsFilter}
    (h : TopicsFilter.ofPositions positions = .ok f) (topics : List String) :
    f.accepts topics = true ↔ positions.length ≤ topics.length ∧
      ∀ (i : Nat) c? topic, positions[i]? = some c? → topics[i]? = some topic →
        AnyTopic c? ∨ ∃ c, c? = some c ∧ c.Lists 32 topic := by
  obtain ⟨values, hvalues, rfl⟩ := map_eq_ok.1 h
  have hrun := mapM_eq_ok.1 hvalues
  rw [TopicsFilter.accepts, Bool.and_eq_true, decide_eq_true_eq, ← hrun.length_eq,
    List.all_eq_true]
  refine and_congr_right fun _ => ⟨fun hall i c? topic hc htopic => ?_, fun hall p hp => ?_⟩
  · obtain ⟨hi, rfl⟩ := List.getElem?_eq_some_iff.1 hc
    have hi' : i < values.length := hrun.length_eq ▸ hi
    have hmem : (values[i], topic) ∈ values.zip topics :=
      List.mem_of_getElem? (List.getElem?_zip_eq_some.2 ⟨List.getElem?_eq_getElem hi', htopic⟩)
    exact (acceptsAt_iff (hrun.get hi hi')).1 (hall _ hmem)
  · obtain ⟨i, hi⟩ := List.mem_iff_getElem?.1 hp
    obtain ⟨hvalue, htopic⟩ := List.getElem?_zip_eq_some.1 hi
    obtain ⟨hi', heq⟩ := List.getElem?_eq_some_iff.1 hvalue
    have hi := hrun.length_eq.symm ▸ hi'
    have hat := hrun.get hi hi'
    rw [← heq]
    exact (acceptsAt_iff hat).2 (hall i _ _ (List.getElem?_eq_getElem hi) htopic)

theorem accepts_of_topics {positions? : Option (List (Option Choice))} {f : TopicsFilter}
    (h : positions?.elim (pure {}) TopicsFilter.ofPositions = .ok f) (topics : List String) :
    f.accepts topics = true ↔ (positions?.getD []).length ≤ topics.length ∧
      ∀ (i : Nat) c? topic, (positions?.getD [])[i]? = some c? → topics[i]? = some topic →
        AnyTopic c? ∨ ∃ c, c? = some c ∧ c.Lists 32 topic := by
  refine accepts_of_ofPositions ?_ topics
  cases positions? with
  | none => exact h
  | some positions => exact h

end Topics

/-! ### Queries -/

section Queries

variable {q r : LogQuery} {f : LogFilter}

/-- A filter has the parts of its query. -/
theorem LogFilter.parts_of_ofQuery (h : ofQuery q = .ok f) :
    q.address.elim (pure {}) AddressFilter.ofChoice = .ok f.addresses ∧
      q.topics.elim (pure {}) TopicsFilter.ofPositions = .ok f.topics := by
  rw [ofQuery_eq_ofParts, ofParts] at h
  split at h
  · cases h
  · obtain ⟨first, -, h⟩ := bind_eq_ok.1 h
    obtain ⟨last, -, h⟩ := bind_eq_ok.1 h
    split at h
    · cases h
    · obtain ⟨addresses, haddresses, h⟩ := bind_eq_ok.1 h
      obtain ⟨topics, htopics, h⟩ := bind_eq_ok.1 h
      split at h
      · cases h
      · cases h
        exact ⟨haddresses, htopics⟩

theorem accepts_iff (h : LogFilter.ofQuery q = .ok f) (event : Ledger.EventRecord) :
    f.accepts event = true ↔ q.Admits event := by
  obtain ⟨haddress, htopics⟩ := LogFilter.parts_of_ofQuery h
  rw [LogFilter.accepts, LogFilter.acceptsLog, Bool.and_eq_true, accepts_of_address haddress,
    accepts_of_topics htopics]
  constructor
  · rintro ⟨ha, hlen, ht⟩
    exact ⟨ha, hlen, ht⟩
  · rintro ⟨ha, hlen, ht⟩
    exact ⟨ha, hlen, ht⟩

/-! ### The same choices -/

theorem Choice.SameTexts.lists_iff {c d : Choice} (h : c.SameTexts d) {n : Nat} {s : String} :
    c.Lists n s ↔ d.Lists n s :=
  exists_congr fun t => and_congr_left fun _ => h t

theorem Choice.SameTexts.eq_nil_iff {c d : Choice} (h : c.SameTexts d) :
    c.alternatives = [] ↔ d.alternatives = [] := by
  rw [List.eq_nil_iff_forall_not_mem, List.eq_nil_iff_forall_not_mem]
  exact forall_congr' fun s => not_congr (h s)

theorem address_iff_of_rel {c? d? : Option Choice} (h : Option.Rel Choice.SameTexts c? d?)
    {s : String} : (AnyAddress c? ∨ ∃ c, c? = some c ∧ c.Lists 20 s) ↔
      AnyAddress d? ∨ ∃ d, d? = some d ∧ d.Lists 20 s := by
  cases h with
  | none => rfl
  | some h =>
    rw [anyAddress_iff, anyAddress_iff, h.eq_nil_iff]
    simp [h.lists_iff]

/-- A single text and the list of it differ when it is empty, but then only the list is accepted. -/
theorem topic_iff_of_rel {c? d? : Option Choice} (h : Option.Rel Choice.SameTexts c? d?)
    (hc : ∃ v, TopicsFilter.parsePosition c? = .ok v)
    (hd : ∃ v, TopicsFilter.parsePosition d? = .ok v) {s : String} :
    (AnyTopic c? ∨ ∃ c, c? = some c ∧ c.Lists 32 s) ↔
      AnyTopic d? ∨ ∃ d, d? = some d ∧ d.Lists 32 s := by
  obtain ⟨v, hc⟩ := hc
  obtain ⟨w, hd⟩ := hd
  cases h with
  | none => rfl
  | some h =>
    rw [anyTopic_iff hc, anyTopic_iff hd, h.eq_nil_iff, h ""]
    simp [h.lists_iff]

theorem exists_parsePosition {positions? : Option (List (Option Choice))} {f : TopicsFilter}
    (h : positions?.elim (pure {}) TopicsFilter.ofPositions = .ok f) {c? : Option Choice}
    (hc : c? ∈ positions?.getD []) : ∃ v, TopicsFilter.parsePosition c? = .ok v := by
  cases positions? with
  | none => cases hc
  | some positions =>
    obtain ⟨values, hvalues, -⟩ := map_eq_ok.1 h
    exact exists_mapM_eq_ok.1 ⟨values, hvalues⟩ c? hc

theorem LogQuery.SameChoices.symm (h : q.SameChoices r) : r.SameChoices q := by
  have hsymm {c? d? : Option Choice} (h : Option.Rel Choice.SameTexts c? d?) :
      Option.Rel Choice.SameTexts d? c? := by
    cases h with
    | none => exact .none
    | some h => exact .some fun s => (h s).symm
  exact ⟨hsymm h.address, List.Forall₂.flip (h.topics.imp fun _ _ => hsymm)⟩

/-- Accepted queries with the same choices ask for the same logs. -/
theorem LogQuery.Admits.of_sameChoices {g : LogFilter} {event : Ledger.EventRecord}
    (hadmits : q.Admits event) (hq : LogFilter.ofQuery q = .ok f)
    (hr : LogFilter.ofQuery r = .ok g) (h : q.SameChoices r) : r.Admits event := by
  have hqtopics := (LogFilter.parts_of_ofQuery hq).2
  have hrtopics := (LogFilter.parts_of_ofQuery hr).2
  have hlen := h.topics.length_eq
  refine ⟨(address_iff_of_rel h.address).1 hadmits.address, hlen ▸ hadmits.length_le,
    fun i d? topic hd htopic => ?_⟩
  obtain ⟨hi, rfl⟩ := List.getElem?_eq_some_iff.1 hd
  have hi' := hlen.symm ▸ hi
  have hposition := hadmits.topic i _ topic (List.getElem?_eq_getElem hi') htopic
  exact (topic_iff_of_rel (h.topics.get hi' hi)
    (exists_parsePosition hqtopics (List.getElem_mem hi'))
    (exists_parsePosition hrtopics (List.getElem_mem hi))).1 hposition

/-- **The filter of a query lets through what the query asks for.** So another query with the same
choices lets the same logs through, be a text given alone or in a list, and the list in any order
and with repetitions. A text of a log that denotes nothing passes only where anything does. -/
theorem accepts_iff_admits (h : LogFilter.ofQuery q = .ok f) :
    (∀ event, f.accepts event = true ↔ q.Admits event) ∧
    (∀ r g, LogFilter.ofQuery r = .ok g → q.SameChoices r →
      ∀ event, g.accepts event = f.accepts event) ∧
    ∀ event, f.accepts event = true →
      ((¬ ∃ bytes, Denotes 20 event.address bytes) → AnyAddress q.address) ∧
      ∀ (i : Nat) c? topic, (q.topics.getD [])[i]? = some c? → event.topics[i]? = some topic →
        (¬ ∃ bytes, Denotes 32 topic bytes) → AnyTopic c? := by
  refine ⟨accepts_iff h, fun r g hr hsame event => ?_, fun event hevent => ?_⟩
  · rw [Bool.eq_iff_iff, accepts_iff hr, accepts_iff h]
    exact ⟨fun hadmits => hadmits.of_sameChoices hr h hsame.symm,
      fun hadmits => hadmits.of_sameChoices h hr hsame⟩
  · obtain ⟨haddress, -, htopic⟩ := (accepts_iff h event).1 hevent
    refine ⟨fun hnone => ?_, fun i c? topic hc hget hnone => ?_⟩
    · exact haddress.resolve_right fun ⟨c, _, t, _, bytes, _, hbytes⟩ => hnone ⟨bytes, hbytes⟩
    · exact (htopic i c? topic hc hget).resolve_right fun ⟨c, _, t, _, bytes, _, hbytes⟩ =>
        hnone ⟨bytes, hbytes⟩

end Queries

/-- The address is written in another case, and the second position has an empty text in its
list. -/
theorem accepts_iff_admits_mixed :
    LogQuery.Admits
      { address := some (.one "0x82373458164820947891ABCDEFabcdefabcdefab")
        topics := some [none, some (.anyOf [""])] }
      ⟨"82373458164820947891abcdefabcdefabcdefab", ["none", ""], ""⟩ ∧
    ¬ LogQuery.Admits
      { address := some (.one "0x82373458164820947891ABCDEFabcdefabcdefab")
        topics := some [none, some (.anyOf [""])] }
      ⟨"82373458164820947891abcdefabcdefabcdefab", ["none"], ""⟩ := by
  have hok : (LogFilter.ofQuery
      { address := some (.one "0x82373458164820947891ABCDEFabcdefabcdefab")
        topics := some [none, some (.anyOf [""])] }).map
      (fun f => (f.accepts ⟨"82373458164820947891abcdefabcdefabcdefab", ["none", ""], ""⟩,
        f.accepts ⟨"82373458164820947891abcdefabcdefabcdefab", ["none"], ""⟩)) =
      .ok (true, false) := by decide +kernel
  obtain ⟨f, hf, haccepts⟩ := map_eq_ok.1 hok
  obtain ⟨htwo, hone⟩ := Prod.mk.inj haccepts
  obtain ⟨hadmits, -, -⟩ := accepts_iff_admits hf
  refine ⟨(hadmits _).1 htwo, fun h => ?_⟩
  rw [(hadmits _).2 h] at hone
  cases hone

end LedgerBridge.Eth
