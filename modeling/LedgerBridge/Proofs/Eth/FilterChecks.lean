import LedgerBridge.Proofs.Eth.BlockRef
import LedgerBridge.Proofs.Eth.LogFilter
import LedgerBridge.Proofs.Hex.Denotes

/-!
# Which queries for logs are accepted

A query is looked at in seven places, one after the other, and the first fault decides the error.

* `LogQuery.WellFormed`: a query with nothing wrong about it;
* `LogQuery.Fault`: what is wrong in a place, with the error that says so;
* `LogQuery.FirstFault`: the fault in front of which there is none;
* `LogQuery.verdict` is what a place comes to, and `ofQuery_eq_error_iff_mapM`: a query is checked
  by looking at all places in order;
* `ofQuery_outcome`: the queries without faults are accepted, the others fail with their first
  fault.
-/

namespace LedgerBridge.Eth

open FixedHex (Denotes)

/-! ### Texts of a query -/

/-- The texts of a position that must be topics: in a list, those that are not empty. -/
def Choice.topicTexts : Option Choice → List String
  | none => []
  | some (.one s) => [s]
  | some (.anyOf ss) => ss.filter (· ≠ "")

/-- The first of some texts that denotes no `n` bytes. -/
def FirstMalformed (n : Nat) (texts : List String) (s : String) : Prop :=
  ∃ before behind, texts = before ++ s :: behind ∧
    (∀ t ∈ before, ∃ bytes, Denotes n t bytes) ∧ ¬ ∃ bytes, Denotes n s bytes

/-- The places of a query where something may be wrong. -/
inductive Check where
  | hashBesideBounds
  | fromBlock
  | toBlock
  | earliest
  | addresses
  | topics
  | blockHash

/-- The order in which they are looked at. -/
def Check.all : List Check :=
  [.hashBesideBounds, .fromBlock, .toBlock, .earliest, .addresses, .topics, .blockHash]

namespace LogQuery

variable (q : LogQuery)

/-- The texts of a query that must be addresses. -/
def addressTexts : List String := q.address.elim [] Choice.alternatives

/-- The texts of a query that must be topics, position after position. -/
def topicTexts : List String := (q.topics.getD []).flatMap Choice.topicTexts

/-- What is wrong with a query in a place, and the error that says so. -/
inductive Fault : Check → ApiError → Prop
  | hashBesideBounds (hhash : q.blockHash.isSome) (hbound : q.fromBlock.isSome ∨ q.toBlock.isSome) :
      Fault .hashBesideBounds
        (.invalidParams "blockHash cannot be set at the same time as fromBlock or toBlock")
  | fromBlock {s : String} (hs : q.fromBlock = some s) (h : ∀ ref, ¬ BlockRef.Names s ref) :
      Fault .fromBlock (BlockRef.refusal s)
  | toBlock {s : String} (hs : q.toBlock = some s) (h : ∀ ref, ¬ BlockRef.Names s ref) :
      Fault .toBlock (BlockRef.refusal s)
  | earliest {s : String} (hs : q.fromBlock = some s ∨ q.toBlock = some s)
      (h : BlockRef.Names s .earliest) :
      Fault .earliest (.unimplemented "the earliest block cannot bound a log filter")
  | addresses {s : String} (h : FirstMalformed 20 q.addressTexts s) :
      Fault .addresses (.ofHex (FixedHex.flaw 20 s))
  | topics {s : String} (h : FirstMalformed 32 q.topicTexts s) :
      Fault .topics (.ofHex (FixedHex.flaw 32 s))
  | blockHash (h : q.blockHash.isSome) :
      Fault .blockHash (.unimplemented "filtering logs by block hash")

/-- The error is that of a fault, and the places that are looked at before have none. -/
def FirstFault (e : ApiError) : Prop :=
  ∃ before check behind, Check.all = before ++ check :: behind ∧
    (∀ c ∈ before, ∀ e', ¬ q.Fault c e') ∧ q.Fault check e

/-- The query gives no block hash, its bounds are block references other than the earliest block,
and its addresses and topics are some. -/
structure WellFormed : Prop where
  blockHash : q.blockHash = none
  fromBlock (s : String) (hs : q.fromBlock = some s) : ∃ ref, BlockRef.Names s ref ∧ ref ≠ .earliest
  toBlock (s : String) (hs : q.toBlock = some s) : ∃ ref, BlockRef.Names s ref ∧ ref ≠ .earliest
  address (s : String) (hs : s ∈ q.addressTexts) : ∃ bytes, Denotes 20 s bytes
  topic (s : String) (hs : s ∈ q.topicTexts) : ∃ bytes, Denotes 32 s bytes

/-- What it comes to when a query is looked at in a place. -/
def verdict : Check → Except ApiError Unit
  | .hashBesideBounds =>
    if q.blockHash.isSome && (q.fromBlock.isSome || q.toBlock.isSome) then
      .error (.invalidParams "blockHash cannot be set at the same time as fromBlock or toBlock")
    else .ok ()
  | .fromBlock => (fun _ => ()) <$> BlockRef.parseOrLatest q.fromBlock
  | .toBlock => (fun _ => ()) <$> BlockRef.parseOrLatest q.toBlock
  | .earliest =>
    if BlockRef.parseOrLatest q.fromBlock = .ok .earliest ∨
        BlockRef.parseOrLatest q.toBlock = .ok .earliest then
      .error (.unimplemented "the earliest block cannot bound a log filter")
    else .ok ()
  | .addresses => (fun _ => ()) <$> q.address.elim (pure {}) AddressFilter.ofChoice
  | .topics => (fun _ => ()) <$> q.topics.elim (pure {}) TopicsFilter.ofPositions
  | .blockHash =>
    if q.blockHash.isSome then .error (.unimplemented "filtering logs by block hash") else .ok ()

end LogQuery

/-! ### One place -/

section Texts

variable {n : Nat} {texts : List String} {e : ApiError}

theorem exists_checkHex_parse_iff (hn : 0 < n) {s : String} :
    (∃ v, checkHex (FixedHex.parse n s) = .ok v) ↔ ∃ bytes, Denotes n s bytes := by
  simp only [checkHex, mapError_eq_ok, FixedHex.exists_parse_iff hn]

theorem checkHex_parse_eq_error (hn : 0 < n) {s : String} :
    checkHex (FixedHex.parse n s) = .error e ↔
      (¬ ∃ bytes, Denotes n s bytes) ∧ e = .ofHex (FixedHex.flaw n s) := by
  simp only [checkHex, mapError_eq_error, FixedHex.parse_eq_error_iff hn]
  constructor
  · rintro ⟨flaw, ⟨hnone, rfl⟩, rfl⟩
    exact ⟨hnone, rfl⟩
  · rintro ⟨hnone, rfl⟩
    exact ⟨_, ⟨hnone, rfl⟩, rfl⟩

theorem mapM_parse_eq_error (hn : 0 < n) :
    (texts.mapM fun s => checkHex (FixedHex.parse n s)) = .error e ↔
      ∃ s, FirstMalformed n texts s ∧ e = .ofHex (FixedHex.flaw n s) := by
  simp only [mapM_eq_error, exists_checkHex_parse_iff hn, checkHex_parse_eq_error hn,
    FirstMalformed]
  constructor
  · rintro ⟨before, s, behind, heq, hbefore, hnone, he⟩
    exact ⟨s, ⟨before, behind, heq, hbefore, hnone⟩, he⟩
  · rintro ⟨s, ⟨before, behind, heq, hbefore, hnone⟩, he⟩
    exact ⟨before, s, behind, heq, hbefore, hnone, he⟩

/-- Without a first text that denotes nothing, all of them denote something. -/
theorem forall_not_firstMalformed (hn : 0 < n) :
    (∀ s, ¬ FirstMalformed n texts s) ↔ ∀ s ∈ texts, ∃ bytes, Denotes n s bytes := by
  simp only [← exists_checkHex_parse_iff hn]
  rw [← exists_mapM_eq_ok, exists_ok_iff]
  simp only [ne_eq, mapM_parse_eq_error hn, not_exists, not_and]
  exact ⟨fun h _ s hs _ => h s hs, fun h s hs => h _ s hs rfl⟩

end Texts

section Places

variable {q : LogQuery} {e : ApiError}

theorem parseOrLatest_eq_error {s? : Option String} : BlockRef.parseOrLatest s? = .error e ↔
    ∃ s, s? = some s ∧ (∀ ref, ¬ BlockRef.Names s ref) ∧ e = BlockRef.refusal s := by
  cases s? with
  | none => simp [BlockRef.parseOrLatest]
  | some s => simp [BlockRef.parseOrLatest, BlockRef.parse_eq_error_iff]

theorem parseOrLatest_eq_earliest {s? : Option String} :
    BlockRef.parseOrLatest s? = .ok .earliest ↔
      ∃ s, s? = some s ∧ BlockRef.Names s .earliest := by
  cases s? with
  | none => simp [BlockRef.parseOrLatest]
  | some s => simp [BlockRef.parseOrLatest, BlockRef.parse_eq_ok_iff]

theorem addresses_eq_error :
    q.address.elim (pure {}) AddressFilter.ofChoice = .error e ↔
      ∃ s, FirstMalformed 20 q.addressTexts s ∧ e = .ofHex (FixedHex.flaw 20 s) := by
  rw [← mapM_parse_eq_error (by decide), LogQuery.addressTexts]
  cases q.address with
  | none => simp
  | some c => exact map_eq_error

theorem parsePosition_eq_error {c? : Option Choice} :
    TopicsFilter.parsePosition c? = .error e ↔
      TopicsFilter.parseTopics (Choice.topicTexts c?) = .error e := by
  rcases c? with _ | (s | ss)
  · simp [TopicsFilter.parsePosition, Choice.topicTexts, TopicsFilter.parseTopics]
  · rfl
  · simp only [TopicsFilter.parsePosition, Choice.topicTexts, bind_pure_comp, map_eq_error]

theorem topics_eq_error :
    q.topics.elim (pure {}) TopicsFilter.ofPositions = .error e ↔
      ∃ s, FirstMalformed 32 q.topicTexts s ∧ e = .ofHex (FixedHex.flaw 32 s) := by
  rw [← mapM_parse_eq_error (by decide), LogQuery.topicTexts]
  cases q.topics with
  | none => simp
  | some positions =>
    exact map_eq_error.trans (mapM_eq_error_iff_flatMap fun _ _ => parsePosition_eq_error)

/-- A place has the error of its fault. -/
theorem verdict_eq_error {c : Check} : q.verdict c = .error e ↔ q.Fault c e := by
  constructor
  · intro h
    cases c with
    | hashBesideBounds =>
      obtain ⟨hboth, rfl⟩ := ite_eq_error.1 h
      rw [Bool.and_eq_true, Bool.or_eq_true] at hboth
      exact .hashBesideBounds hboth.1 hboth.2
    | fromBlock =>
      obtain ⟨s, hs, hnone, rfl⟩ := parseOrLatest_eq_error.1 (map_eq_error.1 h)
      exact .fromBlock hs hnone
    | toBlock =>
      obtain ⟨s, hs, hnone, rfl⟩ := parseOrLatest_eq_error.1 (map_eq_error.1 h)
      exact .toBlock hs hnone
    | earliest =>
      obtain ⟨hearliest, rfl⟩ := ite_eq_error.1 h
      simp only [parseOrLatest_eq_earliest] at hearliest
      rcases hearliest with ⟨s, hs, hnames⟩ | ⟨s, hs, hnames⟩
      · exact .earliest (.inl hs) hnames
      · exact .earliest (.inr hs) hnames
    | addresses =>
      obtain ⟨s, hs, rfl⟩ := addresses_eq_error.1 (map_eq_error.1 h)
      exact .addresses hs
    | topics =>
      obtain ⟨s, hs, rfl⟩ := topics_eq_error.1 (map_eq_error.1 h)
      exact .topics hs
    | blockHash =>
      obtain ⟨hhash, rfl⟩ := ite_eq_error.1 h
      exact .blockHash hhash
  · rintro (⟨hhash, hbound⟩ | ⟨hs, h⟩ | ⟨hs, h⟩ | ⟨hs, h⟩ | h | h | h)
    · exact ite_eq_error.2 ⟨by simp [hhash, hbound], rfl⟩
    · exact map_eq_error.2 (parseOrLatest_eq_error.2 ⟨_, hs, h, rfl⟩)
    · exact map_eq_error.2 (parseOrLatest_eq_error.2 ⟨_, hs, h, rfl⟩)
    · refine ite_eq_error.2 ⟨?_, rfl⟩
      simp only [parseOrLatest_eq_earliest]
      exact hs.imp (fun hs => ⟨_, hs, h⟩) fun hs => ⟨_, hs, h⟩
    · exact map_eq_error.2 (addresses_eq_error.2 ⟨_, h, rfl⟩)
    · exact map_eq_error.2 (topics_eq_error.2 ⟨_, h, rfl⟩)
    · exact ite_eq_error.2 ⟨h, rfl⟩

end Places

/-! ### All places -/

section Queries

variable {q : LogQuery} {e : ApiError}

/-- Checking a query is looking at all places in their order. -/
theorem map_ofQuery (q : LogQuery) :
    (fun _ => ()) <$> LogFilter.ofQuery q = (fun _ => ()) <$> Check.all.mapM q.verdict := by
  rw [LogFilter.ofQuery_eq_ofParts, LogFilter.ofParts]
  simp only [Check.all, List.mapM_cons, List.mapM_nil, LogQuery.verdict]
  -- the places are looked at one after the other, and the first error ends both sides
  by_cases hhash : (q.blockHash.isSome && (q.fromBlock.isSome || q.toBlock.isSome)) = true
  · rw [if_pos hhash, if_pos hhash]
    rfl
  rw [if_neg hhash, if_neg hhash]
  cases BlockRef.parseOrLatest q.fromBlock with
  | error e => rfl
  | ok first =>
    cases BlockRef.parseOrLatest q.toBlock with
    | error e => rfl
    | ok last =>
      simp only [ok_bind, map_ok, Except.ok.injEq]
      by_cases hearliest : first = .earliest ∨ last = .earliest
      · rw [if_pos hearliest, if_pos hearliest]
        rfl
      rw [if_neg hearliest, if_neg hearliest]
      cases q.address.elim (pure {}) AddressFilter.ofChoice with
      | error e => rfl
      | ok addresses =>
        cases q.topics.elim (pure {}) TopicsFilter.ofPositions with
        | error e => rfl
        | ok topics => cases q.blockHash <;> rfl

theorem ofQuery_eq_error_iff_mapM :
    LogFilter.ofQuery q = .error e ↔ Check.all.mapM q.verdict = .error e := by
  rw [← map_eq_error (g := fun _ => ()), map_ofQuery, map_eq_error]

theorem ofQuery_eq_error_iff : LogFilter.ofQuery q = .error e ↔ q.FirstFault e := by
  rw [ofQuery_eq_error_iff_mapM, mapM_eq_error]
  simp only [exists_ok_iff, ne_eq, verdict_eq_error, LogQuery.FirstFault]

theorem Check.mem_all (c : Check) : c ∈ Check.all := by
  cases c <;> simp [Check.all]

/-- A bound without faults names a block that is not the earliest. -/
theorem exists_names {s : String} (h : ¬ ∀ ref, ¬ BlockRef.Names s ref)
    (hearliest : ¬ BlockRef.Names s .earliest) : ∃ ref, BlockRef.Names s ref ∧ ref ≠ .earliest := by
  obtain ⟨ref, href⟩ := not_forall_not.1 h
  refine ⟨ref, href, ?_⟩
  rintro rfl
  exact hearliest href

/-- A query is well formed if no place of it has a fault. -/
theorem wellFormed_iff : q.WellFormed ↔ ∀ c e, ¬ q.Fault c e := by
  constructor
  · rintro hq c e (⟨hhash, -⟩ | ⟨hs, hnone⟩ | ⟨hs, hnone⟩ | ⟨hs, hnames⟩ | hfirst | hfirst | hhash)
    · rw [hq.blockHash] at hhash
      cases hhash
    · obtain ⟨ref, href, -⟩ := hq.fromBlock _ hs
      exact hnone ref href
    · obtain ⟨ref, href, -⟩ := hq.toBlock _ hs
      exact hnone ref href
    · obtain ⟨ref, href, hne⟩ := hs.elim (hq.fromBlock _) (hq.toBlock _)
      exact hne (href.unique hnames)
    · exact (forall_not_firstMalformed (by decide)).2 hq.address _ hfirst
    · exact (forall_not_firstMalformed (by decide)).2 hq.topic _ hfirst
    · rw [hq.blockHash] at hhash
      cases hhash
  · intro h
    refine ⟨?_, fun s hs => ?_, fun s hs => ?_, ?_, ?_⟩
    · by_contra hhash
      exact h _ _ (.blockHash (Option.isSome_iff_ne_none.2 hhash))
    · exact exists_names (fun hnone => h _ _ (.fromBlock hs hnone))
        fun hnames => h _ _ (.earliest (.inl hs) hnames)
    · exact exists_names (fun hnone => h _ _ (.toBlock hs hnone))
        fun hnames => h _ _ (.earliest (.inr hs) hnames)
    · exact (forall_not_firstMalformed (by decide)).1 fun s hs => h _ _ (.addresses hs)
    · exact (forall_not_firstMalformed (by decide)).1 fun s hs => h _ _ (.topics hs)

/-- **The queries without faults are accepted, and the others fail with their first fault.** -/
theorem ofQuery_outcome (q : LogQuery) :
    ((∃ f, LogFilter.ofQuery q = .ok f) ↔ q.WellFormed) ∧
    ∀ e, LogFilter.ofQuery q = .error e ↔ q.FirstFault e := by
  refine ⟨?_, fun e => ofQuery_eq_error_iff⟩
  rw [exists_ok_iff, wellFormed_iff]
  simp only [ne_eq, ofQuery_eq_error_iff_mapM]
  rw [← exists_ok_iff, exists_mapM_eq_ok]
  simp only [exists_ok_iff, ne_eq, verdict_eq_error, Check.mem_all, true_imp_iff]

/-- An empty topic stands for any topic only in a list, and the block hash is looked at last. -/
example : LogFilter.ofQuery { topics := some [some (.one "")], blockHash := some "0x01" } =
    .error (.ofHex (.invalidLength 64 0 "")) := by
  decide +kernel

end Queries

end LedgerBridge.Eth
