import LedgerBridge.Eth.LogScan
import LedgerBridge.Proofs.Eth.Service
import LedgerBridge.Proofs.Hex.Fixed
import LedgerBridge.Proofs.Ledger.Chain

/-!
# Filtering logs after the scan

A filter looks at the texts of the chaincode, clients see those texts behind the mark. Both say the
same about a log (`passes_log`), so it does not matter whether logs are filtered during the scan of
the chain or afterwards: with a filter, a scan is the scan without one, followed by the filter, step
by step (`slotLogs_eq`, `blockLogs_eq`, `scan_eq`, `getLogs_eq`).
-/

namespace LedgerBridge.Eth

open Ledger (Answers)
open Service (check_ok check_map)

/-- Whether a log as it is shown passes both filters. -/
def passes (addresses : AddressFilter) (topics : TopicsFilter) (log : Log) : Bool :=
  addresses.accepts log.address && topics.accepts log.topics

theorem AddressFilter.accepts_remarked (f : AddressFilter) (address : String) :
    f.accepts (remarked address) = f.accepts address := by
  have h (v : Address) : v.denotedBy (remarked address) = v.denotedBy address :=
    FixedHex.denotedBy_marked_bare (by decide) v address
  simp only [AddressFilter.accepts, h]

theorem TopicsFilter.acceptsAt_remarked (alternatives : List Topic) (topic : String) :
    acceptsAt alternatives (remarked topic) = acceptsAt alternatives topic := by
  have h (v : Topic) : v.denotedBy (remarked topic) = v.denotedBy topic :=
    FixedHex.denotedBy_marked_bare (by decide) v topic
  simp only [acceptsAt, h]

theorem TopicsFilter.accepts_remarked (f : TopicsFilter) (topics : List String) :
    f.accepts (topics.map remarked) = f.accepts topics := by
  simp only [TopicsFilter.accepts, List.length_map, List.zip_map_right, List.all_map,
    Function.comp_def, Prod.map, id, acceptsAt_remarked]

/-- A log passes as it is shown exactly if its event passes as it was emitted. -/
theorem passes_log (addresses : AddressFilter) (topics : TopicsFilter) (place : Place)
    (event : Ledger.EventRecord) (position : Nat) :
    passes addresses topics (place.log event position) =
      LogFilter.acceptsLog addresses topics event := by
  simp only [passes, LogFilter.acceptsLog, Place.log, AddressFilter.accepts_remarked,
    TopicsFilter.accepts_remarked]

section Scan

variable {f g : LogFilter} (hg : ∀ event, g.accepts event = true)
include hg

theorem eventLogs_eq (place : Place) (events : List Ledger.EventRecord) :
    eventLogs f place events = (eventLogs g place events).filter (passes f.addresses f.topics) := by
  simp only [eventLogs, hg, List.filter_true, List.filter_map, Function.comp_def, passes_log]
  rfl

theorem slotLogs_eq (block : Ledger.Block) (summary : BlockSummary) (slot : Nat) (raw : Bytes) :
    slotLogs f block summary slot raw =
      List.filter (passes f.addresses f.topics) <$> slotLogs g block summary slot raw := by
  unfold slotLogs
  cases checkDecode (block.isValid slot) with
  | error e => rfl
  | ok valid =>
    cases valid with
    | false => rfl
    | true =>
      simp only [ok_bind, if_true]
      cases checkDecode (Ledger.decodeTransaction raw) with
      | error e => rfl
      | ok t =>
        simp only [ok_bind]
        cases checkEvents (Ledger.decodeEvents t.events) with
        | error e => rfl
        | ok events => simp only [ok_bind, pure_eq_ok, map_ok, eventLogs_eq (f := f) hg]

theorem blockLogs_eq (block : Ledger.Block) :
    blockLogs f block = List.filter (passes f.addresses f.topics) <$> blockLogs g block := by
  unfold blockLogs
  cases BlockSummary.ofBlock block with
  | error e => rfl
  | ok summary =>
    simp only [ok_bind, slotLogs_eq (f := f) hg, mapM_map]
    cases block.transactions.mapM fun p => slotLogs g block summary p.1 p.2 with
    | error e => rfl
    | ok logs => simp only [map_ok, ok_bind, pure_eq_ok, List.filter_flatten]

theorem scan_eq (count : Nat) (number : UInt64) :
    scan f count number = List.filter (passes f.addresses f.topics) <$> scan g count number := by
  induction count generalizing number with
  | zero => simp [scan]
  | succ count ih =>
    rw [scan, scan, map_bind]
    refine bind_congr fun block => ?_
    -- filtering the logs of this block and those of the others is filtering them together
    rw [blockLogs_eq (f := f) hg, check_map, ih]
    simp only [map_bind, bind_map_left, map_pure, List.filter_append]

end Scan

/-! ### Queries -/

/-- The query for all logs between the same bounds. -/
def LogQuery.unfiltered (q : LogQuery) : LogQuery := { q with address := none, topics := none }

/-- The checks of a query, once its addresses and topics have been looked at. -/
def LogFilter.ofParts (blockHash fromBlock toBlock : Option String)
    (addresses : Except ApiError AddressFilter) (topics : Except ApiError TopicsFilter) :
    Except ApiError LogFilter :=
  if blockHash.isSome && (fromBlock.isSome || toBlock.isSome) then
    .error (.invalidParams "blockHash cannot be set at the same time as fromBlock or toBlock")
  else do
    let fromBlock ← BlockRef.parseOrLatest fromBlock
    let toBlock ← BlockRef.parseOrLatest toBlock
    if fromBlock = .earliest ∨ toBlock = .earliest then
      .error (.unimplemented "the earliest block cannot bound a log filter")
    else do
      let addresses ← addresses
      let topics ← topics
      if blockHash.isSome then .error (.unimplemented "filtering logs by block hash")
      else return { fromBlock, toBlock, addresses, topics }

theorem LogFilter.ofQuery_eq_ofParts (q : LogQuery) :
    ofQuery q = ofParts q.blockHash q.fromBlock q.toBlock
      (q.address.elim (pure {}) AddressFilter.ofChoice)
      (q.topics.elim (pure {}) TopicsFilter.ofPositions) := rfl

theorem LogFilter.ofParts_ok (blockHash fromBlock toBlock : Option String)
    (addresses : AddressFilter) (topics : TopicsFilter) :
    ofParts blockHash fromBlock toBlock (.ok addresses) (.ok topics) =
      (fun f => { f with addresses := addresses, topics := topics }) <$>
        ofParts blockHash fromBlock toBlock (.ok {}) (.ok {}) := by
  unfold ofParts
  -- addresses and topics that are well formed change no check in front of them or behind them
  by_cases h1 : (blockHash.isSome && (fromBlock.isSome || toBlock.isSome)) = true
  · rw [if_pos h1, if_pos h1, map_error]
  · rw [if_neg h1, if_neg h1]
    cases BlockRef.parseOrLatest fromBlock with
    | error e => rfl
    | ok first =>
      cases BlockRef.parseOrLatest toBlock with
      | error e => rfl
      | ok last =>
        simp only [ok_bind]
        split_ifs <;> rfl

/-- The filter of a query is that of its bounds, with its addresses and topics added. -/
theorem LogFilter.ofQuery_eq (q : LogQuery) {addresses : AddressFilter} {topics : TopicsFilter}
    (ha : q.address.elim (pure {}) AddressFilter.ofChoice = .ok addresses)
    (ht : q.topics.elim (pure {}) TopicsFilter.ofPositions = .ok topics) :
    ofQuery q = (fun f => { f with addresses := addresses, topics := topics }) <$>
      ofQuery q.unfiltered := by
  rw [ofQuery_eq_ofParts, ha, ht, ofParts_ok]
  rfl

theorem LogFilter.unfiltered_of_ofQuery {q : LogQuery} {g : LogFilter}
    (h : ofQuery q.unfiltered = .ok g) : g.addresses = {} ∧ g.topics = {} := by
  have heq := LogFilter.ofQuery_eq q.unfiltered rfl rfl
  rw [show q.unfiltered.unfiltered = q.unfiltered from rfl, h, map_ok] at heq
  have hg := Except.ok.inj heq
  exact ⟨congrArg LogFilter.addresses hg, congrArg LogFilter.topics hg⟩

/-- Without addresses and topics every log passes. -/
theorem LogFilter.accepts_eq_true {f : LogFilter} (ha : f.addresses = {}) (ht : f.topics = {})
    (event : Ledger.EventRecord) : f.accepts event = true := by
  simp [LogFilter.accepts, LogFilter.acceptsLog, ha, ht, AddressFilter.accepts,
    TopicsFilter.accepts]

/-- **Filtering the logs of a query is part of its scan.** The whole computation with a filter is
the one without, and then the filter: the same questions in the same order, the same errors. -/
theorem getLogs_eq (q : LogQuery) {addresses : AddressFilter} {topics : TopicsFilter}
    (ha : q.address.elim (pure {}) AddressFilter.ofChoice = .ok addresses)
    (ht : q.topics.elim (pure {}) TopicsFilter.ofPositions = .ok topics) :
    getLogs q = List.filter (passes addresses topics) <$> getLogs q.unfiltered := by
  unfold getLogs
  rw [LogFilter.ofQuery_eq q ha ht]
  cases hg : LogFilter.ofQuery q.unfiltered with
  | error e => rfl
  | ok g =>
    obtain ⟨hgaddresses, hgtopics⟩ := LogFilter.unfiltered_of_ofQuery hg
    rw [map_ok, check_ok, check_ok, pure_bind, pure_bind, map_bind]
    refine bind_congr fun first => ?_
    rw [map_bind]
    refine bind_congr fun last => ?_
    rw [scan_eq (LogFilter.accepts_eq_true hgaddresses hgtopics)]
    by_cases h : first > last
    · simp only [h, if_true]
      rfl
    · simp only [h, if_false]

/-- **Filtering by the ledger's gateway is filtering by the client.** A query whose addresses and
topics are well formed asks the ledger what the query for all logs between the same bounds asks. It
fails when that query fails, and with its error; and it gives, of the logs of that query, those
which pass the filter as they are shown. -/
theorem outcome_getLogs_unfiltered (L : Answers) (q : LogQuery) {addresses : AddressFilter}
    {topics : TopicsFilter}
    (ha : q.address.elim (pure {}) AddressFilter.ofChoice = .ok addresses)
    (ht : q.topics.elim (pure {}) TopicsFilter.ofPositions = .ok topics) :
    (getLogs q).calls L = (getLogs q.unfiltered).calls L ∧
    (∀ e, (getLogs q).outcome L = .error e ↔ (getLogs q.unfiltered).outcome L = .error e) ∧
    (∀ logs, (getLogs q).outcome L = .ok logs ↔ ∃ all,
      (getLogs q.unfiltered).outcome L = .ok all ∧
      logs = all.filter fun log => addresses.accepts log.address && topics.accepts log.topics) := by
  rw [getLogs_eq q ha ht]
  refine ⟨Service.calls_map L _ _, fun e => ?_, fun logs => ?_⟩
  · rw [Service.outcome_map]
    cases (getLogs q.unfiltered).outcome L <;> simp
  · rw [Service.outcome_map, map_eq_ok]
    exact exists_congr fun all => and_congr_right fun _ => eq_comm

theorem outcome_getLogs_unfiltered_sampleChain :
    (getLogs { topics := some [none] }).calls (Ledger.answersOf Ledger.sampleChain) =
      [.height, .height, .block 1] ∧
    ∃ all, (getLogs {}).outcome (Ledger.answersOf Ledger.sampleChain) = .ok all ∧
      (getLogs { topics := some [none] }).outcome (Ledger.answersOf Ledger.sampleChain) =
        .ok (all.filter fun log =>
          AddressFilter.accepts {} log.address && TopicsFilter.accepts ⟨[[]]⟩ log.topics) := by
  have hall : ((getLogs {}).outcome (Ledger.answersOf Ledger.sampleChain)).isOk := by
    decide +kernel
  obtain ⟨all, hall⟩ := exists_of_isOk hall
  obtain ⟨hcalls, -, hlogs⟩ := outcome_getLogs_unfiltered (Ledger.answersOf Ledger.sampleChain)
    { topics := some [none] } rfl rfl
  exact ⟨hcalls.trans (by decide +kernel), all, hall, (hlogs _).2 ⟨all, hall, rfl⟩⟩

end LedgerBridge.Eth
