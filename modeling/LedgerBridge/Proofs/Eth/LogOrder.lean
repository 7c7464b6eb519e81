import LedgerBridge.Proofs.Eth.LogAccess
import LedgerBridge.Proofs.Ledger.Extent

/-!
# The order of logs

Every log says where it stands: the number of its block, the position of its slot there, and its own
position among the events of its transaction. The logs of a query stand in the order of these
positions, and no two of them at the same one.

* `Log.position?` reads the position of a log back; `Log.Precedes` says which of its three numbers
  tells two logs apart, and `exists_positions` that such logs have increasing positions;
* `pairwise_eventLogs`, `pairwise_blockLogs` and `pairwise_flatten_logsAt` go from events to slots,
  blocks and ranges;
* `Found` says what a log shows of its block;
* `Service.Receives`: the blocks that a method is given in a session;
* `getLogs_increasing`: the positions of the logs of a query.
-/

namespace LedgerBridge

/-- The number that a text with or without the mark denotes. -/
def Quantity.read? (s : String) : Option UInt64 := parse? (Hex.bare s)

theorem Quantity.read?_text (n : UInt64) : read? (text n) = some n := by
  rw [read?, text, Hex.bare_marked (digits_ne_empty n), parse?_digits]

theorem Quantity.eq_of_read? {s : String} {m n : UInt64} (hs : s = text n)
    (h : read? s = some m) : m = n := by
  rw [hs, read?_text] at h
  exact (Option.some.inj h).symm

/-- The header of the block, if it has one, gives this number. -/
def Ledger.Block.HasNumber (b : Block) (number : UInt64) : Prop :=
  ∀ header, b.header = some header → header.number = number

namespace Eth

open Ledger (Answers Call Session validCode)

/-! ### Positions -/

/-- The position of a log: its block, its slot, and its event. -/
def Log.position? (log : Log) : Option (UInt64 ×ₗ UInt64 ×ₗ UInt64) := do
  let number ← Quantity.read? log.blockNumber
  let slot ← Quantity.read? log.transactionIndex
  let event ← Quantity.read? log.logIndex
  return toLex (number, toLex (slot, event))

/-- The first of the three numbers in which two logs differ is smaller in the first log. -/
inductive Log.Precedes (x y : Log) : Prop
  | block {m n : UInt64} (hx : x.blockNumber = Quantity.text m)
      (hy : y.blockNumber = Quantity.text n) (h : m < n)
  | slot {i j : UInt64} (hblock : x.blockNumber = y.blockNumber)
      (hx : x.transactionIndex = Quantity.text i) (hy : y.transactionIndex = Quantity.text j)
      (h : i < j)
  | event {k l : UInt64} (hblock : x.blockNumber = y.blockNumber)
      (hslot : x.transactionIndex = y.transactionIndex) (hx : x.logIndex = Quantity.text k)
      (hy : y.logIndex = Quantity.text l) (h : k < l)

section Positions

variable {x y : Log}

theorem Log.Precedes.position_lt (h : x.Precedes y) {p q : UInt64 ×ₗ UInt64 ×ₗ UInt64}
    (hp : x.position? = some p) (hq : y.position? = some q) : p < q := by
  simp only [position?, Option.bind_eq_bind, Option.bind_eq_some_iff, Option.pure_def,
    Option.some.injEq] at hp hq
  obtain ⟨m, hm, i, hi, k, hk, rfl⟩ := hp
  obtain ⟨n, hn, j, hj, l, hl, rfl⟩ := hq
  simp only [Prod.Lex.toLex_lt_toLex]
  cases h with
  | block hx hy hlt =>
    obtain rfl := Quantity.eq_of_read? hx hm
    obtain rfl := Quantity.eq_of_read? hy hn
    exact .inl hlt
  | slot hblock hx hy hlt =>
    obtain rfl := Option.some.inj (hm.symm.trans (hblock ▸ hn))
    obtain rfl := Quantity.eq_of_read? hx hi
    obtain rfl := Quantity.eq_of_read? hy hj
    exact .inr ⟨rfl, .inl hlt⟩
  | event hblock hslot hx hy hlt =>
    obtain rfl := Option.some.inj (hm.symm.trans (hblock ▸ hn))
    obtain rfl := Option.some.inj (hi.symm.trans (hslot ▸ hj))
    obtain rfl := Quantity.eq_of_read? hx hk
    obtain rfl := Quantity.eq_of_read? hy hl
    exact .inr ⟨rfl, .inr ⟨rfl, hlt⟩⟩

/-- Logs in order have increasing positions. -/
theorem exists_positions {logs : List Log} (h : logs.Pairwise Log.Precedes)
    (hpositions : ∀ log ∈ logs, ∃ p, log.position? = some p) :
    ∃ positions, logs.mapM Log.position? = some positions ∧ positions.Pairwise (· < ·) := by
  refine ⟨logs.filterMap Log.position?, mapM_eq_some_filterMap hpositions, ?_⟩
  rw [List.pairwise_filterMap]
  refine h.imp ?_
  intro x y hxy p hp q hq
  exact hxy.position_lt hp hq

end Positions

/-! ### Events, slots, blocks -/

section Blocks

variable {f : LogFilter} {b : Ledger.Block} {summary : BlockSummary} {logs : List Log} {log : Log}

theorem exists_of_mem_eventLogs {place : Place} {events : List Ledger.EventRecord}
    (h : log ∈ eventLogs f place events) : log.blockNumber = place.block.number ∧
      log.blockHash = place.block.hash ∧ log.transactionIndex = place.index ∧
      ∃ position < events.length, log.logIndex = Quantity.text (UInt64.ofNat position) := by
  obtain ⟨⟨event, position⟩, hp, rfl⟩ := List.mem_map.1 h
  obtain ⟨hlt, -⟩ := List.mem_zipIdx' (List.mem_of_mem_filter hp)
  exact ⟨rfl, rfl, rfl, position, hlt, rfl⟩

/-- The logs of a transaction stand in the order of its events. -/
theorem pairwise_eventLogs (place : Place) {events : List Ledger.EventRecord}
    (hlen : events.length ≤ UInt64.size) :
    (eventLogs f place events).Pairwise Log.Precedes := by
  rw [eventLogs, List.pairwise_map]
  refine ((pairwise_zipIdx events).imp_of_mem ?_).filter _
  rintro ⟨e, k⟩ ⟨e', l⟩ hk hl hlt
  have hk := (List.mem_zipIdx' hk).1
  have hl := (List.mem_zipIdx' hl).1
  exact .event rfl rfl rfl rfl ((UInt64.ofNat_lt_iff_lt (by omega) (by omega)).2 hlt)

/-- There are logs only in a valid slot, those of the events of its transaction. -/
theorem slotLogs_eq_ok {i : Nat} {raw : Bytes} (h : slotLogs f b summary i raw = .ok logs) :
    logs = [] ∨ b.validationCode i = .ok validCode ∧ ∃ t events,
      Ledger.decodeTransaction raw = .ok t ∧ Ledger.decodeEvents t.events = .ok events ∧
      logs = eventLogs f (Place.ofSlot summary t.txId i) events := by
  obtain ⟨code, hcode, -⟩ := exists_slotLogs_iff.1 ⟨logs, h⟩
  by_cases hvalid : code = validCode
  · subst hvalid
    rw [slotLogs_of_valid hcode] at h
    obtain ⟨t, ht, h⟩ := bind_eq_ok.1 h
    obtain ⟨events, hevents, h⟩ := bind_eq_ok.1 h
    cases h
    exact .inr ⟨hcode, t, events, mapError_eq_ok.1 ht, mapError_eq_ok.1 hevents, rfl⟩
  · rw [slotLogs_of_invalid hcode hvalid] at h
    cases h
    exact .inl rfl

/-- What a log of a slot shows. -/
theorem exists_of_mem_slotLogs {i : Nat} {raw : Bytes} (h : slotLogs f b summary i raw = .ok logs)
    (hlog : log ∈ logs) : log.blockNumber = summary.number ∧ log.blockHash = summary.hash ∧
      log.transactionIndex = Quantity.text (UInt64.ofNat i) ∧ b.validationCode i = .ok validCode ∧
      ∃ position, log.logIndex = Quantity.text (UInt64.ofNat position) := by
  rcases slotLogs_eq_ok h with rfl | ⟨hvalid, t, events, -, -, rfl⟩
  · cases hlog
  · obtain ⟨hnumber, hhash, hindex, position, -, hposition⟩ := exists_of_mem_eventLogs hlog
    exact ⟨hnumber, hhash, hindex, hvalid, position, hposition⟩

/-- The logs of a block stand in the order of its slots, and those of a slot in theirs. -/
theorem pairwise_blockLogs (hb : b.Addressable) (h : blockLogs f b = .ok logs) :
    logs.Pairwise Log.Precedes := by
  obtain ⟨summary, -, h⟩ := bind_eq_ok.1 h
  obtain ⟨lists, hlists, h⟩ := bind_eq_ok.1 h
  cases h
  refine pairwise_flatten_of_mapM hlists b.pairwise_transactions ?_ ?_
  · rintro ⟨i, raw⟩ hp list hlist
    rcases slotLogs_eq_ok hlist with rfl | ⟨-, t, events, ht, hevents, rfl⟩
    · exact .nil
    · have hraw := List.mem_of_getElem? (Ledger.Block.mem_transactions.1 hp).1
      exact pairwise_eventLogs _ (hb.length_le hraw ht hevents)
  · rintro ⟨i, raw⟩ hi ⟨j, raw'⟩ hj hij list list' hlist hlist' x hx y hy
    obtain ⟨hxnumber, -, hxindex, -⟩ := exists_of_mem_slotLogs hlist hx
    obtain ⟨hynumber, -, hyindex, -⟩ := exists_of_mem_slotLogs hlist' hy
    have hi := (Ledger.Block.lt_length_of_mem_transactions hi).trans_le hb.length_slots_le
    have hj := (Ledger.Block.lt_length_of_mem_transactions hj).trans_le hb.length_slots_le
    exact .slot (hxnumber.trans hynumber.symm) hxindex hyindex
      ((UInt64.ofNat_lt_iff_lt hi hj).2 hij)

/-- What a log shows of the block that it was found in, and where it was found there. -/
structure Found (b : Ledger.Block) (log : Log) (number slot event : UInt64) : Prop where
  blockNumber : log.blockNumber = Quantity.text number
  transactionIndex : log.transactionIndex = Quantity.text slot
  logIndex : log.logIndex = Quantity.text event
  header : ∃ header, b.header = some header ∧ header.number = number ∧
    log.blockHash = Hex.ofBytes header.dataHash
  lt_length : slot.toNat < b.slots.length
  not_empty : ∃ raw, b.slots[slot.toNat]? = some raw ∧ raw ≠ []
  valid : b.validationCode slot.toNat = .ok validCode

theorem Found.position?_eq {number slot event : UInt64} (h : Found b log number slot event) :
    log.position? = some (toLex (number, toLex (slot, event))) := by
  rw [Log.position?, h.blockNumber, h.transactionIndex, h.logIndex, Quantity.read?_text,
    Quantity.read?_text, Quantity.read?_text]
  rfl

theorem exists_found_of_mem_blockLogs (hb : b.Addressable) (h : blockLogs f b = .ok logs)
    (hlog : log ∈ logs) : ∃ number slot event, Found b log number slot event := by
  obtain ⟨summary, hsummary, h⟩ := bind_eq_ok.1 h
  obtain ⟨lists, hlists, h⟩ := bind_eq_ok.1 h
  cases h
  obtain ⟨list, hlist, hmem⟩ := List.mem_flatten.1 hlog
  obtain ⟨⟨i, raw⟩, hp, hrun⟩ := exists_of_mem_mapM hlists hlist
  obtain ⟨header, hheader, hnumber, hhash⟩ := BlockSummary.ofBlock_eq_ok hsummary
  obtain ⟨hlognumber, hloghash, hindex, hvalid, position, hposition⟩ :=
    exists_of_mem_slotLogs hrun hmem
  obtain ⟨hslot, hraw⟩ := Ledger.Block.mem_transactions.1 hp
  have hlt := Ledger.Block.lt_length_of_mem_transactions hp
  have hi : (UInt64.ofNat i).toNat = i :=
    UInt64.toNat_ofNat_of_lt' (hlt.trans_le hb.length_slots_le)
  refine ⟨header.number, UInt64.ofNat i, UInt64.ofNat position, ?_⟩
  constructor
  · exact hlognumber.trans hnumber
  · exact hindex
  · exact hposition
  · exact ⟨header, hheader, rfl, hloghash.trans hhash⟩
  · rw [hi]
    exact hlt
  · rw [hi]
    exact ⟨raw, hslot, hraw⟩
  · rw [hi]
    exact hvalid

end Blocks

/-! ### Ranges -/

section Ranges

variable {L : Answers} {f : LogFilter} {first last number : UInt64} {logs : List Log}
  {lists : List (List Log)}

theorem logsAt_eq_ok : logsAt L f number = .ok logs ↔
    ∃ b, L (.block number) = .ok b ∧ blockLogs f b = .ok logs := by
  rw [logsAt, outcome_blockAt, bind_eq_ok]
  simp only [mapError_eq_ok]

theorem pairwise_heights (hle : first ≤ last) : (heights first last).Pairwise (· < ·) := by
  have h : ((heights first last).map UInt64.toNat).Pairwise (· < ·) := by
    rw [toNat_heights hle]
    exact List.pairwise_lt_range'
  rw [List.pairwise_map] at h
  exact h.imp UInt64.lt_iff_toNat_lt.2

/-- A log shows the number that its block was asked for by. -/
theorem exists_found_of_mem_logsAt
    (hblock : ∀ b, L (.block number) = .ok b → b.Addressable ∧ b.HasNumber number)
    (h : logsAt L f number = .ok logs) {log : Log} (hlog : log ∈ logs) :
    ∃ slot event b, L (.block number) = .ok b ∧ Found b log number slot event := by
  obtain ⟨b, hb, hrun⟩ := logsAt_eq_ok.1 h
  obtain ⟨haddressable, hnumber⟩ := hblock b hb
  obtain ⟨shown, slot, event, hfound⟩ := exists_found_of_mem_blockLogs haddressable hrun hlog
  obtain ⟨header, hheader, rfl, -⟩ := hfound.header
  rw [hnumber header hheader] at hfound
  exact ⟨slot, event, b, hb, hfound⟩

/-- The logs of a range stand in the order of its blocks, and those of a block in theirs. -/
theorem pairwise_flatten_logsAt (hle : first ≤ last)
    (hblocks : ∀ n ∈ heights first last, ∀ b, L (.block n) = .ok b →
      b.Addressable ∧ b.HasNumber n)
    (h : (heights first last).mapM (logsAt L f) = .ok lists) :
    lists.flatten.Pairwise Log.Precedes := by
  refine pairwise_flatten_of_mapM h (pairwise_heights hle) ?_ ?_
  · intro n hn list hlist
    obtain ⟨b, hb, hrun⟩ := logsAt_eq_ok.1 hlist
    exact pairwise_blockLogs (hblocks n hn b hb).1 hrun
  · intro m hm n hn hlt list list' hlist hlist' x hx y hy
    obtain ⟨_, _, _, -, hxfound⟩ := exists_found_of_mem_logsAt (hblocks m hm) hlist hx
    obtain ⟨_, _, _, -, hyfound⟩ := exists_found_of_mem_logsAt (hblocks n hn) hlist' hy
    exact .block hxfound.blockNumber hyfound.blockNumber hlt

end Ranges

/-! ### Queries -/

/-- In a session that starts with a method, the method is given this block under the number. -/
def Service.Receives {α : Type} (S : Session) (x : Service α) (number : UInt64)
    (b : Ledger.Block) : Prop :=
  ∃ before, before ++ [.block number] <+: x.callsIn S [] ∧ S before (.block number) = .ok b

/-- The bounds of a query, as a session resolves them that starts with it. -/
def LogQuery.Resolves (S : Session) (q : LogQuery) (first last : UInt64) : Prop :=
  ∃ f, LogFilter.ofQuery q = .ok f ∧ (Service.resolve f.fromBlock).outcome (S []) = .ok first ∧
    (Service.resolve f.toBlock).outcome (S f.fromBlock.questions) = .ok last

section Queries

variable {S : Session} {q : LogQuery} {logs : List Log}

/-- A query that succeeds has resolved its bounds, and they are in order. -/
theorem exists_resolves_of_ok (h : (getLogs q).outcomeIn S [] = .ok logs) :
    ∃ f first last, LogFilter.ofQuery q = .ok f ∧
      (Service.resolve f.fromBlock).outcome (S []) = .ok first ∧
      (Service.resolve f.toBlock).outcome (S f.fromBlock.questions) = .ok last ∧
      first ≤ last := by
  cases hf : LogFilter.ofQuery q with
  | error e =>
    rw [getLogs, hf] at h
    cases h
  | ok f =>
    cases hfirst : (Service.resolve f.fromBlock).outcome (S []) with
    | error e =>
      rw [(run_getLogs_of_first_error hf hfirst).2] at h
      cases h
    | ok first =>
      cases hlast : (Service.resolve f.toBlock).outcome (S f.fromBlock.questions) with
      | error e =>
        rw [(run_getLogs_of_last_error hf hfirst hlast).2] at h
        cases h
      | ok last =>
        refine ⟨f, first, last, rfl, hfirst, hlast, UInt64.not_lt.1 fun hlt => ?_⟩
        rw [(run_getLogs_of_ok hf hfirst hlast).2, if_pos hlt] at h
        cases h

/-- The logs of a query that succeeds are those of the blocks between its bounds, and it was given
all these blocks. -/
theorem getLogs_eq_ok (h : (getLogs q).outcomeIn S [] = .ok logs) :
    ∃ f first last L lists, q.Resolves S first last ∧ first ≤ last ∧
      (heights first last).mapM (logsAt L f) = .ok lists ∧ logs = lists.flatten ∧
      ∀ n ∈ heights first last, ∀ b, L (.block n) = .ok b → (getLogs q).Receives S n b := by
  obtain ⟨f, first, last, hf, hfirst, hlast, hle⟩ := exists_resolves_of_ok h
  obtain ⟨hcalls, houtcome⟩ := run_getLogs_of_ok hf hfirst hlast
  obtain ⟨hscan, hasked⟩ :=
    run_scan (S := S) (f := f) (f.fromBlock.questions ++ f.toBlock.questions) hle
  rw [houtcome, if_neg (UInt64.not_lt.2 hle), hscan, outcome_scan_heights] at h
  obtain ⟨lists, hlists, rfl⟩ := map_eq_ok.1 h
  refine ⟨f, first, last, _, lists, ⟨f, hf, hfirst, hlast⟩, hle, hlists, rfl, fun n hn b hb => ?_⟩
  -- all blocks can be read, so all of them are asked for
  have hreadable := exists_mapM_eq_ok.1 ⟨lists, hlists⟩
  rw [if_neg (UInt64.not_lt.2 hle), hasked, calls_scan_heights,
    upTo_eq_self fun n hn => isOk_iff.2 (hreadable n hn)] at hcalls
  obtain ⟨lower, upper, hheights⟩ := List.append_of_mem hn
  rw [scanned_block hle hheights] at hb
  refine ⟨_, ?_, hb⟩
  rw [hcalls, hheights, List.map_append, List.map_cons, List.append_assoc]
  exact (List.prefix_append_right_inj _).2
    ((List.prefix_append_right_inj _).2 (List.cons_prefix_cons.2 ⟨rfl, List.nil_prefix⟩))

/-- **The positions of the logs of a query increase, so no two logs are at the same one.** It
suffices that every block that the query is given has the number in its header that it was asked for
by, and that its slots and their bytes can be counted in 64 bits. Every log then names a block
between the bounds of the query, by its number and its data hash, and in it a slot that is not empty
and that the peers found valid. -/
theorem getLogs_increasing (h : (getLogs q).outcomeIn S [] = .ok logs)
    (hblocks : ∀ n b, (getLogs q).Receives S n b → b.Addressable ∧ b.HasNumber n) :
    ∃ first last, q.Resolves S first last ∧
      (∃ positions, logs.mapM Log.position? = some positions ∧ positions.Pairwise (· < ·)) ∧
      ∀ log ∈ logs, ∃ number slot event b,
        log.position? = some (toLex (number, toLex (slot, event))) ∧
        first ≤ number ∧ number ≤ last ∧ (getLogs q).Receives S number b ∧
        Found b log number slot event := by
  obtain ⟨f, first, last, L, lists, hresolves, hle, hlists, rfl, hreceives⟩ := getLogs_eq_ok h
  have hL (n : UInt64) (hn : n ∈ heights first last) (b : Ledger.Block)
      (hb : L (.block n) = .ok b) : b.Addressable ∧ b.HasNumber n :=
    hblocks n b (hreceives n hn b hb)
  have hfound : ∀ log ∈ lists.flatten, ∃ number slot event b,
      log.position? = some (toLex (number, toLex (slot, event))) ∧ first ≤ number ∧
      number ≤ last ∧ (getLogs q).Receives S number b ∧ Found b log number slot event := by
    intro log hlog
    obtain ⟨list, hlist, hmem⟩ := List.mem_flatten.1 hlog
    obtain ⟨n, hn, hrun⟩ := exists_of_mem_mapM hlists hlist
    obtain ⟨slot, event, b, hb, hfound⟩ := exists_found_of_mem_logsAt (hL n hn) hrun hmem
    obtain ⟨hfirst, hlast⟩ := (mem_heights hle).1 hn
    exact ⟨n, slot, event, b, hfound.position?_eq, hfirst, hlast, hreceives n hn b hb, hfound⟩
  have hpositions := exists_positions (pairwise_flatten_logsAt hle hL hlists) fun log hlog =>
    have ⟨_, _, _, _, hposition, _⟩ := hfound log hlog
    ⟨_, hposition⟩
  exact ⟨first, last, hresolves, hpositions, hfound⟩

end Queries

theorem getLogs_increasing_filled : ∃ logs positions,
    (getLogs { fromBlock := some "0x3", toBlock := some "0x4" }).outcomeIn
      (fun _ => Ledger.answersOfLookup fun n => .ok (.filled n Ledger.sampleChain[1])) [] =
        .ok logs ∧
    logs.length = 4 ∧ logs.mapM Log.position? = some positions ∧ positions.Pairwise (· < ·) := by
  have hrun : List.length <$> (getLogs { fromBlock := some "0x3", toBlock := some "0x4" }).outcomeIn
      (fun _ => Ledger.answersOfLookup fun n => .ok (.filled n Ledger.sampleChain[1])) [] =
      .ok 4 := by decide +kernel
  obtain ⟨logs, hlogs, hlength⟩ := map_eq_ok.1 hrun
  have hslots : ∀ raw ∈ (Ledger.Block.filled 0 Ledger.sampleChain[1]).slots,
      raw.length ≤ UInt64.size := by decide +kernel
  obtain ⟨-, -, -, ⟨positions, hpositions, hincreasing⟩, -⟩ := getLogs_increasing hlogs
    fun n b ⟨_, _, hb⟩ => by
      obtain rfl : Ledger.Block.filled n Ledger.sampleChain[1] = b := Except.ok.inj hb
      have hcount : (Ledger.Block.filled n Ledger.sampleChain[1]).slots.length ≤ UInt64.size :=
        show 3 ≤ UInt64.size by decide
      refine ⟨⟨hcount, hslots⟩, fun header hheader => ?_⟩
      cases hheader
      rfl
  exact ⟨logs, positions, hlogs, hlength, hpositions, hincreasing⟩

end Eth

end LedgerBridge
