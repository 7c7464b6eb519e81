import LedgerBridge.Eth.Chain
import LedgerBridge.Proofs.Eth.BloomAlgebra
import LedgerBridge.Proofs.Eth.LogFilter

/-!
# The bloom of a receipt

The logs of a receipt and its bloom are made of the same events on different ways: the logs show
the texts of the chaincode behind the mark, the bloom holds the values of those that are well
formed. Filters compare values with texts. All three agree (`getReceipt_logsBloom`): a filter that a
log passes is never turned away by the bloom, and the bloom holds nothing but values of the logs.
-/

namespace LedgerBridge.Eth

open Ledger (Answers EventRecord)

/-- The event that a log shows. -/
def Log.event (log : Log) : EventRecord where
  address := log.address
  topics := log.topics
  data := log.data

/-- A log is worth to the bloom what its event is. -/
theorem bloomValues_log (place : Place) (event : EventRecord) (position : Nat) :
    bloomValues (place.log event position).event = bloomValues event := by
  have h {n : Nat} (hn : 0 < n) (s : String) :
      (FixedHex.parse n (remarked s)).toOption = (FixedHex.parse n s).toOption :=
    FixedHex.toOption_parse_marked_bare hn s
  simp only [bloomValues, Log.event, Place.log, List.filterMap_map, Function.comp_def,
    h (show 0 < 20 by decide), h (show 0 < 32 by decide)]

/-- Events have the bloom of the logs that show them. -/
theorem logsBloom_logs (place : Place) (events : List EventRecord) :
    logsBloom ((events.zipIdx.map fun p => place.log p.1 p.2).map Log.event) =
      logsBloom events := by
  have hvalues : ((events.zipIdx.map fun p => place.log p.1 p.2).map Log.event).flatMap
      bloomValues = events.flatMap bloomValues := calc
    _ = events.zipIdx.flatMap fun p => bloomValues p.1 := by
      simp only [List.flatMap_map, bloomValues_log]
    _ = (events.zipIdx.map Prod.fst).flatMap bloomValues := (List.flatMap_map ..).symm
    _ = events.flatMap bloomValues := by rw [List.zipIdx_map_fst]
  rw [logsBloom, hvalues, logsBloom]

/-- The bloom of a receipt is that of its logs. -/
theorem logsBloom_of_receiptOf {txId : String} {b : Ledger.Block} {i : Nat} {t : Ledger.Decoded}
    {r : Receipt} (h : receiptOf txId b i t = .ok r) :
    r.logsBloom = (logsBloom (r.logs.map Log.event)).text := by
  obtain ⟨summary, -, h⟩ := bind_eq_ok.1 h
  obtain ⟨valid, -, h⟩ := bind_eq_ok.1 h
  obtain ⟨parties, -, h⟩ := bind_eq_ok.1 h
  obtain ⟨events, -, h⟩ := bind_eq_ok.1 h
  cases h
  exact congrArg Bloom.text (logsBloom_logs (.ofSlot summary txId i) events).symm

theorem logsBloom_of_getReceipt {L : Answers} {hash : String} {r : Receipt}
    (h : (getReceipt hash).outcome L = .ok r) :
    r.logsBloom = (logsBloom (r.logs.map Log.event)).text := by
  rw [getReceipt, Service.outcome_bind] at h
  obtain ⟨⟨b, i, t⟩, -, h⟩ := bind_eq_ok.1 h
  exact logsBloom_of_receiptOf h

/-! ### Filters -/

/-- An address that a filter asks for and a log has is a value of the log. -/
theorem AddressFilter.exists_mem_bloomValues {f : AddressFilter} {log : Log}
    (h : f.accepts log.address) (hany : f.addresses ≠ []) :
    ∃ a ∈ f.addresses, a.bytes ∈ bloomValues log.event := by
  rw [accepts, Bool.or_eq_true, List.isEmpty_iff, List.any_eq_true] at h
  obtain ⟨a, ha, hdenoted⟩ := h.resolve_left hany
  exact ⟨a, ha, mem_bloomValues.2 (.inl ⟨a, FixedHex.parse_of_denotedBy hdenoted, rfl⟩)⟩

/-- So is, at every position where a filter asks for topics, one of them. -/
theorem TopicsFilter.exists_mem_bloomValues {f : TopicsFilter} {log : Log}
    (h : f.accepts log.topics) {alternatives : List Topic} (hmem : alternatives ∈ f.positions)
    (hany : alternatives ≠ []) : ∃ t ∈ alternatives, t.bytes ∈ bloomValues log.event := by
  rw [accepts, Bool.and_eq_true, decide_eq_true_eq, List.all_eq_true] at h
  obtain ⟨hlength, hall⟩ := h
  obtain ⟨i, hi, rfl⟩ := List.mem_iff_getElem.1 hmem
  -- a log that passes has a topic at the position
  have hi' : i < log.topics.length := by omega
  have hpair : (f.positions[i], log.topics[i]) ∈ f.positions.zip log.topics := by
    rw [List.mem_iff_getElem]
    exact ⟨i, by simp [hi, hi'], by simp⟩
  have hat := hall _ hpair
  rw [acceptsAt, Bool.or_eq_true, List.isEmpty_iff, List.any_eq_true] at hat
  obtain ⟨t, ht, hdenoted⟩ := hat.resolve_left hany
  exact ⟨t, ht, mem_bloomValues.2 (.inr ⟨log.topics[i], List.getElem_mem hi', t,
    FixedHex.parse_of_denotedBy hdenoted, rfl⟩)⟩

/-! ### Bits -/

/-- Every bit is one of an address or a topic, well formed, of a log. -/
theorem exists_log_of_has {logs : List Log} {p : Nat} (h : (logsBloom (logs.map Log.event)).has p) :
    ∃ log ∈ logs,
      (∃ a, FixedHex.parse 20 log.address = .ok a ∧
        Bloom.IsPosition (Keccak.hash256 a.bytes) p) ∨
      ∃ topic ∈ log.topics, ∃ t, FixedHex.parse 32 topic = .ok t ∧
        Bloom.IsPosition (Keccak.hash256 t.bytes) p := by
  obtain ⟨event, hevent, value, hvalue, hp⟩ := has_logsBloom.1 h
  obtain ⟨log, hlog, rfl⟩ := List.mem_map.1 hevent
  rw [Bloom.mem_positions_iff] at hp
  refine ⟨log, hlog, ?_⟩
  rcases mem_bloomValues.1 hvalue with ⟨a, ha, rfl⟩ | ⟨topic, htopic, t, ht, rfl⟩
  · exact .inl ⟨a, ha, hp⟩
  · exact .inr ⟨topic, htopic, t, ht, hp⟩

theorem logsBloom_eq_empty {logs : List Log}
    (h : ∀ log ∈ logs, (∀ a, FixedHex.parse 20 log.address ≠ .ok a) ∧
      ∀ topic ∈ log.topics, ∀ t, FixedHex.parse 32 topic ≠ .ok t) :
    logsBloom (logs.map Log.event) = .empty := by
  refine Bloom.ext_has fun p => ?_
  rw [Bloom.has_empty, ← Bool.not_eq_true]
  intro hp
  obtain ⟨log, hlog, ⟨a, ha, -⟩ | ⟨topic, htopic, t, ht, -⟩⟩ := exists_log_of_has hp
  · exact (h log hlog).1 a ha
  · exact (h log hlog).2 topic htopic t ht

/-- **The bloom of a receipt hides no log and invents none.** It is written with 256 bytes, and what
it contains are the values whose three bits are set in them. For every filter that one of the
receipt's logs passes, it holds one of the filter's addresses, if there are any, and one of its
topics at every position where it asks for some. And every bit that is set is one of an address or a
topic, well formed, of one of these logs; without any, all bytes are zero. -/
theorem getReceipt_logsBloom {L : Answers} {hash : String} {r : Receipt}
    (h : (getReceipt hash).outcome L = .ok r) :
    ∃ v, FixedHex.parse 256 r.logsBloom = .ok v ∧
      (∀ value, (Bloom.ofBytes v.bytes).contains value ↔ Bloom.Holds v.bytes value) ∧
      (∀ log ∈ r.logs, ∀ f : LogFilter, passes f.addresses f.topics log →
        (f.addresses.addresses ≠ [] →
          ∃ a ∈ f.addresses.addresses, Bloom.Holds v.bytes a.bytes) ∧
        ∀ alternatives ∈ f.topics.positions, alternatives ≠ [] →
          ∃ t ∈ alternatives, Bloom.Holds v.bytes t.bytes) ∧
      (∀ p < 2048, Bloom.IsSet v.bytes p → ∃ log ∈ r.logs,
        (∃ a, FixedHex.parse 20 log.address = .ok a ∧
          Bloom.IsPosition (Keccak.hash256 a.bytes) p) ∨
        ∃ topic ∈ log.topics, ∃ t, FixedHex.parse 32 topic = .ok t ∧
          Bloom.IsPosition (Keccak.hash256 t.bytes) p) ∧
      ((∀ log ∈ r.logs, (∀ a, FixedHex.parse 20 log.address ≠ .ok a) ∧
        ∀ topic ∈ log.topics, ∀ t, FixedHex.parse 32 topic ≠ .ok t) → v = .zero 256) := by
  have hbloom := logsBloom_of_getReceipt h
  refine ⟨⟨_, Bloom.length_bytes _⟩, hbloom ▸ Bloom.parse_text _, fun value => ?_, ?_, ?_,
    fun hnone => ?_⟩
  · rw [Bloom.ofBytes_bytes, Bloom.holds_bytes_iff]
  · intro log hlog f hpasses
    have hholds {value : Bytes} (hvalue : value ∈ bloomValues log.event) :
        Bloom.Holds (logsBloom (r.logs.map Log.event)).bytes value :=
      Bloom.holds_bytes_iff.2 (contains_logsBloom (List.mem_map_of_mem hlog) hvalue)
    rw [passes, Bool.and_eq_true] at hpasses
    refine ⟨fun hany => ?_, fun alternatives hmem hany => ?_⟩
    · obtain ⟨a, ha, hvalue⟩ := AddressFilter.exists_mem_bloomValues hpasses.1 hany
      exact ⟨a, ha, hholds hvalue⟩
    · obtain ⟨t, ht, hvalue⟩ := TopicsFilter.exists_mem_bloomValues hpasses.2 hmem hany
      exact ⟨t, ht, hholds hvalue⟩
  · intro p hp hset
    exact exists_log_of_has ((Bloom.isSet_bytes_iff hp).1 hset)
  · rw [FixedHex.ext_iff', logsBloom_eq_empty hnone]
    exact Bloom.bytes_empty

/-- A chain of one block, with a transaction that has a log with a well-formed address and topic,
and one without. -/
def tokenChain : List (List (Ledger.Content × UInt8)) :=
  [[(.endorsed "b1" [] []
      [⟨"0x" ++ String.ofList (List.replicate 40 '1'), [String.ofList (List.replicate 64 '2')], ""⟩,
        ⟨"0c", ["0d"], ""⟩], 0)]]

theorem getReceipt_logsBloom_tokenChain : ∃ r v,
    (getReceipt "0xb1").outcome (Ledger.answersOf tokenChain) = .ok r ∧
    FixedHex.parse 256 r.logsBloom = .ok v ∧
    Bloom.Holds v.bytes (List.replicate 20 0x11) ∧
    (Bloom.ofBytes v.bytes).contains (List.replicate 20 0x11) ∧
    Bloom.Holds v.bytes (List.replicate 32 0x22) ∧
    (Bloom.ofBytes v.bytes).contains (List.replicate 32 0x22) := by
  let f : LogFilter := {
    addresses := ⟨[⟨List.replicate 20 0x11, rfl⟩]⟩
    topics := ⟨[[⟨List.replicate 32 0x22, rfl⟩]]⟩ }
  have hpasses : (fun r : Receipt => r.logs.any (passes f.addresses f.topics)) <$>
      (getReceipt "0xb1").outcome (Ledger.answersOf tokenChain) = .ok true := by
    decide +kernel
  obtain ⟨r, hr, hany⟩ := map_eq_ok.1 hpasses
  obtain ⟨log, hlog, hpasses⟩ := List.any_eq_true.1 hany
  obtain ⟨v, hv, hcontains, hfilter, -⟩ := getReceipt_logsBloom hr
  obtain ⟨haddresses, htopics⟩ := hfilter log hlog f hpasses
  obtain ⟨a, ha, haddress⟩ := haddresses (List.cons_ne_nil _ _)
  obtain ⟨t, ht, htopic⟩ := htopics _ List.mem_cons_self (List.cons_ne_nil _ _)
  obtain rfl := List.mem_singleton.1 ha
  obtain rfl := List.mem_singleton.1 ht
  exact ⟨r, v, hr, hv, haddress, (hcontains _).2 haddress, htopic, (hcontains _).2 htopic⟩

end LedgerBridge.Eth
