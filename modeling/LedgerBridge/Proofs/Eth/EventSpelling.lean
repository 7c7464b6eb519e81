import LedgerBridge.Proofs.Eth.LogScan
import LedgerBridge.Proofs.Eth.ReceiptBloom
import LedgerBridge.Proofs.Hex.Mark

/-!
# Marks in the texts of events

The chaincode writes digits, usually without the mark. Filters, blooms and logs take the mark off on
ways of their own, and all of them see the same event whether its texts are marked or not. There is
one exception: the mark in front of an empty text stands alone, and a text that is the mark alone is
shown with the mark twice (`data_marked_twice`).

* `EventRecord.MayMark` relates an event to the same event with marks put in front of some texts;
* `accepts_of_mayMark`, `bloomValues_of_mayMark`: filters and blooms cannot tell the two apart;
* `log_eq_iff`: they are shown alike exactly if no text is the mark alone;
* `spelling_of_events` says so of all events of a transaction, for scans and for receipts.
-/

namespace LedgerBridge

/-! ### Texts -/

namespace Hex

/-- Digits, if there are any, and the same digits or those with the mark in front. -/
structure MayMark (s t : String) : Prop where
  isDigits : IsDigits s
  eq_or : t = s ∨ t = marked s

namespace MayMark

variable {s t : String}

theorem bare_left (h : MayMark s t) : bare s = s :=
  bare_of_not_isMarked (not_isMarked_of_isDigits h.isDigits)

/-- Nothing is lost when the mark is taken off, unless it stands alone. -/
theorem bare_right_iff (h : MayMark s t) : bare t = s ↔ t ≠ "0x" := by
  have hs := h.bare_left
  rcases h.eq_or with rfl | rfl
  · have hmark : t ≠ "0x" := by
      rintro rfl
      exact not_isMarked_of_isDigits h.isDigits ⟨"", by decide⟩
    simp [hs, hmark]
  · by_cases hempty : s = ""
    · subst hempty
      decide
    · have hmark : marked s ≠ "0x" := fun he => hempty (marked_injective he)
      simp [bare_marked hempty, hmark]

end MayMark

end Hex

theorem FixedHex.toOption_parse_of_mayMark {n : Nat} (hn : 0 < n) {s t : String}
    (h : Hex.MayMark s t) : (parse n t).toOption = (parse n s).toOption := by
  rcases h.eq_or with rfl | rfl
  · rfl
  · have hmarked := toOption_parse_marked_bare hn s
    rwa [h.bare_left] at hmarked

/-! ### Events -/

namespace Ledger.EventRecord

/-- Every text of an event is digits, and the other event has the mark in front of some of them. -/
structure MayMark (event other : EventRecord) : Prop where
  address : Hex.MayMark event.address other.address
  topics : List.Forall₂ Hex.MayMark event.topics other.topics
  data : Hex.MayMark event.data other.data

/-- Some text of the event is the mark alone. -/
def HasLoneMark (event : EventRecord) : Prop :=
  event.address = "0x" ∨ "0x" ∈ event.topics ∨ event.data = "0x"

end Ledger.EventRecord

namespace Eth

open Ledger (Decoded EventRecord)

/-- Wherever the event is, its texts are shown as they are, behind the mark. -/
def ShowsMarked (event : EventRecord) : Prop :=
  ∀ (place : Place) (position : Nat),
    (place.log event position).address = Hex.marked event.address ∧
      (place.log event position).topics = event.topics.map Hex.marked ∧
      (place.log event position).data = Hex.marked event.data

section Event

variable {event other : EventRecord} (h : event.MayMark other)
include h

theorem bloomValues_of_mayMark : bloomValues other = bloomValues event := by
  have haddress := FixedHex.toOption_parse_of_mayMark (n := 20) (by decide) h.address
  have htopics := map_eq_of_forall₂ (fun t => (FixedHex.parse 32 t).toOption)
    (fun _ _ => FixedHex.toOption_parse_of_mayMark (n := 32) (by decide)) h.topics
  have hvalues (ts : List String) :
      (ts.filterMap fun t => (FixedHex.parse 32 t).toOption.map (·.bytes)) =
        (ts.map fun t => (FixedHex.parse 32 t).toOption).filterMap fun v? => v?.map (·.bytes) := by
    rw [List.filterMap_map]
    rfl
  rw [bloomValues, bloomValues, haddress, hvalues, hvalues, htopics]

theorem accepts_of_mayMark (f : LogFilter) : f.accepts other = f.accepts event := by
  have haddress (v : Address) : v.denotedBy other.address = v.denotedBy event.address := by
    simp only [FixedHex.denotedBy_eq,
      FixedHex.toOption_parse_of_mayMark (n := 20) (by decide) h.address]
  have hat (s t : String) (hst : Hex.MayMark s t) :
      (fun alternatives => TopicsFilter.acceptsAt alternatives t) =
        fun alternatives => TopicsFilter.acceptsAt alternatives s := by
    funext alternatives
    simp only [TopicsFilter.acceptsAt, FixedHex.denotedBy_eq,
      FixedHex.toOption_parse_of_mayMark (n := 32) (by decide) hst]
  -- a position of the filter is a test of the topic there
  have htopics := map_eq_of_forall₂ (fun t alternatives => TopicsFilter.acceptsAt alternatives t)
    hat h.topics
  have hall (topics : List String) : f.topics.accepts topics =
      (f.topics.positions.length ≤ (topics.map fun t alternatives =>
          TopicsFilter.acceptsAt alternatives t).length &&
        (f.topics.positions.zip (topics.map fun t alternatives =>
          TopicsFilter.acceptsAt alternatives t)).all fun p => p.2 p.1) := by
    simp [TopicsFilter.accepts, List.zip_map_right, List.all_map, Function.comp_def]
  simp only [LogFilter.accepts, LogFilter.acceptsLog, AddressFilter.accepts, haddress, hall,
    htopics]

/-- **Events are shown alike unless a text is the mark alone.** -/
theorem log_eq_iff (place : Place) (position : Nat) :
    place.log other position = place.log event position ↔ ¬ other.HasLoneMark := by
  have htext {s t : String} (hst : Hex.MayMark s t) : remarked t = remarked s ↔ t ≠ "0x" := by
    rw [← hst.bare_right_iff, remarked, remarked, hst.bare_left]
    exact ⟨Hex.marked_injective, congrArg Hex.marked⟩
  have htopics : other.topics.map remarked = event.topics.map remarked ↔ "0x" ∉ other.topics := by
    have htopics := h.topics
    generalize event.topics = ss at htopics ⊢
    generalize other.topics = ts at htopics ⊢
    induction htopics with
    | nil => simp
    | cons hst _ ih =>
      rw [List.map_cons, List.map_cons, List.cons.injEq, List.mem_cons, not_or]
      exact and_congr ((htext hst).trans ne_comm) ih
  simp only [Place.log, Log.mk.injEq, and_true, htopics, htext h.address, htext h.data,
    EventRecord.HasLoneMark, not_or]

/-- Digits are shown behind the mark. -/
theorem showsMarked_of_mayMark : ShowsMarked event := by
  obtain ⟨htopics, -⟩ := (List.forall₂_and_left (p := fun s => Hex.bare s = s) _ _).1
    (h.topics.imp fun _ _ hst => ⟨hst.bare_left, hst⟩)
  intro place position
  refine ⟨congrArg Hex.marked h.address.bare_left, List.map_congr_left fun topic hmem => ?_,
    congrArg Hex.marked h.data.bare_left⟩
  exact congrArg Hex.marked (htopics topic hmem)

end Event

/-! ### Transactions -/

section Events

variable {events others : List EventRecord} (h : List.Forall₂ EventRecord.MayMark events others)
include h

theorem logsBloom_of_mayMark : logsBloom others = logsBloom events := by
  rw [logsBloom, logsBloom, List.flatMap_def, List.flatMap_def,
    map_eq_of_forall₂ bloomValues (fun _ _ => bloomValues_of_mayMark) h]

/-- By induction on the events; positions are counted from any number on. -/
theorem logs_eq_iff (place : Place) (first : Nat) :
    ((others.zipIdx first).map fun p => place.log p.1 p.2) =
        ((events.zipIdx first).map fun p => place.log p.1 p.2) ↔
      ∀ other ∈ others, ¬ other.HasLoneMark := by
  induction h generalizing first with
  | nil => simp
  | cons hmark _ ih =>
    rw [List.zipIdx_cons, List.zipIdx_cons, List.map_cons, List.map_cons, List.cons.injEq,
      List.forall_mem_cons]
    exact and_congr (log_eq_iff hmark place first) (ih (first + 1))

variable (hlone : ∀ other ∈ others, ¬ other.HasLoneMark)
include hlone

theorem eventLogs_of_mayMark (f : LogFilter) (place : Place) :
    eventLogs f place others = eventLogs f place events := by
  have hall (event : EventRecord) : LogFilter.accepts {} event = true :=
    LogFilter.accepts_eq_true rfl rfl event
  -- what a filter lets through is decided by the logs as they are shown
  rw [eventLogs_eq (f := f) hall place others, eventLogs_eq (f := f) hall place events,
    eventLogs_of_accepts hall, eventLogs_of_accepts hall, (logs_eq_iff h place 0).2 hlone]

theorem receiptOf_of_mayMark {t : Decoded} {raw : Bytes}
    (hevents : Ledger.decodeEvents t.events = .ok events)
    (hothers : Ledger.decodeEvents raw = .ok others) (txId : String) (b : Ledger.Block) (i : Nat) :
    receiptOf txId b i { t with events := raw } = receiptOf txId b i t := by
  unfold receiptOf
  refine bind_congr fun summary => bind_congr fun valid => bind_congr fun parties => ?_
  have hlogs := (logs_eq_iff h (.ofSlot summary txId i) 0).2 hlone
  simp only [hevents, hothers, checkEvents_ok, ok_bind, hlogs, logsBloom_of_mayMark h]

end Events

/-- **Marks in the texts of events do not matter.** Take events whose texts are all digits, or
empty, and the same events with the mark put in front of any of these texts. Every filter accepts
the same of them, and their blooms are equal. Digits are shown behind the mark; and both lists are
shown alike, in a scan with any filter and in the receipt of their transaction, unless some text is
the mark alone, and then they are not. -/
theorem spelling_of_events {events others : List EventRecord}
    (h : List.Forall₂ EventRecord.MayMark events others) :
    (∀ f : LogFilter, others.map f.accepts = events.map f.accepts) ∧
    logsBloom others = logsBloom events ∧
    (∀ event ∈ events, ShowsMarked event) ∧
    (∀ place : Place,
      (others.zipIdx.map fun p => place.log p.1 p.2) =
          (events.zipIdx.map fun p => place.log p.1 p.2) ↔
        ∀ other ∈ others, ¬ other.HasLoneMark) ∧
    ((∀ other ∈ others, ¬ other.HasLoneMark) →
      (∀ (f : LogFilter) (place : Place), eventLogs f place others = eventLogs f place events) ∧
      ∀ (t : Decoded) (raw : Bytes), Ledger.decodeEvents t.events = .ok events →
        Ledger.decodeEvents raw = .ok others → ∀ (txId : String) (b : Ledger.Block) (i : Nat),
        receiptOf txId b i { t with events := raw } = receiptOf txId b i t) := by
  obtain ⟨hshown, -⟩ := (List.forall₂_and_left (p := ShowsMarked) _ _).1
    (h.imp fun _ _ hmark => ⟨showsMarked_of_mayMark hmark, hmark⟩)
  refine ⟨fun f => ?_, logsBloom_of_mayMark h, hshown, fun place => logs_eq_iff h place 0,
    fun hlone => ⟨?_, ?_⟩⟩
  · exact map_eq_of_forall₂ f.accepts (fun _ _ hmark => accepts_of_mayMark hmark f) h
  · exact eventLogs_of_mayMark h hlone
  · intro t raw hevents hothers
    exact receiptOf_of_mayMark h hlone hevents hothers

theorem spelling_of_events_mixed :
    logsBloom [⟨"0x0c", ["0x0d", ""], "0x01"⟩] = logsBloom [⟨"0c", ["0d", ""], "01"⟩] ∧
    eventLogs {} (.ofSlot ⟨"0x1", "0x0b", "0x0a"⟩ "a1" 0) [⟨"0x0c", ["0x0d", ""], "0x01"⟩] =
      eventLogs {} (.ofSlot ⟨"0x1", "0x0b", "0x0a"⟩ "a1" 0) [⟨"0c", ["0d", ""], "01"⟩] := by
  have hmarks : List.Forall₂ EventRecord.MayMark
      [⟨"0c", ["0d", ""], "01"⟩] [⟨"0x0c", ["0x0d", ""], "0x01"⟩] := by
    refine .cons ⟨⟨by decide, .inr rfl⟩, .cons ⟨by decide, .inr rfl⟩ (.cons ?_ .nil), ?_⟩ .nil
    · exact ⟨by decide, .inl rfl⟩
    · exact ⟨by decide, .inr rfl⟩
  have hlone : ∀ other ∈ [(⟨"0x0c", ["0x0d", ""], "0x01"⟩ : EventRecord)], ¬ other.HasLoneMark := by
    intro other hother
    obtain rfl := List.mem_singleton.1 hother
    simp [EventRecord.HasLoneMark]
  obtain ⟨-, hbloom, -, -, hshown⟩ := spelling_of_events hmarks
  exact ⟨hbloom, (hshown hlone).1 {} _⟩

/-- A chain with one transaction, whose only event has no address, no topics and some data. -/
def chainWithData (data : String) : List (List (Ledger.Content × UInt8)) :=
  [[(.endorsed "a1" [] [] [⟨"", [], data⟩], 0)]]

/-- Data that is the mark alone is shown with the mark twice. -/
theorem data_marked_twice :
    EventRecord.MayMark ⟨"", [], ""⟩ ⟨"", [], "0x"⟩ ∧
    List.map (·.data) <$> (getLogs { fromBlock := some "0x0" }).outcome
      (Ledger.answersOf (chainWithData "")) = .ok ["0x"] ∧
    List.map (·.data) <$> (getLogs { fromBlock := some "0x0" }).outcome
      (Ledger.answersOf (chainWithData "0x")) = .ok ["0x0x"] := by
  refine ⟨⟨⟨by decide, .inl rfl⟩, .nil, ⟨by decide, .inr rfl⟩⟩, ?_, ?_⟩
  · decide +kernel
  · decide +kernel

end Eth

end LedgerBridge
