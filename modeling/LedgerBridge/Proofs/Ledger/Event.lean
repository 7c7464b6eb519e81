import LedgerBridge.Ledger.Commit
import LedgerBridge.Proofs.Json.Members
import LedgerBridge.Proofs.Json.RoundTrip
import LedgerBridge.Proofs.Ledger.Message

/-!
# Events read back

The logs of a transaction pass through two formats, a JSON list inside a serialized event. They come
out of them as they went in (`decodeEvents_chaincodeEvent`), and it does not matter how the list is
written.

* `EventRecord.Writes e j`: the JSON value `j` is the log `e`, as an object or as a list;
* `EventRecord.ofJson?_of_writes`: a log is read from each of its forms;
* `decodeEvents_spelled`: the logs of every spelling of a list of them are read, and a list with an
  object that gives a field twice, or no address, is not.
-/

namespace LedgerBridge.Ledger

open Json (Presents Spelled TextSpelled given writtenMember)
open Protobuf.Format (length_le_of_bytes)

namespace EventRecord

/-! ### Logs -/

/-- The names that the fields of a log go by. -/
def fieldNames : List (List String) :=
  [["address", "Address"], ["topics", "Topics"], ["data", "Data"]]

/-- What may stand for the topics: the list of them, and if there are none, null or nothing. -/
inductive TopicsSlot (topics : List String) : Option Json → Prop where
  | listed : TopicsSlot topics (some (.array (topics.map .str)))
  | null (h : topics = []) : TopicsSlot topics (some .null)
  | missing (h : topics = []) : TopicsSlot topics none

/-- What may stand for the data: its text, and if it is empty, nothing. -/
inductive DataSlot (data : String) : Option Json → Prop where
  | text : DataSlot data (some (.str data))
  | missing (h : data = "") : DataSlot data none

/-- The JSON value is the log, in one of its forms. -/
inductive Writes (e : EventRecord) (j : Json) : Prop where
  | mk {topics data : Option Json} (htopics : TopicsSlot e.topics topics)
      (hdata : DataSlot e.data data)
      (h : Presents fieldNames [some (.str e.address), topics, data] j)

theorem orElse_topics {topics : List String} {slot : Option Json} (h : TopicsSlot topics slot) :
    Json.Record.orElse topicsOfJson? [] slot = some topics := by
  cases h with
  | listed =>
    have hlist : Json.asList? Json.asText? (.array (topics.map .str)) = some topics :=
      @Json.asList?_map _ Json.asText? .str (fun _ => rfl) topics
    simp [Json.Record.orElse, topicsOfJson?, Json.asOptional?, hlist]
  | null h => rw [h]; rfl
  | missing h => rw [h]; rfl

theorem orElse_data {data : String} {slot : Option Json} (h : DataSlot data slot) :
    Json.Record.orElse Json.asText? "" slot = some data := by
  cases h with
  | text => rfl
  | missing h => rw [h]; rfl

/-- **A log is read from each of its forms.** -/
theorem ofJson?_of_writes {e : EventRecord} {j : Json} (h : e.Writes j) : ofJson? j = some e := by
  obtain @⟨topics, data, htopics, hdata, h⟩ := h
  have hslots : Json.slots? members j = some [some (.str e.address), topics, data] :=
    Json.slots?_of_presents h (by simp [members])
  unfold ofJson?
  rw [hslots]
  simp [Json.Record.required, Json.asText?, orElse_topics htopics, orElse_data hdata]

/-- An object without an address is no log. -/
theorem ofJson?_of_missing {ms : List (String × Json)} (h : given ms ["address", "Address"] = []) :
    ofJson? (.record ms) = none := by
  unfold ofJson?
  rw [Json.slots?_record]
  simp only [members, List.mapM_cons, List.mapM_nil, h]
  cases Json.Record.onlyValue (given ms ["topics", "Topics"]) with
  | none => rfl
  | some topics =>
    cases Json.Record.onlyValue (given ms ["data", "Data"]) with
    | none => rfl
    | some data => rfl

theorem writes_toJson (e : EventRecord) : e.Writes e.toJson :=
  ⟨.listed, .text, .named (.cons rfl (.cons rfl (.cons rfl .nil)))⟩

theorem writable_toJson (e : EventRecord) : e.toJson.Writable := by
  refine .object fun m hm => ?_
  simp only [List.mem_cons, List.not_mem_nil, or_false] at hm
  rcases hm with rfl | rfl | rfl
  · exact .text _
  · exact .array_map .text e.topics
  · exact .text _

/-- A log is read back from its JSON form. -/
theorem ofJson?_toJson (e : EventRecord) : ofJson? e.toJson = some e :=
  ofJson?_of_writes e.writes_toJson

end EventRecord

/-! ### Payloads -/

theorem eventsOfPayload?_of_spelled {items : List Json} {payload : Bytes}
    (h : Spelled (.array items) payload) :
    eventsOfPayload? payload = items.mapM EventRecord.ofJson? := by
  rw [eventsOfPayload?, Json.parse?_of_spelled h]
  rfl

/-- What an event holds are the logs of its payload. -/
theorem decodeEvents_of_payload {payload : Bytes} (hne : payload ≠ [])
    (hsize : (chaincodeEvent payload).length < UInt64.size) :
    decodeEvents (chaincodeEvent payload) =
      (eventsOfPayload? payload).elim (.error .payload) .ok := by
  have hdecode := ChaincodeEvent.lawful_format.decode_encode hsize
  have hevent : chaincodeEvent payload ≠ [] := by
    intro hnil
    have := ChaincodeEvent.lawful_format.eq_missing hnil
    exact hne (congrArg ChaincodeEvent.payload this)
  unfold decodeEvents
  rw [if_neg hevent]
  unfold chaincodeEvent at hdecode ⊢
  rw [hdecode]
  simp only [if_neg hne]
  cases eventsOfPayload? payload <;> rfl

/-- What is written for the logs spells their list. -/
theorem spelled_payloadOfEvents (events : List EventRecord) :
    Spelled (.array (events.map EventRecord.toJson)) (payloadOfEvents events) := by
  rw [payloadOfEvents, Json.encode_render]
  exact Json.spelled_bytes (.array_map EventRecord.writable_toJson events)

theorem payloadOfEvents_ne_nil (events : List EventRecord) : payloadOfEvents events ≠ [] :=
  List.length_pos_iff.1 (spelled_payloadOfEvents events).length_pos

theorem eventsOfPayload?_payloadOfEvents (events : List EventRecord) :
    eventsOfPayload? (payloadOfEvents events) = some events := by
  rw [eventsOfPayload?_of_spelled (spelled_payloadOfEvents events), mapM_eq_some_iff,
    List.forall₂_map_left_iff, List.forall₂_same]
  exact fun e _ => e.ofJson?_toJson

/-- **The logs of a transaction are read back from its event.** -/
theorem decodeEvents_chaincodeEvent {events : List EventRecord}
    (h : (chaincodeEvent (payloadOfEvents events)).length < UInt64.size) :
    decodeEvents (chaincodeEvent (payloadOfEvents events)) = .ok events := by
  rw [decodeEvents_of_payload (payloadOfEvents_ne_nil events) h, eventsOfPayload?_payloadOfEvents]
  rfl

/-- **Logs are read from every spelling of their list.** In a payload that is a JSON list, spelled
in any way, every log may be written in a form of its own. But if any of the items is an object that
gives a field twice, under whichever of its names, or no address, nothing is read. (No event is so
long that its bytes cannot be counted in 64 bits.) -/
theorem decodeEvents_spelled {items : List Json} {payload : Bytes}
    (hpayload : Spelled (.array items) payload)
    (hsize : (chaincodeEvent payload).length < UInt64.size) :
    (∀ events, List.Forall₂ EventRecord.Writes events items →
      decodeEvents (chaincodeEvent payload) = .ok events) ∧
    ∀ members, .record members ∈ items →
      (∃ names ∈ EventRecord.fieldNames, 2 ≤ (given members names).length) ∨
        given members ["address", "Address"] = [] →
      decodeEvents (chaincodeEvent payload) = .error .payload := by
  have hread := decodeEvents_of_payload (List.length_pos_iff.1 hpayload.length_pos) hsize
  rw [eventsOfPayload?_of_spelled hpayload] at hread
  constructor
  · intro events hevents
    have hitems : items.mapM EventRecord.ofJson? = some events :=
      mapM_eq_some_iff.2 (hevents.flip.imp fun _ _ => EventRecord.ofJson?_of_writes)
    rw [hread, hitems]
    rfl
  · intro members hmem hbad
    have hnone : EventRecord.ofJson? (.record members) = none := by
      rcases hbad with ⟨names, hnames, htwice⟩ | hmissing
      · rw [EventRecord.ofJson?, Json.slots?_of_twice hnames htwice]
        rfl
      · exact EventRecord.ofJson?_of_missing hmissing
    rw [hread, mapM_eq_none_of_mem hmem hnone]
    rfl

/-- Two logs: an object with escapes and a member of another name, and a list that ends early. -/
def mixedPayload : Bytes := Utf8.encode
  "[ \x7b\"Data\":\"ff\",\"x\":[\x7b\x7d],\"\\u0061ddress\":\"\\ud83d\\ude00\"\x7d,[\"b\",null]]"

theorem spelled_mixedPayload : Spelled
    (.array [.record [("Data", .str "ff"), ("x", .array [.record []]), ("address", .str "😀")],
      .array [.str "b", .null]]) mixedPayload := by
  have hname : TextSpelled (some "address") (Utf8.encode "\\u0061ddress") := by
    have ha : Json.Piece.Spelled (.unit 0x61) [0x5c, 0x75, 0x30, 0x30, 0x36, 0x31] := .unit rfl
    have h := (@TextSpelled.char 'a' _ _ .unit (.cons ha .nil)).append
      (Json.textSpelled_writeText "ddress")
    convert h using 1 <;> decide +kernel
  have haddress : TextSpelled (some "😀") (Utf8.encode "\\ud83d\\ude00") :=
    @TextSpelled.char '😀' [.unit 0xd83d, .unit 0xde00]
      [[0x5c, 0x75, 0x64, 0x38, 0x33, 0x64], [0x5c, 0x75, 0x64, 0x65, 0x30, 0x30]]
      (.pair rfl rfl rfl) (.cons (.unit rfl) (.cons (.unit rfl) .nil))
  have hfurther : (Json.array [.record []]).Writable :=
    .array (List.forall_mem_singleton.2 (.object fun _ h => absurd h List.not_mem_nil))
  have hobject := @Spelled.object [writtenMember ("Data", .str "ff"),
      writtenMember ("x", .array [.record []]),
      { name := some "address"
        value := .str "😀"
        beforeName := []
        spelledName := Utf8.encode "\\u0061ddress"
        beforeColon := []
        spelledValue := 0x22 :: (Utf8.encode "\\ud83d\\ude00" ++ [0x22]) }]
    (List.forall_mem_cons.2 ⟨Json.isNamed_writtenMember _, List.forall_mem_cons.2
      ⟨Json.isNamed_writtenMember _, List.forall_mem_singleton.2 ⟨by decide, hname, by decide⟩⟩⟩)
    (List.forall_mem_cons.2 ⟨Json.spelled_bytes (.text _), List.forall_mem_cons.2
      ⟨Json.spelled_bytes hfurther, List.forall_mem_singleton.2 (.text haddress)⟩⟩)
  have hlist := Spelled.array_of_forall₂
    (.cons (Json.spelled_bytes (.text "b")) (.cons Spelled.null .nil))
  have hblank : Json.IsBlank [0x20] := by decide
  have h := Spelled.array_of_forall₂
    (.cons (@Spelled.blank _ _ _ [] hblank hobject (by decide)) (.cons hlist .nil))
  convert h using 1
  · rfl
  · decide +kernel

/-- A log that is a list, and an object that gives the address twice. -/
def twicePayload : Bytes :=
  Json.bytes (.array [.array [.str "b"], .record [("address", .str "a"), ("Address", .null)]])

theorem decodeEvents_spelled_mixed :
    decodeEvents (chaincodeEvent mixedPayload) = .ok [⟨"😀", [], "ff"⟩, ⟨"b", [], ""⟩] ∧
    decodeEvents (chaincodeEvent twicePayload) = .error .payload := by
  have htwice : Spelled _ twicePayload := Json.spelled_bytes (.array (List.forall_mem_cons.2
    ⟨.array (List.forall_mem_singleton.2 (.text "b")), List.forall_mem_singleton.2 (.object
      (List.forall_mem_cons.2 ⟨.text "a", List.forall_mem_singleton.2 .null⟩))⟩))
  refine ⟨(decodeEvents_spelled spelled_mixedPayload (by decide +kernel)).1 _ ?_,
    (decodeEvents_spelled htwice (by decide +kernel)).2 _
      (List.mem_cons_of_mem _ List.mem_cons_self) (.inl ⟨["address", "Address"], by decide, ?_⟩)⟩
  · refine .cons ⟨.missing rfl, .text, .named ?_⟩ (.cons ⟨.null rfl, .missing rfl, ?_⟩ .nil)
    · exact .cons rfl (.cons rfl (.cons rfl .nil))
    · exact @Presents.listed _ _ [_, _] 1 rfl rfl
  · exact le_rfl

end LedgerBridge.Ledger
