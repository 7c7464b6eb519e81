import LedgerBridge.Eth.Contract
import LedgerBridge.Proofs.Eth.Session
import LedgerBridge.Proofs.Json.Members
import LedgerBridge.Proofs.Json.RoundTrip
import LedgerBridge.Proofs.Ledger.Chain

/-!
# Requests in other forms

A client may write a request as it likes: the members of the object in any order and among others,
the data under the name of the input, null where there is nothing to say, or all fields in a list.

* `Json.ReadsForms fields values write read`: the reader takes a value back from each of its forms,
  and refuses objects that give a field twice;
* `CallRequest.readsForms`, `LogQuery.readsForms`: so it is for calls and for queries;
* `CallRequest.SameCall`: calls with the same callee and data, whatever else they say. They are the
  same call and the same transaction (`call_congr`, `sendTransaction_congr`).
-/

namespace LedgerBridge

/-! ### Records of fields that may be missing -/

namespace Json

/-- A reader of records takes a value back from whatever is written for it. -/
structure ReadsForms {α : Type} (fields : List (List String)) (values : α → List (Option Json))
    (write : α → Json) (read : Json → Option α) : Prop where
  back (a : α) : (parse? (Utf8.encode (write a).render)).bind read = some a
  /-- An object may give the fields in any order, under any of their names and among other members,
  a list gives them as they are declared, and a field without a value may be null. All of it may be
  spelled in any way. -/
  forms {a : α} {slots : List (Option Json)} {j : Json} {w : Bytes}
    (hslots : List.Forall₂ Nullable (values a) slots) (hj : Presents fields slots j)
    (hw : Spelled j w) : (parse? w).bind read = some a
  /-- No object gives a field twice, whatever its values are. -/
  twice {members : List (String × Json)} {names : List String} {w : Bytes} (hnames : names ∈ fields)
    (htwice : 2 ≤ (given members names).length) (hw : Spelled (.record members) w) :
    (parse? w).bind read = none

section ReadsForms

variable {α : Type} {declared : List Member} {values : α → List (Option Json)} {write : α → Json}
  {read : Json → Option α}

/-- A reader of the slots of a record reads its forms, if any field may be left out of a list. -/
theorem readsForms_of_slots (htrailing : ∀ m ∈ declared, m.trailing = true)
    (hread : ∀ {a slots j}, List.Forall₂ Nullable (values a) slots →
      slots? declared j = some slots → read j = some a)
    (hnone : ∀ {j}, slots? declared j = none → read j = none)
    (hwrite : ∀ a, Presents (declared.map (·.names)) (values a) (write a))
    (hwritable : ∀ a, (write a).Writable) :
    ReadsForms (declared.map (·.names)) values write read := by
  have hforms {a : α} {slots : List (Option Json)} {j : Json} {w : Bytes}
      (hslots : List.Forall₂ Nullable (values a) slots)
      (hj : Presents (declared.map (·.names)) slots j) (hw : Spelled j w) :
      (parse? w).bind read = some a := by
    rw [parse?_of_spelled hw, Option.bind_some]
    refine hread hslots (slots?_of_presents hj (List.forall₂_iff_zip.2 ⟨?_, fun hp _ => ?_⟩))
    · rw [← List.length_map (·.names), hj.length_eq]
    · exact htrailing _ (List.of_mem_zip hp).1
  refine ⟨fun a => ?_, hforms, fun hnames htwice hw => ?_⟩
  · rw [encode_render]
    exact hforms (List.forall₂_same.2 fun _ _ => .same) (hwrite a) (spelled_bytes (hwritable a))
  · rw [parse?_of_spelled hw, Option.bind_some]
    exact hnone (slots?_of_twice hnames htwice)

end ReadsForms

end Json

namespace Eth

open Json (Nullable ReadsForms given optionalText?_of_nullable orElse_of_nullable
  readsForms_of_slots)

/-! ### Members that are written only if they are there -/

theorem given_memberIfPresent (name : String) (value : Option Json) (names : List String) :
    given (memberIfPresent name value) names = if name ∈ names then value.toList else [] := by
  cases value with
  | none => simp [given, memberIfPresent]
  | some j =>
    by_cases h : name ∈ names <;> simp [given, memberIfPresent, h]

theorem writable_memberIfPresent {α : Type} {write : α → Json} (h : ∀ a, (write a).Writable)
    (name : String) (x : Option α) :
    ∀ m ∈ memberIfPresent name (x.map write), m.2.Writable := by
  cases x with
  | none => exact fun m hm => absurd hm List.not_mem_nil
  | some a => exact List.forall_mem_singleton.2 (h a)

/-! ### Calls -/

namespace CallRequest

/-- The names that the fields of a call go by. -/
def fieldNames : List (List String) :=
  [["to"], ["from"], ["gas"], ["gasPrice"], ["value"], ["data", "input"], ["nonce"]]

/-- The values of the fields of a call. -/
def values (r : CallRequest) : List (Option Json) :=
  [r.recipient, r.sender, r.gas, r.gasPrice, r.value, r.data, r.nonce].map (·.map .str)

theorem ofJson?_of_slots {r : CallRequest} {slots : List (Option Json)} {j : Json}
    (h : List.Forall₂ Nullable r.values slots) (hj : Json.slots? members j = some slots) :
    ofJson? j = some r := by
  obtain _ | ⟨hto, _ | ⟨hfrom, _ | ⟨hgas, _ | ⟨hprice, _ | ⟨hvalue, _ | ⟨hdata, _ | ⟨hnonce, _ |
    _⟩⟩⟩⟩⟩⟩⟩ := h
  unfold ofJson?
  rw [hj]
  simp [optionalText?_of_nullable hto, optionalText?_of_nullable hfrom,
    optionalText?_of_nullable hgas, optionalText?_of_nullable hprice,
    optionalText?_of_nullable hvalue, optionalText?_of_nullable hdata,
    optionalText?_of_nullable hnonce]

theorem presents_toJson (r : CallRequest) : Json.Presents fieldNames r.values r.toJson := by
  unfold toJson
  refine .named ?_
  simp only [fieldNames, values, List.map_cons, List.map_nil, List.forall₂_cons, List.Forall₂.nil,
    and_true, Json.given_append, given_memberIfPresent]
  simp

theorem writable_toJson (r : CallRequest) : r.toJson.Writable := by
  have htext := @writable_memberIfPresent _ Json.str fun s => .text s
  refine .object ?_
  simp only [List.forall_mem_append]
  and_intros <;> exact htext _ _

theorem readsForms : ReadsForms fieldNames values toJson ofJson? :=
  readsForms_of_slots (by decide) ofJson?_of_slots (fun h => by rw [ofJson?, h]; rfl)
    presents_toJson writable_toJson

/-- Two calls with the same callee and the same data, where none is as good as an empty one. -/
structure SameCall (r r' : CallRequest) : Prop where
  recipient : r.recipient.getD "" = r'.recipient.getD ""
  data : r.data.getD "" = r'.data.getD ""

theorem callee_eq (r : CallRequest) :
    r.callee = if r.recipient.getD "" = "" then none else some (r.recipient.getD "") := by
  unfold callee
  cases r.recipient with
  | none => rfl
  | some s => by_cases h : s = "" <;> simp [h]

end CallRequest

section SameCall

variable {r r' : CallRequest} (h : r.SameCall r') (config : Config)
include h

theorem call_congr : call config r = call config r' := by
  unfold call CallRequest.input
  rw [r.callee_eq, r'.callee_eq, h.recipient, h.data]

theorem sendTransaction_congr : sendTransaction config r = sendTransaction config r' := by
  unfold sendTransaction functionOf CallRequest.input
  rw [r.callee_eq, r'.callee_eq, h.recipient, h.data]

end SameCall

/-! ### Queries for logs -/

theorem Choice.ofJson?_toJson (c : Choice) : ofJson? c.toJson = some c := by
  cases c with
  | one s => rfl
  | anyOf ss =>
    show anyOf <$> Json.asList? Json.asText? (.array (ss.map .str)) = _
    rw [@Json.asList?_map _ Json.asText? .str fun _ => rfl]
    rfl

theorem Choice.toJson_ne_null (c : Choice) : c.toJson ≠ .null := by
  cases c <;> simp [toJson]

theorem Choice.writable_toJson (c : Choice) : c.toJson.Writable := by
  cases c with
  | one s => exact .text s
  | anyOf ss => exact .array_map .text ss

namespace LogQuery

/-- The names that the fields of a query go by. -/
def fieldNames : List (List String) :=
  [["fromBlock"], ["toBlock"], ["address"], ["topics"], ["blockHash", "blockhash"]]

/-- The values of the fields of a query. -/
def values (q : LogQuery) : List (Option Json) :=
  [q.fromBlock.map .str, q.toBlock.map .str, q.address.map Choice.toJson,
    q.topics.map positionsToJson, q.blockHash.map .str]

theorem positionsOfJson?_positionsToJson (positions : List (Option Choice)) :
    positionsOfJson? (positionsToJson positions) = some positions :=
  Json.asList?_map (Json.asOptional?_elim Choice.ofJson?_toJson Choice.toJson_ne_null) positions

theorem writable_positionsToJson (positions : List (Option Choice)) :
    (positionsToJson positions).Writable := by
  refine .array_map (fun p => ?_) positions
  cases p with
  | none => exact .null
  | some c => exact c.writable_toJson

theorem ofJson?_of_slots {q : LogQuery} {slots : List (Option Json)} {j : Json}
    (h : List.Forall₂ Nullable q.values slots) (hj : Json.slots? members j = some slots) :
    ofJson? j = some q := by
  obtain _ | ⟨hfrom, _ | ⟨hto, _ | ⟨haddress, _ | ⟨htopics, _ | ⟨hhash, _ | _⟩⟩⟩⟩⟩ := h
  have haddress := orElse_of_nullable Choice.ofJson?_toJson Choice.toJson_ne_null haddress
  have htopics := orElse_of_nullable positionsOfJson?_positionsToJson
    (fun _ => by simp [positionsToJson]) htopics
  unfold ofJson?
  rw [hj]
  simp [optionalText?_of_nullable hfrom, optionalText?_of_nullable hto, haddress, htopics,
    optionalText?_of_nullable hhash]

theorem presents_toJson (q : LogQuery) : Json.Presents fieldNames q.values q.toJson := by
  unfold toJson
  refine .named ?_
  simp only [fieldNames, values, List.forall₂_cons, List.Forall₂.nil, and_true, Json.given_append,
    given_memberIfPresent]
  simp

theorem writable_toJson (q : LogQuery) : q.toJson.Writable := by
  have htext := @writable_memberIfPresent _ Json.str fun s => .text s
  refine .object ?_
  simp only [List.forall_mem_append]
  and_intros
  · exact htext _ _
  · exact htext _ _
  · exact writable_memberIfPresent Choice.writable_toJson _ _
  · exact writable_memberIfPresent writable_positionsToJson _ _
  · exact htext _ _

theorem readsForms : ReadsForms fieldNames values toJson ofJson? :=
  readsForms_of_slots (by decide) ofJson?_of_slots (fun h => by rw [ofJson?, h]; rfl)
    presents_toJson writable_toJson

end LogQuery

/-- **Requests do not depend on how they are written**, and calls not on what does not reach the
ledger. Calls and queries are read back from what is written for them and from all their other
forms, but from no object that gives a field twice. Calls with the same callee and data have the
same answers and ask the same questions, whatever their other fields are, also of a ledger that
changes. -/
theorem requests_read :
    ReadsForms CallRequest.fieldNames CallRequest.values CallRequest.toJson CallRequest.ofJson? ∧
    ReadsForms LogQuery.fieldNames LogQuery.values LogQuery.toJson LogQuery.ofJson? ∧
    ∀ (r r' : CallRequest), r.SameCall r' →
      ∀ (config : Config) (S : Ledger.Session) (asked : List Ledger.Call),
      (call config r).outcomeIn S asked = (call config r').outcomeIn S asked ∧
      (call config r).callsIn S asked = (call config r').callsIn S asked ∧
      (sendTransaction config r).outcomeIn S asked =
        (sendTransaction config r').outcomeIn S asked ∧
      (sendTransaction config r).callsIn S asked = (sendTransaction config r').callsIn S asked := by
  refine ⟨CallRequest.readsForms, LogQuery.readsForms, fun r r' h config S asked => ?_⟩
  rw [call_congr h, sendTransaction_congr h]
  exact ⟨rfl, rfl, rfl, rfl⟩

theorem requests_read_samples :
    (Json.parse? (Json.bytes (.record
        [("input", .str "0x01"), ("other", .array []), ("from", .null)]))).bind
      CallRequest.ofJson? = some { data := some "0x01" } ∧
    (Json.parse? (Json.bytes (.array [.null, .str "latest", .array [.str "0x12"],
        .array [.null, .array [.str "0xa", .str ""], .str "0xb"]]))).bind LogQuery.ofJson? =
      some {
        toBlock := some "latest"
        address := some (.anyOf ["0x12"])
        topics := some [none, some (.anyOf ["0xa", ""]), some (.one "0xb")] } ∧
    (Json.parse? (Json.bytes (.record [("blockHash", .null), ("blockhash", .str "0x1")]))).bind
      LogQuery.ofJson? = none ∧
    (sendTransaction {} { recipient := some "", data := some "0x01" }).callsIn
        (fun _ => Ledger.answersOf Ledger.sampleChain) [] =
      (sendTransaction {} { gas := some "0x5", data := some "0x01" }).callsIn
        (fun _ => Ledger.answersOf Ledger.sampleChain) [] := by
  obtain ⟨hcall, hquery, hsame⟩ := requests_read
  have hnamed : List.Forall₂ Nullable (CallRequest.values { data := some "0x01" })
      [none, some .null, none, none, none, some (.str "0x01"), none] :=
    .cons .same (.cons (.null rfl) (.cons .same (.cons .same (.cons .same (.cons .same
      (.cons .same .nil))))))
  have hpositions := LogQuery.writable_positionsToJson
    [none, some (.anyOf ["0xa", ""]), some (.one "0xb")]
  have hlisted : Json.Presents LogQuery.fieldNames [some .null, some (.str "latest"),
      some (.array [.str "0x12"]), some (.array [.null, .array [.str "0xa", .str ""], .str "0xb"]),
      none] (.array _) := @Json.Presents.listed _ _ [_, _, _, _] 1 rfl rfl
  refine ⟨hcall.forms hnamed (.named ?_) (Json.spelled_bytes ?_),
    hquery.forms ?_ hlisted (Json.spelled_bytes ?_),
    hquery.twice (show ["blockHash", "blockhash"] ∈ LogQuery.fieldNames by decide) le_rfl
      (Json.spelled_bytes ?_),
    (hsame _ _ ⟨rfl, rfl⟩ _ _ _).2.2.2⟩
  · exact .cons rfl (.cons rfl (.cons rfl (.cons rfl (.cons rfl (.cons rfl (.cons rfl .nil))))))
  · exact .object (List.forall_mem_cons.2 ⟨.text _, List.forall_mem_cons.2
      ⟨.array (fun _ h => absurd h List.not_mem_nil), List.forall_mem_singleton.2 .null⟩⟩)
  · exact .cons (.null rfl) (.cons .same (.cons .same (.cons .same (.cons .same .nil))))
  · exact .array (List.forall_mem_cons.2 ⟨.null, List.forall_mem_cons.2 ⟨.text _,
      List.forall_mem_cons.2 ⟨(Choice.anyOf ["0x12"]).writable_toJson,
        List.forall_mem_singleton.2 hpositions⟩⟩⟩)
  · exact .object (List.forall_mem_cons.2 ⟨.null, List.forall_mem_singleton.2 (.text _)⟩)

end Eth

end LedgerBridge
