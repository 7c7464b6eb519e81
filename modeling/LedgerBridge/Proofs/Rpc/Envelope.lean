import LedgerBridge.Proofs.Json.Entry
import LedgerBridge.Rpc.Exchange

/-!
# Requests as they are written

A request is an object with a version, an id, the name of a method, and maybe parameters, in any
order and with any other members between them.

* `Spells entries r`: the members of an object are those of a request;
* `read_objectText`: such an object is read as that request;
* `answer?_objectText`: and answered, unless there is too much white space in front of it.
-/

namespace LedgerBridge.Rpc

open Eth (Config)
open Json (Entry IsBlank objectText)

/-- The value is a list or an object. -/
def IsStructured : Json → Prop
  | .array _ => True
  | .object _ => True
  | _ => False

/-- The members with a name. -/
def named (entries : List Entry) (name : String) : List Entry :=
  entries.filter fun e => e.name = name

/-- The members of an object are those of a request: one for each part, and any others. -/
structure Spells (entries : List Entry) (r : Request) : Prop where
  version : ∃ e, named entries "jsonrpc" = [e] ∧ e.value = .str "2.0"
  id : ∃ e, named entries "id" = [e] ∧ Id.ofJson? e.value = some r.id
  method : ∃ e, named entries "method" = [e] ∧ e.value = .str r.method
  /-- The parameters are kept as they are written. -/
  params : named entries "params" = [] ∧ r.params = none ∨
    ∃ e text, named entries "params" = [e] ∧ IsStructured e.value ∧
      e.spelledValue = Utf8.encode text ∧ r.params = some text

theorem valuesOf_entries (entries : List Entry) (name : String) :
    Json.Record.valuesOf { names := [name] }
        (entries.map fun e => (some e.name, e.spelledValue)) =
      (named entries name).map (·.spelledValue) := by
  rw [Json.Record.valuesOf_named, List.filter_map, List.map_map, named]
  simp [Function.comp_def]

variable {entries : List Entry} {r : Request}

/-- A member that a record has once gives its slot. -/
theorem onlyValue_of_named {e : Entry} {name : String} (h : named entries name = [e]) :
    Json.Record.onlyValue (Json.Record.valuesOf { names := [name] }
      (entries.map fun e => (some e.name, e.spelledValue))) = some (some e.spelledValue) := by
  rw [valuesOf_entries, h]
  rfl

theorem isVersion_of_isToken {v : Bytes} (h : Json.IsToken v (.str "2.0")) :
    Message.version? v = some () := by
  rw [Message.version?, Message.isVersion, h.parse?_eq]
  rfl

theorem params?_of_isToken {v : Bytes} {j : Json} {text : String} (h : Json.IsToken v j)
    (hj : IsStructured j) (htext : v = Utf8.encode text) :
    Message.params? v = some (some text) := by
  rw [Message.params?, h.parse?_eq]
  have hdecode : (Utf8.decode? v).map some = some (some text) := by
    rw [htext, Utf8.decode?_encode]
    rfl
  cases j <;> first | exact hj.elim | exact hdecode

/-- The members of a request fill its slots. -/
theorem request?_of_spells (h : Spells entries r) :
    Message.request? (.named (entries.map fun e => (some e.name, e.spelledValue))) = some r := by
  obtain ⟨version, hversion, hversionValue⟩ := h.version
  obtain ⟨id, hid, hidValue⟩ := h.id
  obtain ⟨method, hmethod, hmethodValue⟩ := h.method
  obtain ⟨slot, hslot, hparams⟩ : ∃ slot,
      Json.Record.onlyValue (Json.Record.valuesOf { names := ["params"] }
        (entries.map fun e => (some e.name, e.spelledValue))) = some slot ∧
      Json.Record.orElse Message.params? none slot = some r.params := by
    rcases h.params with ⟨hnone, hparams⟩ | ⟨e, text, he, hvalue, htext, hparams⟩
    · refine ⟨none, ?_, by rw [hparams]; rfl⟩
      rw [valuesOf_entries, hnone]
      rfl
    · refine ⟨some e.spelledValue, onlyValue_of_named he, ?_⟩
      rw [hparams]
      exact params?_of_isToken e.isToken_value hvalue htext
  have hslots : Json.Record.slots [{ names := ["jsonrpc"] }, { names := ["id"] },
      { names := ["method"] }, { names := ["params"] }]
      (.named (entries.map fun e => (some e.name, e.spelledValue))) =
      some [some version.spelledValue, some id.spelledValue, some method.spelledValue, slot] := by
    rw [Json.Record.slots, if_pos (by simp)]
    simp only [List.mapM_cons, List.mapM_nil, onlyValue_of_named hversion, onlyValue_of_named hid,
      onlyValue_of_named hmethod, hslot]
    rfl
  have hversionRead := isVersion_of_isToken (hversionValue ▸ version.isToken_value)
  have hidRead : Message.id? id.spelledValue = some r.id := by
    rw [Message.id?, id.isToken_value.parse?_eq]
    exact hidValue
  have hmethodRead : Message.method? method.spelledValue = some r.method := by
    rw [Message.method?, method.isToken_value.parse?_eq, hmethodValue]
    rfl
  rw [Message.request?, hslots]
  simp only [Option.bind_eq_bind, Option.bind_some, Json.Record.required, hversionRead, hidRead,
    hmethodRead, hparams]
  rfl

/-- **A request is read as what its members spell.** -/
theorem read_objectText (h : Spells entries r) {behind : Bytes} (hbehind : IsBlank behind) :
    Message.read (objectText entries behind) = .request r := by
  rw [Message.read, Json.splitShape?_objectText entries hbehind]
  show Message.ofShape _ = _
  rw [Message.ofShape, request?_of_spells h]

theorem isLeadingSpace_of_isSpace {b : UInt8} (h : Json.isSpace b = true) :
    isLeadingSpace b = true := by
  simp only [Json.isSpace, isLeadingSpace, Bool.or_eq_true, decide_eq_true_eq] at h ⊢
  rcases h with ((h | h) | h) | h <;> simp [h]

/-- White space in front of a request is passed over, and an object is a single request; but what
stands too far behind is not looked for. -/
theorem answer?_objectText {front : Bytes} (hfront : IsBlank front) (config : Config) (limit : Nat)
    (behind : Bytes) : answer? config limit (front ++ objectText entries behind) =
      if markReach ≤ front.length then none
      else some (answerSingle config limit (objectText entries behind)) := by
  have hspace : (front ++ objectText entries behind).takeWhile isLeadingSpace = front := by
    rw [List.takeWhile_append_of_pos fun b hb => isLeadingSpace_of_isSpace (hfront b hb)]
    exact List.append_nil front
  rw [answer?, hspace, List.drop_left]
  rfl

end LedgerBridge.Rpc
