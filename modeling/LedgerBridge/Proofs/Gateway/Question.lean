import LedgerBridge.Json.Record
import LedgerBridge.Proofs.Gateway.Endpoint
import LedgerBridge.Proofs.Hex.Mark
import LedgerBridge.Proofs.Json.RoundTrip

/-!
# What a gateway reads in a request

The other side of the wire: a gateway takes the path of a request apart, reads the body as JSON, and
reads the arguments as hexadecimal.

* `question? root request`: the channel and the question that a gateway below `root` reads;
* `question?_request`: they are those of the client, if the texts in the route are segments.
-/

namespace LedgerBridge.Gateway

open Json (Writable)
open Ledger (Call)
open Url (Encodes IsSegment)

/-! ### Reading -/

/-- The text that a segment stands for. -/
def readSegment (segment : String) : Option String :=
  Utf8.decode? (Url.Percent.decode (Utf8.encode segment))

/-- The texts of the route below `root`, up to a query. -/
def readRoute (root target : String) : Option (List String) :=
  if root.toList <+: target.toList then
    (Url.readSegments ((target.toList.drop root.toList.length).takeWhile (· ≠ '?'))).mapM
      readSegment
  else none

/-- A number of 64 bits in decimal digits. -/
def readNumber (s : String) : Option UInt64 :=
  let digits := Utf8.encode s
  if digits ≠ [] ∧ digits.all Json.isDigit ∧ Json.digitsValue 0 digits < UInt64.size then
    some (UInt64.ofNat (Json.digitsValue 0 digits))
  else none

/-- An argument in hexadecimal. -/
def readArgument (s : String) : Option Bytes := (Hex.decode (Utf8.encode s)).toOption

/-- The function of an invocation and its arguments. -/
def readInvocation (body : Bytes) : Option (String × List Bytes) := do
  let [function, args] ← Json.slots? [⟨["fcn"], false⟩, ⟨["args"], false⟩] (← Json.parse? body)
    | none
  let args ← Json.Record.required (Json.asList? Json.asText?) args
  return (← Json.Record.text? function, ← args.mapM readArgument)

/-- The channel and the question of a route. -/
def questionOf (method : String) (body : Bytes) : List String → Option (String × Call)
  | ["channels", channel, "chaincodes", chaincode, action] => do
    let (function, args) ← readInvocation body
    if method = "POST" ∧ action = "query" then return (channel, .query chaincode function args)
    else if method = "POST" ∧ action = "execute" then
      return (channel, .execute chaincode function args)
    else none
  | ["channels", channel, "height"] => if method = "GET" then some (channel, .height) else none
  | ["channels", channel, "blocks", number] =>
    if method = "GET" then (readNumber number).map fun n => (channel, .block n) else none
  | ["channels", channel, "transactions", txId, "block"] =>
    if method = "GET" then some (channel, .blockOf txId) else none
  | _ => none

/-- The channel and the question that a gateway below `root` reads in a request. -/
def question? (root : String) (request : Http.Request) : Option (String × Call) :=
  (readRoute root request.target).bind (questionOf request.method request.body)

/-! ### Reading what the client writes -/

theorem readSegment_of_encodes {segment s : String} (h : Encodes segment s) :
    readSegment segment = some s := by
  rw [readSegment, h.decode_eq, Utf8.decode?_encode]

/-- The route in a request ends where the query begins. -/
theorem readRoute_target {client : Client} {c : Call} {segments : List String}
    (h : client.Follows c segments) : readRoute client.root (client.request c).target =
      some ("channels" :: client.channel :: route c) := by
  have hplain := Url.plain_of_forall₂ h.encodes
  have hmark : ∀ d ∈ (Url.segmentsText segments).toList, decide (d ≠ '?') = true := by
    rw [Url.toList_segmentsText]
    intro d hd
    obtain ⟨segment, hsegment, hd⟩ := List.mem_flatMap.1 hd
    rw [decide_eq_true_eq]
    rintro rfl
    rcases List.mem_cons.1 hd with hd | hd
    · exact absurd hd (by decide)
    · exact (hplain segment hsegment).2 hd
  have htail : client.tail.toList.takeWhile (fun d => decide (d ≠ '?')) = [] := by
    unfold Client.tail
    cases client.base.query with
    | none => rfl
    | some q => simp
  rw [Client.target_of_follows h, readRoute, String.append_assoc, String.toList_append,
    if_pos (List.prefix_append _ _), List.drop_left, String.toList_append,
    List.takeWhile_append_of_pos hmark, htail, List.append_nil,
    Url.readSegments_segmentsText fun s hs => (hplain s hs).1]
  exact mapM_eq_some_iff.2 (h.encodes.imp fun _ _ => readSegment_of_encodes)

theorem readNumber_toString (n : UInt64) : readNumber (toString n.toNat) = some n := by
  have hdigits : Utf8.encode (toString n.toNat) = Json.decimal n.toNat := by
    rw [show toString n.toNat = String.ofList (Nat.toDigits 10 n.toNat) from rfl,
      Utf8.encode_ofList]
    rfl
  have hne : Json.decimal n.toNat ≠ [] := by
    obtain ⟨d, ds, h, -⟩ := Json.decimal_eq_cons n.toNat
    rw [h]
    exact List.cons_ne_nil d ds
  have hlt : Json.digitsValue 0 (Json.decimal n.toNat) < UInt64.size := by
    rw [Json.digitsValue_decimal]
    exact n.toNat_lt
  rw [readNumber, hdigits, if_pos ⟨hne, List.all_eq_true.2 Json.isDigit_of_mem_decimal, hlt⟩,
    Json.digitsValue_decimal, UInt64.ofNat_toNat]

theorem writable_invocation (function : String) (args : List Bytes) :
    Writable (invocation function args) := by
  refine .object fun m hm => ?_
  simp only [List.mem_cons, List.not_mem_nil, or_false] at hm
  rcases hm with rfl | rfl
  · exact .text _
  · refine .array fun j hj => ?_
    obtain ⟨a, -, rfl⟩ := List.mem_map.1 hj
    exact .text _

theorem readArgument_encode (a : Bytes) : readArgument (Hex.encode a) = some a := by
  rw [readArgument, Hex.decode_encode]
  rfl

/-- The function and the arguments are read back from the body. -/
theorem readInvocation_invocation (function : String) (args : List Bytes) :
    readInvocation (Utf8.encode (invocation function args).render) = some (function, args) := by
  have hslots : Json.slots? [⟨["fcn"], false⟩, ⟨["args"], false⟩] (invocation function args) =
      some [some (.str function), some (.array (args.map fun a => .str (Hex.encode a)))] := rfl
  have hlist : (args.map fun a => Json.str (Hex.encode a)).mapM Json.asText? =
      some (args.map Hex.encode) := by
    rw [List.mapM_map]
    exact List.mapM_pure
  have hargs : (args.map Hex.encode).mapM readArgument = some args := by
    rw [List.mapM_map, show readArgument ∘ Hex.encode = pure from funext readArgument_encode]
    exact List.mapM_pure.trans (congrArg some (List.map_id _))
  rw [readInvocation, Json.parse?_render (writable_invocation function args)]
  simp only [Option.bind_eq_bind, Option.bind_some, hslots, Json.Record.required, Json.asList?,
    hlist, hargs]
  rfl

/-- **A gateway reads the question that the client was asked.** -/
theorem question?_request (client : Client) {c : Call}
    (h : ∀ s ∈ client.channel :: chosen c, IsSegment s) :
    question? client.root (client.request c) = some (client.channel, c) := by
  obtain ⟨segments, hfollows⟩ := (client.exists_follows_iff c).2 h
  rw [question?, readRoute_target hfollows, Option.bind_some]
  cases c with
  | query chaincode function args =>
    rw [route, questionOf]
    simp [Client.request, Client.post, readInvocation_invocation]
  | execute chaincode function args =>
    rw [route, questionOf]
    simp [Client.request, Client.post, readInvocation_invocation]
  | height =>
    rw [route, questionOf]
    rfl
  | block number =>
    rw [route, questionOf]
    simp only [Client.request, Client.get, if_true, readNumber_toString, Option.map_some]
  | blockOf txId =>
    rw [route, questionOf]
    rfl

end LedgerBridge.Gateway
