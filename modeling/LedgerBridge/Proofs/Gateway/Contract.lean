import LedgerBridge.Gateway.Answer
import LedgerBridge.Proofs.Gateway.Question
import LedgerBridge.Proofs.Hex.Digits
import LedgerBridge.Proofs.Json.Entry
import LedgerBridge.Proofs.Ledger.Message

/-!
# The contract with a gateway

A gateway that serves a table of replies reads the question in a request and writes the reply:
payloads in hexadecimal, numbers in decimal, blocks in their protocol buffer form.

* `Holds c reply body`: the body holds the reply to a question;
* `Serves exchange root T`: so do the responses to all questions that a table has a reply to;
* `serves_gateway`: there is such a gateway for every table;
* `answer_of_holds`: a client reads the reply in such a response;
* `answers_of_serves`: so it gives the replies of the table.
-/

namespace LedgerBridge.Gateway

open Json (Writable)
open Ledger (Block Call Invocation)
open Url (IsSegment)

/-! ### The contract -/

/-- The body is a JSON object that gives the members, each once. -/
def Gives (body : Bytes) (given : List (String × Json)) : Prop :=
  ∃ members, Json.parse? body = some (.object members) ∧ (∀ m ∈ members, m.1.isSome = true) ∧
    ∀ g ∈ given, members.filter (fun m => m.1 = some g.1) = [(some g.1, g.2)]

/-- The text is the digits of some bytes, each in either case. -/
def IsDigitsOf (bytes : Bytes) (text : String) : Prop := Hex.Recases (Hex.encode bytes) text

instance (bytes : Bytes) (text : String) : Decidable (IsDigitsOf bytes text) :=
  inferInstanceAs (Decidable (Hex.Recases (Hex.encode bytes) text))

/-- The body holds the reply to a question. -/
def Holds : (c : Call) → c.Reply → Bytes → Prop
  | .query .., (payload : Bytes), body =>
    ∃ digits, IsDigitsOf payload digits ∧ Gives body [("payload", .str digits)]
  | .execute .., (invocation : Invocation), body =>
    ∃ digits, IsDigitsOf invocation.payload digits ∧
      Gives body [("transaction_id", .str invocation.transactionId), ("payload", .str digits)]
  | .height, (height : UInt64), body => Gives body [("height", .nat height.toNat)]
  | .block _, b, body => body = Block.format.encode b
  | .blockOf _, b, body => body = Block.format.encode b

/-- The reply can be written: the size of a block is a number of 64 bits. -/
def Fits : (c : Call) → c.Reply → Prop
  | .block _, b => (Block.format.encode b).length < UInt64.size
  | .blockOf _, b => (Block.format.encode b).length < UInt64.size
  | _, _ => True

/-- What there is to know: on every channel the reply to a question, if there is one. -/
abbrev Table : Type := (channel : String) → (c : Call) → Option c.Reply

/-- Behind the exchange stands a gateway below `root` that serves a table. -/
def Serves (exchange : Http.Request → Option Http.Response) (root : String) (T : Table) : Prop :=
  ∀ request channel c reply, question? root request = some (channel, c) →
    T channel c = some reply →
    ∃ response, exchange request = some response ∧ response.status = 200 ∧
      Holds c reply response.body

/-! ### A gateway -/

/-- The body that a gateway writes. -/
def bodyFor : (c : Call) → c.Reply → Bytes
  | .query .., (payload : Bytes) =>
    Utf8.encode (Json.record [("payload", .str (Hex.encode payload))]).render
  | .execute .., (invocation : Invocation) =>
    Utf8.encode (Json.record [("transaction_id", .str invocation.transactionId),
      ("payload", .str (Hex.encode invocation.payload))]).render
  | .height, (height : UInt64) => Utf8.encode (Json.record [("height", .nat height.toNat)]).render
  | .block _, b => Block.format.encode b
  | .blockOf _, b => Block.format.encode b

/-- A gateway below `root` that serves a table, and finds nothing else. -/
def gateway (root : String) (T : Table) (request : Http.Request) : Option Http.Response :=
  match question? root request with
  | none => some { status := 404 }
  | some (channel, c) =>
    match T channel c with
    | none => some { status := 404 }
    | some reply => some { status := 200, body := bodyFor c reply }

/-! ### Writing a reply -/

theorem filter_record {given : List (String × Json)} (h : (given.map (·.1)).Nodup)
    {g : String × Json} (hg : g ∈ given) :
    (given.map fun g => (some g.1, g.2)).filter (fun m => m.1 = some g.1) = [(some g.1, g.2)] := by
  induction given with
  | nil => cases hg
  | cons k given ih =>
    rw [List.map_cons, List.nodup_cons] at h
    rw [List.map_cons, List.filter_cons]
    have hne {g : String × Json} (hg : g ∈ given) : k.1 ≠ g.1 := fun heq =>
      h.1 (heq ▸ List.mem_map_of_mem hg)
    rcases List.mem_cons.1 hg with rfl | hg
    · rw [if_pos (by simp), List.filter_eq_nil_iff.2]
      intro m hm
      obtain ⟨g', hg', rfl⟩ := List.mem_map.1 hm
      simpa using (hne hg').symm
    · rw [if_neg (by simpa using hne hg), ih h.2 hg]

theorem gives_render {given : List (String × Json)} (hwritable : ∀ g ∈ given, Writable g.2)
    (hnames : (given.map (·.1)).Nodup) : Gives (Utf8.encode (Json.record given).render) given := by
  refine ⟨_, Json.parse?_render (.object hwritable), ?_, fun g hg => filter_record hnames hg⟩
  intro m hm
  obtain ⟨g, -, rfl⟩ := List.mem_map.1 hm
  rfl

theorem holds_bodyFor (c : Call) (reply : c.Reply) : Holds c reply (bodyFor c reply) := by
  cases c with
  | query => exact ⟨_, Hex.Recases.refl _, gives_render (by simp [Writable.text]) (by simp)⟩
  | execute => exact ⟨_, Hex.Recases.refl _, gives_render (by simp [Writable.text]) (by simp)⟩
  | height => exact gives_render (by simp [Writable.number]) (by simp)
  | block => rfl
  | blockOf => rfl

/-- **There is a gateway for every table.** -/
theorem serves_gateway (root : String) (T : Table) : Serves (gateway root T) root T := by
  intro request channel c reply hquestion hreply
  refine ⟨{ status := 200, body := bodyFor c reply }, ?_, rfl, holds_bodyFor c reply⟩
  rw [gateway, hquestion]
  simp only [hreply]

/-! ### Reading a reply -/

theorem slots?_of_gives {body : Bytes} {given : List (String × Json)} {declared : List Json.Member}
    (h : Gives body given)
    (hdeclared : List.Forall₂ (fun g m => m.names = [g.1]) given declared) :
    (Json.parse? body).bind (Json.slots? declared) = some (given.map fun g => some g.2) := by
  obtain ⟨members, hparse, hnames, hgiven⟩ := h
  rw [hparse, Option.bind_some, Json.slots?, Json.shape?, Option.bind_some, Json.Record.slots,
    if_pos (List.all_eq_true.2 hnames)]
  clear hparse
  induction hdeclared with
  | nil => rfl
  | @cons g m given declared hm _ ih =>
    obtain ⟨hg, hgiven⟩ := List.forall_mem_cons.1 hgiven
    obtain ⟨names, trailing⟩ := m
    obtain rfl : names = [g.1] := hm
    rw [List.mapM_cons, Json.Record.valuesOf_named, hg, ih hgiven]
    rfl

theorem readBlock_of_eq {b : Block} {body : Bytes}
    (h : (Block.format.encode b).length < UInt64.size) (hbody : body = Block.format.encode b) :
    readBlock body = .ok b := by
  rw [hbody, readBlock, Block.lawful_format.decode_encode h]
  rfl

theorem decodePayload_eq_ok {endpoint : Url} {payload : Bytes} {digits : String} :
    decodePayload endpoint digits = .ok payload ↔ IsDigitsOf payload digits := by
  rw [decodePayload, mapError_eq_ok, Hex.decode_eq_ok_iff, IsDigitsOf]

theorem readBody_eq_ok {α : Type} {endpoint : Url} {read : Json → Option α} {body : Bytes} {a : α} :
    readBody endpoint read body = .ok a ↔ ∃ j, Json.parse? body = some j ∧ read j = some a := by
  rw [← Option.bind_eq_some_iff, readBody]
  cases (Json.parse? body).bind read <;> simp

theorem successBody_of_ok {endpoint : Url} {response : Http.Response} (h : response.status = 200) :
    successBody endpoint (some response) = .ok response.body := by
  rw [successBody, h, bodyOf, h]
  rfl

/-- A record is read as what a body gives. -/
theorem readBody_of_gives {α : Type} {read : Json → Option α} {a : α} {body : Bytes}
    {given : List (String × Json)} (h : Gives body given) (declared : List Json.Member)
    (hdeclared : List.Forall₂ (fun g m => m.names = [g.1]) given declared) (endpoint : Url)
    (hread : ∀ j, Json.slots? declared j = some (given.map fun g => some g.2) → read j = some a) :
    readBody endpoint read body = .ok a := by
  obtain ⟨j, hparse, hslots⟩ := Option.bind_eq_some_iff.1 (slots?_of_gives h hdeclared)
  exact readBody_eq_ok.2 ⟨j, hparse, hread j hslots⟩

/-- **The client reads the reply in a response that holds it.** -/
theorem answer_of_holds (client : Client) {c : Call} {reply : c.Reply} {response : Http.Response}
    (hstatus : response.status = 200) (hfits : Fits c reply) (h : Holds c reply response.body) :
    client.answer c (some response) = .ok reply := by
  cases c with
  | query chaincode function args =>
    obtain ⟨digits, hdigits, hgives⟩ := h
    have hbody (endpoint : Url) : readBody endpoint queryOfJson? response.body = .ok digits :=
      readBody_of_gives hgives [⟨["payload"], true⟩] (by simp) endpoint
        fun j hslots => by rw [queryOfJson?, hslots]; rfl
    simp only [Client.answer, successBody_of_ok hstatus, ok_bind, hbody,
      decodePayload_eq_ok.2 hdigits]
  | execute chaincode function args =>
    obtain ⟨digits, hdigits, hgives⟩ := h
    have hbody (endpoint : Url) : readBody endpoint invocationOfJson? response.body =
        .ok (reply.transactionId, digits) :=
      readBody_of_gives hgives [⟨["transaction_id"], false⟩, ⟨["payload"], true⟩] (by simp) endpoint
        fun j hslots => by rw [invocationOfJson?, hslots]; rfl
    simp only [Client.answer, successBody_of_ok hstatus, ok_bind, hbody,
      decodePayload_eq_ok.2 hdigits]
    rfl
  | height =>
    have hbody (endpoint : Url) : readBody endpoint heightOfJson? response.body = .ok reply :=
      readBody_of_gives h [⟨["height"], false⟩] (by simp) endpoint
        fun j hslots => by
          rw [heightOfJson?, hslots]
          exact (if_pos reply.toNat_lt).trans (congrArg some UInt64.ofNat_toNat)
    simp only [Client.answer, successBody_of_ok hstatus, ok_bind, hbody]
  | block number =>
    simp only [Client.answer, successBody_of_ok hstatus, ok_bind, readBlock_of_eq hfits h]
  | blockOf txId =>
    simp only [Client.answer, successBody_of_ok hstatus, ok_bind, readBlock_of_eq hfits h]

/-! ### Questions that are asked -/

/-- The exchange brings a response to a question. -/
structure Brings (exchange : Http.Request → Option Http.Response) (client : Client) (c : Call)
    (response : Http.Response) : Prop where
  isSendable : isSendable (client.endpoint c) = true
  exchange_eq : exchange (client.request c) = some response

theorem Brings.answers_eq {exchange : Http.Request → Option Http.Response} {client : Client}
    {c : Call}
    {response : Http.Response} (h : Brings exchange client c response) :
    client.answers exchange c = client.answer c (some response) := by
  rw [Client.answers, Client.request?, if_pos h.isSendable]
  exact congrArg (client.answer c) h.exchange_eq

/-- **A client gives the replies of the table that its gateway serves.** -/
theorem answers_of_serves {client : Client} {exchange : Http.Request → Option Http.Response}
    {T : Table} (hserves : Serves exchange client.root T) {c : Call} {reply : c.Reply}
    (hsegments : ∀ s ∈ client.channel :: chosen c, IsSegment s)
    (hsendable : isSendable (client.endpoint c)) (hreply : T client.channel c = some reply)
    (hfits : Fits c reply) : client.answers exchange c = .ok reply := by
  obtain ⟨response, hexchange, hstatus, hholds⟩ :=
    hserves _ _ _ _ (question?_request client hsegments) hreply
  have hbrings : Brings exchange client c response := ⟨hsendable, hexchange⟩
  rw [hbrings.answers_eq, answer_of_holds client hstatus hfits hholds]

end LedgerBridge.Gateway
