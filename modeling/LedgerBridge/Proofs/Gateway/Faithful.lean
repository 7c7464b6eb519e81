import LedgerBridge.Proofs.Gateway.Contract
import LedgerBridge.Proofs.Text.Utf8

/-!
# The ledger that a client sees

* `successBody_of_status`: what becomes of a response that reports a failure;
* `answer_query_eq_ok_iff`: which responses to a query hold a payload, and `answer_query_eq_error`:
  what becomes of the others;
* `answers_faithful`: a client shows the table that its gateway serves, and its failures as they
  are;
* `answers_of_size`: but what is too long for a request is not asked.
-/

namespace LedgerBridge.Gateway

open Json (Writable)
open Ledger (AccessError Call)
open Url (IsName IsSegment)

/-! ### Failures -/

/-- The charset of a body is UTF-8 if its media type names one. -/
def NamesUtf8 (headers : Http.Headers) : Prop :=
  ∀ s ∈ (headers.values "content-type").head?, ∀ m ∈ Http.MediaType.parse? s,
    ∀ label ∈ m.parameters.lookup "charset", Encoding.ofLabel? label = some .utf8

theorem NamesUtf8.encoding_eq {headers : Http.Headers} (h : NamesUtf8 headers) :
    headers.encoding = .utf8 := by
  rw [Http.Headers.encoding]
  cases hvalue : (headers.values "content-type").head? with
  | none => rfl
  | some s =>
    rw [Option.bind_some]
    cases hm : Http.MediaType.parse? s with
    | none => rfl
    | some m =>
      rw [Option.bind_some, Http.MediaType.encoding?]
      cases hlabel : m.parameters.lookup "charset" with
      | none => rfl
      | some label =>
        rw [Option.bind_eq_bind, Option.bind_some, h s hvalue m hm label hlabel]
        rfl

/-- A response that reports a failure is shown with its status and its text. -/
theorem successBody_of_status {endpoint : Url} {response : Http.Response} {s : String}
    (hstatus : 400 ≤ response.status ∧ response.status < 600)
    (hcharset : NamesUtf8 response.headers) (hbody : response.body = Utf8.encode s)
    (hmark : s.toList.head? ≠ some '\ufeff') : successBody endpoint (some response) =
      .error (.status endpoint.text response.status s) := by
  have hsuccess : Http.Status.isSuccess response.status = false := by
    rw [Http.Status.isSuccess]
    simp only [Bool.and_eq_false_iff, decide_eq_false_iff_not]
    omega
  have hbodyOf : bodyOf response = response.body := if_neg (by omega)
  simp only [successBody]
  rw [if_neg (by omega), hsuccess, if_neg (by decide), hbodyOf, hcharset.encoding_eq, hbody,
    Encoding.text_utf8_encode hmark]

/-- Without a body there is no answer. -/
theorem answer_of_successBody {client : Client} {c : Call} {response : Option Http.Response}
    {e : AccessError} (h : successBody (client.endpoint c) response = .error e) :
    client.answer c response = .error e := by
  cases c <;> simp only [Client.answer, h, error_bind]

/-! ### Payloads -/

/-- The payload that an answer to a query gives. -/
inductive HasPayload : Json → String → Prop where
  | present {members : List (Option String × Json)} {text : String}
    (hnames : ∀ m ∈ members, m.1.isSome = true)
    (h : members.filter (fun m => m.1 = some "payload") = [(some "payload", .str text)]) :
    HasPayload (.object members) text
  | absent {members : List (Option String × Json)} (hnames : ∀ m ∈ members, m.1.isSome = true)
    (h : members.filter (fun m => m.1 = some "payload") = []) : HasPayload (.object members) ""
  | listed (text : String) : HasPayload (.array [.str text]) text
  | empty : HasPayload (.array []) ""

theorem queryOfJson?_object (members : List (Option String × Json)) :
    queryOfJson? (.object members) = if members.all (·.1.isSome) then
      (Json.Record.onlyValue ((members.filter fun m => m.1 = some "payload").map (·.2))).bind
        (Json.Record.orElse Json.asText? "")
    else none := by
  rw [queryOfJson?, Json.slots?, Json.shape?, Option.bind_some, Json.Record.slots]
  split_ifs
  · rw [List.mapM_cons, Json.Record.valuesOf_named]
    cases Json.Record.onlyValue _ <;> rfl
  · rfl

theorem asText?_eq_some_iff {j : Json} {text : String} :
    Json.asText? j = some text ↔ j = .str text := by
  cases j <;> simp [Json.asText?]

theorem queryOfJson?_eq_some_iff {j : Json} {text : String} :
    queryOfJson? j = some text ↔ HasPayload j text := by
  constructor
  · intro h
    cases j with
    | object members =>
      rw [queryOfJson?_object] at h
      split_ifs at h with hnames
      rw [List.all_eq_true] at hnames
      cases hgiven : members.filter fun m => m.1 = some "payload" with
      | nil =>
        rw [hgiven] at h
        cases h
        exact .absent hnames hgiven
      | cons m more =>
        have hname : m.1 = some "payload" := by
          have hm := List.mem_filter.1 (hgiven ▸ List.mem_cons_self : m ∈ members.filter _)
          simpa using hm.2
        rw [hgiven] at h
        cases more with
        | cons => cases h
        | nil =>
          refine .present hnames ?_
          rw [hgiven, ← hname, ← asText?_eq_some_iff.1 h]
    | array items =>
      rcases items with _ | ⟨item, _ | ⟨item', items⟩⟩
      · cases h
        exact .empty
      · obtain rfl := asText?_eq_some_iff.1 h
        exact .listed text
      · cases h
    | _ => cases h
  · rintro (⟨hnames, hgiven⟩ | ⟨hnames, hgiven⟩ | _ | _)
    · rw [queryOfJson?_object, if_pos (List.all_eq_true.2 hnames), hgiven]
      rfl
    · rw [queryOfJson?_object, if_pos (List.all_eq_true.2 hnames), hgiven]
      rfl
    · rfl
    · rfl

/-- **The responses to a query that hold a payload:** they give a text of digits, or none. -/
theorem answer_query_eq_ok_iff {client : Client} {chaincode function : String} {args : List Bytes}
    {response : Http.Response} (hstatus : response.status = 200) (payload : Bytes) :
    client.answer (.query chaincode function args) (some response) = .ok payload ↔
      ∃ j text, Json.parse? response.body = some j ∧ HasPayload j text ∧
        IsDigitsOf payload text := by
  simp only [Client.answer, successBody_of_ok hstatus, ok_bind, bind_eq_ok, readBody_eq_ok,
    queryOfJson?_eq_some_iff, decodePayload_eq_ok]
  constructor
  · rintro ⟨text, ⟨j, hparse, hpayload⟩, hdigits⟩
    exact ⟨j, text, hparse, hpayload, hdigits⟩
  · rintro ⟨j, text, hparse, hpayload, hdigits⟩
    exact ⟨text, ⟨j, hparse, hpayload⟩, hdigits⟩

/-- All other responses that report success are no answers. -/
theorem answer_query_eq_error {client : Client} {chaincode function : String} {args : List Bytes}
    {response : Http.Response} (hstatus : response.status = 200) {e : AccessError}
    (h : client.answer (.query chaincode function args) (some response) = .error e) :
    ∃ problem, e =
      .invalidResponse (client.endpoint (.query chaincode function args)).text problem := by
  simp only [Client.answer, successBody_of_ok hstatus, ok_bind] at h
  rcases bind_eq_error.1 h with h | ⟨text, -, h⟩
  · rw [readBody] at h
    split at h <;> cases h
    exact ⟨_, rfl⟩
  · obtain ⟨flaw, -, rfl⟩ := mapError_eq_error.1 h
    exact ⟨payloadProblem flaw, rfl⟩

/-! ### The client -/

/-- **The client is a faithful ledger.** It gives the replies of the table that its gateway serves.
A failure is shown with its status and its text. The answer to a query is the payload of the
response, if it has one. -/
theorem answers_faithful (client : Client) (exchange : Http.Request → Option Http.Response) :
    (∀ T, Serves exchange client.root T → ∀ (c : Call) (reply : c.Reply),
      T client.channel c = some reply → Fits c reply →
      (∀ s ∈ client.channel :: chosen c, IsName s) → isSendable (client.endpoint c) = true →
      client.answers exchange c = .ok reply) ∧
    (∀ c response, Brings exchange client c response →
      400 ≤ response.status ∧ response.status < 600 → NamesUtf8 response.headers →
      ∀ s, response.body = Utf8.encode s → s.toList.head? ≠ some '\ufeff' →
      client.answers exchange c =
        .error (.status (client.endpoint c).text response.status s)) ∧
    ∀ chaincode function args response,
      Brings exchange client (.query chaincode function args) response → response.status = 200 →
      (∀ payload : Bytes, client.answers exchange (.query chaincode function args) = .ok payload ↔
        ∃ j text, Json.parse? response.body = some j ∧ HasPayload j text ∧
          IsDigitsOf payload text) ∧
      ∀ e, client.answers exchange (.query chaincode function args) = .error e →
        ∃ problem, e =
          .invalidResponse (client.endpoint (.query chaincode function args)).text problem := by
  refine ⟨fun T hserves c reply hreply hfits hnames hsendable => ?_,
    fun c response hbrings hstatus hcharset s hbody hmark => ?_,
    fun chaincode function args response hbrings hstatus => ?_⟩
  · exact answers_of_serves hserves (fun s hs => (hnames s hs).isSegment) hsendable hreply
      hfits
  · rw [hbrings.answers_eq]
    exact answer_of_successBody (successBody_of_status hstatus hcharset hbody hmark)
  · rw [hbrings.answers_eq]
    exact ⟨answer_query_eq_ok_iff hstatus, fun e => answer_query_eq_error hstatus⟩

/-- A client whose channel has a name. -/
def Client.named : Client := { Client.sample with channel := "mychannel" }

/-- A table of one block, and of what one function gives for one list of arguments. -/
def Table.sample : Table := fun _ c =>
  match c with
  | .query _ function args =>
    if function = "g\u00e9t\"" ∧ args = [[0x0a], []] then some [0xab, 0xcd] else none
  | .execute .. => none
  | .height => none
  | .block _ => none
  | .blockOf _ => some { header := some { number := 7 } }

/-- A payload, a block and a failure of a gateway, and digits in either case in a list. -/
theorem answers_faithful_sample :
    Client.named.answers (gateway Client.named.root Table.sample)
        (.query "basic_1" "g\u00e9t\"" [[0x0a], []]) = .ok [0xab, 0xcd] ∧
    Client.named.answers (gateway Client.named.root Table.sample) (.blockOf "tx-1") =
      .ok { header := some { number := 7 } } ∧
    Client.named.answers (gateway Client.named.root Table.sample) .height =
      .error (.status "http://ledger/gateway/channels/mychannel/height?v=1" 404 "") ∧
    Client.named.answers
        (fun _ => some { status := 200, body := Utf8.encode (Json.array [.str "ABcD"]).render })
        (.query "basic_1" "get" []) = .ok [0xab, 0xcd] := by
  refine ⟨?_, ?_, ?_, ?_⟩
  · exact (answers_faithful Client.named _).1 Table.sample (serves_gateway _ _)
      (.query "basic_1" "g\u00e9t\"" [[0x0a], []]) [0xab, 0xcd] rfl trivial (by decide)
      (by decide +kernel)
  · exact (answers_faithful Client.named _).1 Table.sample (serves_gateway _ _) (.blockOf "tx-1")
      { header := some { number := 7 } } rfl
      (show (Ledger.Block.format.encode _).length < UInt64.size by decide +kernel) (by decide)
      (by decide +kernel)
  · have hgateway : gateway Client.named.root Table.sample (Client.named.request .height) =
        some { status := 404 } := by
      rw [gateway, question?_request Client.named (by decide)]
      rfl
    have herror := (answers_faithful Client.named _).2.1 .height { status := 404 }
      ⟨by decide +kernel, hgateway⟩ (by decide) (by rintro s ⟨⟩) "" rfl (by decide)
    rw [herror, show (Client.named.endpoint .height).text =
      "http://ledger/gateway/channels/mychannel/height?v=1" by decide +kernel]
  · have hok := (answers_faithful Client.named fun _ => some {
        status := 200, body := Utf8.encode (Json.array [.str "ABcD"]).render }).2.2
      "basic_1" "get" [] _ ⟨by decide +kernel, rfl⟩ rfl
    have hparse := Json.parse?_render (j := .array [.str "ABcD"]) (.array (by simp [Writable.text]))
    exact (hok.1 [0xab, 0xcd]).2 ⟨_, "ABcD", hparse, .listed "ABcD", by decide +kernel⟩

/-! ### Limits -/

theorem size_withoutFragment_le (u : Url) :
    Utf8.size u.withoutFragment.text ≤ Utf8.size u.text := by
  have htext : u.text = u.withoutFragment.text ++ u.fragment.elim "" ("#" ++ ·) := by
    simp only [Url.text, Url.withoutFragment, Option.elim_none, String.append_empty]
    rfl
  rw [htext, Utf8.size_append]
  exact Nat.le_add_right _ _

/-- **What is too long for a request is not asked.** -/
theorem answers_of_size {client : Client} {c : Call}
    (hsegments : ∀ s ∈ client.channel :: chosen c, IsSegment s) {s : String}
    (hs : s ∈ client.channel :: route c) (hsize : 65534 < Utf8.size s)
    (exchange : Http.Request → Option Http.Response) :
    client.answers exchange c = .error (notSendable (client.endpoint c)) := by
  obtain ⟨segments, hfollows⟩ := (client.exists_follows_iff c).2 hsegments
  obtain ⟨segment, hsegment, hencodes⟩ : ∃ segment ∈ segments, Url.Encodes segment s := by
    obtain ⟨i, hi, rfl⟩ := List.getElem_of_mem (List.mem_cons_of_mem "channels" hs)
    have hlength := hfollows.encodes.length_eq
    exact ⟨segments[i], List.getElem_mem (hlength ▸ hi), hfollows.encodes.get (hlength ▸ hi) hi⟩
  have hsegment := hencodes.size_le.trans (Url.size_le_segmentsText hsegment)
  have htarget : Utf8.size (client.request c).target ≤
      Utf8.size (client.endpoint c).withoutCredentials.text := by
    rw [show (client.request c).target =
        (client.endpoint c).withoutCredentials.withoutFragment.text by
      cases c <;> rfl]
    exact size_withoutFragment_le _
  rw [Client.target_of_follows hfollows, Utf8.size_append, Utf8.size_append] at htarget
  have hsendable : isSendable (client.endpoint c) = false := by
    rw [isSendable, Bool.and_eq_false_iff]
    exact .inr (decide_eq_false (by omega))
  rw [Client.answers, Client.request?, hsendable]
  rfl

/-- A name of a given length. -/
def nameOfSize (n : Nat) : String := String.ofList (List.replicate n 'a')

theorem isName_nameOfSize (n : Nat) : IsName (nameOfSize n) := by
  intro ch hch
  rw [nameOfSize, String.toList_ofList] at hch
  rw [List.eq_of_mem_replicate hch]
  decide

theorem size_nameOfSize (n : Nat) : Utf8.size (nameOfSize n) = n := by
  rw [Utf8.size, nameOfSize, Utf8.encode_ofList, List.length_flatMap, List.map_replicate,
    List.sum_replicate, Utf8.utf8EncodeChar_of_lt (by decide), List.length_singleton, smul_eq_mul,
    mul_one]

/-- **A block is not found under a name that is too long, and a text in another charset is not shown
as UTF-8.** -/
theorem not_answers_faithful :
    (Serves (gateway Client.named.root Table.sample) Client.named.root Table.sample ∧
      Table.sample Client.named.channel (.blockOf (nameOfSize 70000)) =
        some { header := some { number := 7 } } ∧
      (∀ s ∈ Client.named.channel :: chosen (.blockOf (nameOfSize 70000)), IsName s) ∧
      Client.named.answers (gateway Client.named.root Table.sample) (.blockOf (nameOfSize 70000)) =
        .error (notSendable (Client.named.endpoint (.blockOf (nameOfSize 70000))))) ∧
    Client.named.answers (fun _ => some {
        status := 500, headers := [("content-type", "text/plain; charset=windows-1252")]
        body := Utf8.encode "\u00e9" }) .height =
      .error (.status "http://ledger/gateway/channels/mychannel/height?v=1" 500
        "\u00c3\u00a9") := by
  have hnames (n : Nat) :
      ∀ s ∈ Client.named.channel :: chosen (.blockOf (nameOfSize n)), IsName s :=
    List.forall_mem_cons.2 ⟨by decide, by simpa [chosen] using isName_nameOfSize n⟩
  have hlong (n : Nat) (h : 65534 < n) :
      Client.named.answers (gateway Client.named.root Table.sample) (.blockOf (nameOfSize n)) =
        .error (notSendable (Client.named.endpoint (.blockOf (nameOfSize n)))) :=
    answers_of_size (fun s hs => (hnames n s hs).isSegment) (s := nameOfSize n)
      (by simp [route]) (by rwa [size_nameOfSize]) _
  exact ⟨⟨serves_gateway _ _, rfl, hnames 70000, hlong 70000 (by decide)⟩, by decide +kernel⟩

end LedgerBridge.Gateway
