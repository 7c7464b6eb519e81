import LedgerBridge.Gateway.Client
import LedgerBridge.Proofs.Url.Path

/-!
# Where requests go

Some parts of a route come from callers: a chaincode and the id of a transaction; an operator sets
the channel.

* `Client.Follows c segments`: behind the path of the base, the URL of a question has one segment
  for each part of its route;
* `endpoint_follows_iff`: it does exactly if those texts are segments. Then no two routes have the
  same URL. Otherwise a text is lost: one or two dots drop a segment, and tabs and line ends are
  left out.
-/

namespace LedgerBridge.Gateway

open Ledger (Call)
open Url (Encodes IsName IsSegment)

/-- The texts in the route of a question that are not its own. -/
def chosen : Call → List String
  | .query chaincode _ _ => [chaincode]
  | .execute chaincode _ _ => [chaincode]
  | .height => []
  | .block _ => []
  | .blockOf txId => [txId]

theorem isName_toString (n : Nat) : IsName (toString n) := by
  intro ch hch
  rw [show toString n = String.ofList (Nat.toDigits 10 n) from rfl, String.toList_ofList] at hch
  have hdigit : ch.isDigit = true := Nat.isDigit_of_mem_toDigits (by decide) le_rfl hch
  refine .inl ?_
  show (ch.isAlpha || ch.isDigit) = true
  rw [hdigit, Bool.or_true]

/-- All other parts of a route are segments. -/
theorem isSegment_route (c : Call) :
    (∀ s ∈ route c, IsSegment s) ↔ ∀ s ∈ chosen c, IsSegment s := by
  cases c with
  | query chaincode function args =>
    simp [route, chosen, show IsSegment "chaincodes" by decide, show IsSegment "query" by decide]
  | execute chaincode function args =>
    simp [route, chosen, show IsSegment "chaincodes" by decide, show IsSegment "execute" by decide]
  | height => simp [route, chosen, show IsSegment "height" by decide]
  | block number =>
    have hnumber := (isName_toString number.toNat).isSegment
    simpa [route, chosen, show IsSegment "blocks" by decide] using hnumber
  | blockOf txId =>
    simp [route, chosen, show IsSegment "transactions" by decide, show IsSegment "block" by decide]

namespace Client

variable (client : Client)

/-- The segments that routes follow. -/
def stem : List String :=
  match client.base.path with
  | .segments ss => Url.stem ss
  | .rootless _ => []

/-- The text in front of the route in a request. -/
def root : String :=
  client.base.scheme ++ ":" ++ client.base.bare.authority
    ++ (if client.base.host = none ∧ client.stem.head? = some "" then "/." else "")
    ++ Url.segmentsText client.stem

/-- The text behind the route in a request. -/
def tail : String := client.base.query.elim "" ("?" ++ ·)

/-- The URL of the question is that of the base with the given segments, which stand for the parts
of the route. -/
structure Follows (c : Call) (segments : List String) : Prop where
  endpoint_eq :
    client.endpoint c = { client.base with path := .segments (client.stem ++ segments) }
  encodes : List.Forall₂ Encodes segments ("channels" :: client.channel :: route c)

theorem exists_segments : ∃ ss, client.base.path = .segments ss ∧ client.stem = Url.stem ss := by
  obtain ⟨ss, hss⟩ : ∃ ss, client.base.path = .segments ss := by
    have h := client.hasSegments_base
    cases hpath : client.base.path with
    | segments ss => exact ⟨ss, rfl⟩
    | rootless text =>
      rw [Url.hasSegments, hpath] at h
      cases h
  exact ⟨ss, hss, by rw [stem, hss]⟩

theorem exists_follows_iff (c : Call) : (∃ segments, client.Follows c segments) ↔
    ∀ s ∈ client.channel :: chosen c, IsSegment s := by
  obtain ⟨ss, hss, hstem⟩ := client.exists_segments
  have happend := @Url.append_path_iff client.base ss (client.channel :: route c) "channels" hss
    (by decide) (by decide)
  rw [List.forall_mem_cons, ← isSegment_route, ← List.forall_mem_cons, ← happend, ← hstem]
  constructor
  · rintro ⟨segments, hendpoint, hencodes⟩
    refine ⟨segments, ?_, hencodes⟩
    exact congrArg Url.path hendpoint
  · rintro ⟨segments, hpath, hencodes⟩
    refine ⟨segments, ?_, hencodes⟩
    rw [endpoint, Url.append_eq, hpath]

variable {client} {c : Call} {segments : List String}

/-- A request that follows its route is written with the segments of it. -/
theorem target_of_follows (h : client.Follows c segments) :
    (client.request c).target = client.root ++ Url.segmentsText segments ++ client.tail := by
  have htarget : (client.request c).target = (client.endpoint c).bare.text := by
    cases c <;> rfl
  have hpath : (client.endpoint c).bare.pathText =
      (if client.base.host = none ∧ client.stem.head? = some "" then "/." else "") ++
        Url.segmentsText (client.stem ++ segments) := by
    obtain ⟨first, rest, hfirst, hrest, rfl⟩ := List.forall₂_cons_right_iff.1 h.encodes
    obtain ⟨second, rest, -, -, rfl⟩ := List.forall₂_cons_right_iff.1 hrest
    have hne : first ≠ "" := by
      rintro rfl
      exact absurd hfirst.decode_eq (by decide)
    have hmark : (client.base.host = none ∧ (client.stem ++ first :: second :: rest).length > 1 ∧
        (client.stem ++ first :: second :: rest).head? = some "") ↔
          client.base.host = none ∧ client.stem.head? = some "" := by
      cases client.stem <;> simp [hne]
    rw [h.endpoint_eq, Url.pathText]
    show (if _ ∧ _ ∧ _ then _ else _ : String) = _
    simp only [Url.bare, Url.withoutCredentials, Url.withoutFragment, hmark]
    split_ifs <;> simp
  rw [htarget, Url.text, hpath, h.endpoint_eq, Url.segmentsText_append]
  simp only [root, tail, Url.bare, Url.withoutCredentials, Url.withoutFragment,
    String.append_assoc, Option.elim_none, String.append_empty]
  rfl

/-- The route of a question is read off its segments. -/
theorem route_eq_of_target_eq {c' : Call} {segments' : List String} (h : client.Follows c segments)
    (h' : client.Follows c' segments')
    (htarget : (client.request c).target = (client.request c').target) : route c = route c' := by
  have hplain {ts ss : List String} (hts : List.Forall₂ Encodes ts ss) :
      ∀ t ∈ ts, '/' ∉ t.toList := fun t ht => (Url.plain_of_forall₂ hts t ht).1
  rw [target_of_follows h, target_of_follows h'] at htarget
  have htexts : Url.segmentsText segments = Url.segmentsText segments' := by
    simpa using htarget
  have hsegments : segments = segments' := by
    rw [← Url.readSegments_segmentsText (hplain h.encodes), htexts,
      Url.readSegments_segmentsText (hplain h'.encodes)]
  have hroute := Url.eq_of_forall₂_encodes h.encodes (hsegments ▸ h'.encodes)
  exact (List.cons.inj (List.cons.inj hroute).2).2

end Client

/-- **A request goes to the route of its question exactly if the texts in it are segments.** Then
its URL is written with one segment for each part of the route, from which the part is read back,
between texts that do not depend on the question; and no request for another route goes there. -/
theorem endpoint_follows_iff (client : Client) (c : Call) :
    ((∃ segments, client.Follows c segments) ↔ ∀ s ∈ client.channel :: chosen c, IsSegment s) ∧
    ∀ segments, client.Follows c segments →
      (client.request c).target = client.root ++ Url.segmentsText segments ++ client.tail ∧
      ∀ c' segments', client.Follows c' segments' →
        (client.request c').target = (client.request c).target → route c' = route c :=
  ⟨client.exists_follows_iff c, fun _ h =>
    ⟨Client.target_of_follows h, fun _ _ h' heq => Client.route_eq_of_target_eq h' h heq⟩⟩

/-- A client whose base has a path and a query. -/
def Client.sample : Client where
  base := {
    scheme := "http", host := some "ledger", path := .segments ["gateway", ""]
    query := some "v=1" }
  channel := "my channel"
  user := "User1"
  org := "Org1"
  hasSegments_base := rfl
  isFieldValue_user := by decide
  isFieldValue_org := by decide

/-- An id that spells a longer route stays one segment. -/
theorem endpoint_follows_sample :
    (∃ segments, Client.sample.Follows (.blockOf "../x?%2e") segments ∧
      (Client.sample.request (.blockOf "../x?%2e")).target =
        "http://ledger/gateway" ++ Url.segmentsText segments ++ "?v=1") ∧
    (Client.sample.request (.blockOf "../x?%2e")).target =
      "http://ledger/gateway/channels/my%20channel/transactions/..%2Fx%3F%252e/block?v=1" ∧
    (Client.sample.request (.blockOf "x")).target ≠
      (Client.sample.request (.blockOf "../x?%2e")).target := by
  obtain ⟨hiff, htarget⟩ := endpoint_follows_iff Client.sample (.blockOf "../x?%2e")
  obtain ⟨hiff', -⟩ := endpoint_follows_iff Client.sample (.blockOf "x")
  obtain ⟨segments, hfollows⟩ := hiff.2 (by decide)
  obtain ⟨segments', hfollows'⟩ := hiff'.2 (by decide)
  refine ⟨⟨segments, hfollows, (htarget segments hfollows).1⟩, by decide +kernel, fun heq => ?_⟩
  exact absurd ((htarget segments hfollows).2 _ segments' hfollows' heq) (by decide)

/-- **Tabs are left out, and a dot drops a segment:** two ids have one URL, and the URL of another
id is no route at all. -/
theorem endpoint_loses_text :
    ((Client.sample.request (.blockOf "a\tb")).target =
      (Client.sample.request (.blockOf "ab")).target ∧
      ¬ ∃ segments, Client.sample.Follows (.blockOf "a\tb") segments) ∧
    (Client.sample.request (.blockOf ".")).target =
      "http://ledger/gateway/channels/my%20channel/transactions/block?v=1" ∧
      ¬ ∃ segments, Client.sample.Follows (.blockOf ".") segments := by
  rw [Client.exists_follows_iff, Client.exists_follows_iff]
  decide +kernel

end LedgerBridge.Gateway
