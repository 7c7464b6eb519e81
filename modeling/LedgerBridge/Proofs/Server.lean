import LedgerBridge.Proofs.Rpc.Direct
import LedgerBridge.Proofs.Rpc.Envelope
import LedgerBridge.Server

/-!
# Requests over HTTP

Between a client and the table of methods stand the server and the envelope of a request. They add
nothing to a call and lose nothing of it.

* `Carries response id outcome`: the body of a response, when it is read, has the id of a request
  and says the outcome of a call;
* `serve_eq_direct`: so does the response to every request that a connection is free for and that
  does not start too far behind.
-/

namespace LedgerBridge

open Json (Entry IsBlank objectText)
open Ledger (Access Session)
open Rpc (Agrees Id Says Spells direct)

/-- The response is that of success, and what a client reads in it has the id of a request and says
the outcome of a call. -/
def Carries (response : Http.Response) (id : Id) (outcome : Except Rpc.ErrorObject Json) : Prop :=
  response.status = 200 ∧
    ∃ said, Agrees said outcome ∧
      response.body = Utf8.encode (Rpc.Response.text ⟨id, said⟩) ∧
      Json.parse? response.body = some (Rpc.Response.toJson ⟨id, said⟩)

theorem carries_of_agrees {said : Rpc.Response} {id : Id} {outcome : Except Rpc.ErrorObject Json}
    (h : Says said id outcome) {response : Http.Response} (hstatus : response.status = 200)
    (hbody : response.body = Utf8.encode said.text) : Carries response id outcome := by
  obtain ⟨rfl, hagrees, hwritable⟩ := h
  refine ⟨hstatus, said.outcome, hagrees, hbody, ?_⟩
  rw [hbody]
  exact Json.parse?_render hwritable

namespace Server

variable {server : Server} {connected : Nat} {S : Session} {entries : List Entry} {r : Rpc.Request}
  {front behind : Bytes} {target : String} {headers : Http.Headers}

/-- A request whose headers and sizes are as they should be gets the answer to its body. -/
theorem serveBody_objectText (hfront : IsBlank front) (hbehind : IsBlank behind)
    (hreach : front.length < Rpc.markReach) (hspells : Spells entries r)
    (hsize : (front ++ objectText entries behind).length ≤ server.maxRequest) :
    server.serveBody (front ++ objectText entries behind) = do
      let response ← r.answer server.methods server.maxResponse
      return json 200 response.text := by
  rw [serveBody, if_neg (by omega), Rpc.answer?_objectText hfront, if_neg (by omega)]
  simp only [Rpc.answerSingle, Rpc.read_objectText hspells hbehind, map_eq_pure_bind, bind_assoc,
    pure_bind]
  rfl

/-- **Serving a call adds nothing and loses nothing.** In whatever way a request is written, if a
connection is free, its headers say that it is JSON, it starts within reach and is not too long,
then the ledger is asked what the call itself asks; and if what the call comes to is not too long,
the response carries it with the id of the request. -/
theorem serve_eq_direct (hspells : Spells entries r) (hfront : IsBlank front)
    (hbehind : IsBlank behind) (hreach : front.length < Rpc.markReach)
    (hfree : connected < server.maxConnections) (hjson : saysJson headers)
    (hsize : (front ++ objectText entries behind).length ≤ server.maxRequest)
    (hfits : Rpc.Response.size
      ⟨r.id, (direct server.methods r.method r.params).valueIn S []⟩ ≤ server.maxResponse) :
    (server.serve connected
        ⟨"POST", target, headers, front ++ objectText entries behind⟩).callsIn S [] =
      (direct server.methods r.method r.params).callsIn S [] ∧
    Carries ((server.serve connected
        ⟨"POST", target, headers, front ++ objectText entries behind⟩).valueIn S [])
      r.id ((direct server.methods r.method r.params).valueIn S []) := by
  obtain ⟨hcalls, hsaid⟩ := Rpc.answer_eq_direct server.methods S r server.maxResponse
  have hrespond : server.respond connected
      ⟨"POST", target, headers, front ++ objectText entries behind⟩ =
      server.serveBody (front ++ objectText entries behind) := by
    rw [respond, if_neg (by simp), if_neg (by omega), serveMethod, if_neg (by simp), if_pos hjson]
  rw [serve, hrespond, serveBody_objectText hfront hbehind hreach hspells hsize]
  simp only [Access.callsIn_bind, Access.callsIn_pure, Access.valueIn_bind, Access.valueIn_pure,
    List.append_nil, sent, show ("POST" : String) ≠ "HEAD" by decide, if_false]
  exact ⟨hcalls, carries_of_agrees (hsaid hfits) (by simp only [json]) (by simp only [json])⟩

/-- The members of a request for a method without parameters, given that the name of the method is
written as it is. -/
def entriesOf (method : String)
    (h : Json.readText (Utf8.encode method ++ [0x22]) = some (some method, [])) : List Entry := [
  { name := "method", value := .str method, spelledName := Utf8.encode "method",
    spelledValue := 0x22 :: (Utf8.encode method ++ [0x22]), beforeValue := [0x20],
    readText_name := by decide +kernel, isToken_value := Json.isToken_text h },
  { name := "id", value := .nat 7, spelledName := Utf8.encode "id", spelledValue := [0x37],
    beforeName := [0x20], readText_name := by decide +kernel, isToken_value := ⟨rfl, rfl⟩ },
  { name := "jsonrpc", value := .str "2.0", spelledName := Utf8.encode "jsonrpc",
    spelledValue := 0x22 :: Utf8.encode "2.0\"", behindValue := [0x0a],
    readText_name := by decide +kernel, isToken_value := Json.isToken_text (by decide +kernel) }]

theorem spells_entriesOf {method : String}
    (h : Json.readText (Utf8.encode method ++ [0x22]) = some (some method, [])) :
    Spells (entriesOf method h) ⟨.number 7, method, none⟩ where
  version := ⟨_, rfl, rfl⟩
  id := ⟨_, rfl, rfl⟩
  method := ⟨_, rfl, rfl⟩
  params := .inl ⟨rfl, rfl⟩

/-- The members of a request for the number of the last block, which the ledger is asked for. -/
def numberEntries : List Entry := entriesOf "eth_blockNumber" (by decide +kernel)

/-- The members of a request for the version of the network, which the program knows. -/
def versionEntries : List Entry := entriesOf "net_version" (by decide +kernel)

/-- A request with these members, behind some white space. -/
def requestOf (entries : List Entry) (front : Bytes) : Http.Request where
  method := "POST"
  target := "http://gateway"
  headers := [("content-type", "application/json")]
  body := front ++ objectText entries []

/-- A ledger of five blocks that says nothing else. -/
def fiveBlocks : Session := fun _ call =>
  match call with
  | .height => .ok 5
  | .query .. | .execute .. | .block .. | .blockOf .. => .error (.invalidResponse "" "")

theorem serve_eq_direct_number :
    (direct {} "eth_blockNumber" none).callsIn fiveBlocks [] = [.height] ∧
    (({} : Server).serve 99 (requestOf numberEntries [0x0a])).callsIn fiveBlocks [] = [.height] ∧
    Carries ((({} : Server).serve 99 (requestOf numberEntries [0x0a])).valueIn fiveBlocks [])
      (.number 7) (.ok (.str "0x4")) := by
  have hvalue : (direct {} "eth_blockNumber" none).valueIn fiveBlocks [] = .ok (.str "0x4") := by
    rfl
  have hserve := @serve_eq_direct {} 99 fiveBlocks numberEntries
    ⟨.number 7, "eth_blockNumber", none⟩ [0x0a] [] "http://gateway"
    [("content-type", "application/json")] (spells_entriesOf _) (by decide) (by decide) (by decide)
    (by decide) (by decide +kernel) (by decide +kernel) (by decide +kernel)
  rw [hvalue] at hserve
  exact ⟨rfl, hserve⟩

/-- **Two ways to lose a call:** no connection is free, or there is much white space in front of the
request. -/
theorem not_carries_versionRequest :
    Spells versionEntries ⟨.number 7, "net_version", none⟩ ∧
    (requestOf versionEntries (List.replicate 128 0x20)).body.length ≤ ({} : Server).maxRequest ∧
    Rpc.Response.size ⟨.number 7, (direct {} "net_version" none).valueIn fiveBlocks []⟩ ≤
      ({} : Server).maxResponse ∧
    ¬ Carries ((({ maxConnections := 0 } : Server).serve 0
        (requestOf versionEntries [])).valueIn fiveBlocks [])
      (.number 7) ((direct {} "net_version" none).valueIn fiveBlocks []) ∧
    ¬ Carries ((({} : Server).serve 0
        (requestOf versionEntries (List.replicate 128 0x20))).valueIn fiveBlocks [])
      (.number 7) ((direct {} "net_version" none).valueIn fiveBlocks []) := by
  have hstatus :
      ((({ maxConnections := 0 } : Server).serve 0
        (requestOf versionEntries [])).valueIn fiveBlocks []).status = 429 ∧
      ((({} : Server).serve 0
        (requestOf versionEntries (List.replicate 128 0x20))).valueIn fiveBlocks []).status =
        400 := by
    decide +kernel
  refine ⟨spells_entriesOf _, by decide +kernel, by decide +kernel, fun h => ?_, fun h => ?_⟩
  · exact absurd (hstatus.1.symm.trans h.1) (by decide)
  · exact absurd (hstatus.2.symm.trans h.1) (by decide)

end Server

end LedgerBridge
