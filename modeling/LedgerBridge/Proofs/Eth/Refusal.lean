import LedgerBridge.Eth.Chain
import LedgerBridge.Eth.Contract
import LedgerBridge.Proofs.Eth.LogAccess
import LedgerBridge.Proofs.Eth.LogFilter

/-!
# Refusals come first

A request that makes no sense as it stands is refused before the ledger is asked anything, and no
answer of the ledger is a reason to refuse one. The one exception is a query for logs: its bounds
may turn out to be reversed once the ledger has said how high it is.

* `Access.Gives p x`: whatever it is answered, what the computation `x` comes to satisfies `p`;
* `Service.Accepts`: a method that does not refuse, whatever the ledger answers (`accepts_*`). What
  is done with blocks is never a reason to (`accepted_*`);
* `Service.RefusesFirst`: a method that asks nothing when it refuses (`refusesFirst_*`);
* `refused_getLogs`: when a query for logs is refused, and what it has asked by then;
* `LogQuery.HasFlaw`: a query of which some text denotes nothing is refused and asks nothing.
-/

namespace LedgerBridge

/-! ### Errors of computations -/

section Fails

variable {ε α β : Type} {p : ε → Prop} {x : Except ε α}

/-- If the computation fails, its error satisfies `p`. -/
def FailsWith (p : ε → Prop) (x : Except ε α) : Prop := ∀ e, x = .error e → p e

namespace FailsWith

theorem ok (a : α) : FailsWith p (.ok a : Except ε α) := by
  intro e h
  cases h

theorem error {e : ε} (h : p e) : FailsWith p (.error e : Except ε α) := by
  intro e' he
  cases he
  exact h

theorem bind {f : α → Except ε β} (hx : FailsWith p x) (hf : ∀ a, FailsWith p (f a)) :
    FailsWith p (x >>= f) := by
  cases x with
  | error e => exact error (hx e rfl)
  | ok a => exact hf a

theorem map (hx : FailsWith p x) (g : α → β) : FailsWith p (g <$> x) :=
  hx.bind fun a => ok (g a)

theorem mapM {f : α → Except ε β} (hf : ∀ a, FailsWith p (f a)) (l : List α) :
    FailsWith p (l.mapM f) := by
  intro e h
  obtain ⟨-, a, -, -, -, ha⟩ := mapM_eq_error.1 h
  exact hf a e ha

theorem mapError {ε' : Type} {q : ε' → Prop} {g : ε → ε'} (h : ∀ e, q (g e)) :
    FailsWith q (x.mapError g) := by
  intro e he
  obtain ⟨flaw, -, rfl⟩ := mapError_eq_error.1 he
  exact h flaw

end FailsWith

end Fails

/-! ### Results of computations -/

namespace Ledger.Access

variable {α β : Type} {p : α → Prop} {r : β → Prop}

/-- Whatever it is answered, what the computation comes to satisfies `p`. -/
inductive Gives (p : α → Prop) : Access α → Prop
  | done {a : α} (h : p a) : Gives p (.done a)
  | ask {c : Call} {next : c.Answer → Access α} (h : ∀ answer, Gives p (next answer)) :
      Gives p (.ask c next)

theorem Gives.bind {x : Access α} {f : α → Access β} (hx : x.Gives p)
    (hf : ∀ a, p a → (f a).Gives r) : (x >>= f).Gives r := by
  change (x.bind f).Gives r
  induction hx with
  | done h => exact hf _ h
  | ask _ ih => exact .ask ih

theorem Gives.valueIn {x : Access α} (hx : x.Gives p) (S : Session) (asked : List Call) :
    p (x.valueIn S asked) := by
  induction hx generalizing asked with
  | done h => exact h
  | ask _ ih => exact ih _ _

end Ledger.Access

namespace Eth

open Ledger (Call Decoded Session)
open Ledger.Access (Gives)

/-! ### Refusals -/

/-- The error refuses a request. -/
def ApiError.IsRefusal (e : ApiError) : Prop := e.code = -32602

@[simp] theorem ApiError.isRefusal_iff {e : ApiError} :
    e.IsRefusal ↔ ∃ reason, e = .invalidParams reason := by
  cases e <;> simp [IsRefusal, code]

/-- A result that is no refusal. -/
def Accepted {α : Type} (x : Except ApiError α) : Prop := FailsWith (¬ ApiError.IsRefusal ·) x

section Blocks

theorem accepted_checkDecode {α : Type} (x : Except Ledger.DecodeError α) :
    Accepted (checkDecode x) :=
  .mapError fun _ => by simp [ApiError.ofDecode]

theorem accepted_checkEvents {α : Type} (x : Except Ledger.EventError α) :
    Accepted (checkEvents x) :=
  .mapError fun flaw => by cases flaw <;> simp [ApiError.ofEvents]

theorem accepted_ofBlock (b : Ledger.Block) : Accepted (BlockSummary.ofBlock b) :=
  (accepted_checkDecode _).bind fun _ => FailsWith.ok _

theorem accepted_showBlock (full : Bool) (b : Ledger.Block) : Accepted (showBlock full b) := by
  have hfull (summary : BlockSummary) : Accepted (fullTransactions summary b) :=
    FailsWith.mapM (fun _ => (accepted_checkDecode _).bind fun _ => FailsWith.ok _) _
  have hhashes : Accepted (transactionHashes b) :=
    FailsWith.mapM (fun _ => (accepted_checkDecode _).bind fun _ => FailsWith.ok _) _
  refine (accepted_ofBlock b).bind fun summary => ?_
  cases full with
  | true => exact ((hfull summary).map _).bind fun _ => FailsWith.ok _
  | false => exact (hhashes.map _).bind fun _ => FailsWith.ok _

theorem accepted_parties (t : Decoded) : Accepted (parties t) := by
  unfold parties
  cases t.call with
  | none => exact FailsWith.ok _
  | some c =>
    by_cases hc : c.isCreation
    · simp only [hc, if_true]
      cases Utf8.decode? t.response with
      | some deployed => exact FailsWith.ok _
      | none => exact FailsWith.error (by simp)
    · simp only [hc]
      exact FailsWith.ok _

theorem accepted_receiptOf (txId : String) (b : Ledger.Block) (slot : Nat) (t : Decoded) :
    Accepted (receiptOf txId b slot t) := by
  refine (accepted_ofBlock b).bind fun _ => (accepted_checkDecode _).bind fun _ => ?_
  refine (accepted_parties t).bind fun _ => (accepted_checkEvents _).bind fun _ => ?_
  exact FailsWith.ok _

theorem accepted_blockLogs (f : LogFilter) (b : Ledger.Block) : Accepted (blockLogs f b) := by
  have hslot (summary : BlockSummary) (p : Nat × Bytes) :
      Accepted (slotLogs f b summary p.1 p.2) := by
    refine (accepted_checkDecode _).bind fun valid => ?_
    split
    · refine (accepted_checkDecode _).bind fun _ => (accepted_checkEvents _).bind fun _ => ?_
      exact FailsWith.ok _
    · exact FailsWith.ok _
  refine (accepted_ofBlock b).bind fun summary => ?_
  exact (FailsWith.mapM (hslot summary) _).bind fun _ => FailsWith.ok _

end Blocks

/-! ### Methods that the ledger cannot make refuse -/

namespace Service

variable {α β : Type} {x : Service α}

/-- Whatever the ledger answers, the method does not refuse. -/
def Accepts (x : Service α) : Prop := x.run.Gives Accepted

theorem accepts_pure (a : α) : (pure a : Service α).Accepts := .done (FailsWith.ok a)

theorem accepts_throw {e : ApiError} (h : ¬ e.IsRefusal) : (throw e : Service α).Accepts :=
  .done (FailsWith.error h)

theorem accepts_check {y : Except ApiError α} (h : Accepted y) : (check y).Accepts := .done h

theorem Accepts.bind {f : α → Service β} (hx : x.Accepts) (hf : ∀ a, (f a).Accepts) :
    (x >>= f).Accepts := by
  refine Gives.bind hx fun outcome houtcome => ?_
  cases outcome with
  | error e => exact .done (FailsWith.error (houtcome e rfl))
  | ok a => exact hf a

theorem Accepts.outcomeIn (hx : x.Accepts) (S : Session) (asked : List Call) :
    Accepted (x.outcomeIn S asked) :=
  Gives.valueIn hx S asked

theorem accepts_ask {failed : String → ApiError} (h : ∀ cause, ¬ (failed cause).IsRefusal)
    (c : Call) : (ask failed c).Accepts := by
  refine .ask fun answer => ?_
  cases answer with
  | error e => exact .done (FailsWith.error (h e.message))
  | ok reply => exact .done (FailsWith.ok reply)

/-- The questions which change nothing. -/
theorem accepts_ask_ledgerQuery (c : Call) : (ask .ledgerQuery c).Accepts :=
  accepts_ask (fun _ => by simp) c

theorem accepts_resolve (ref : BlockRef) : (resolve ref).Accepts := by
  cases ref with
  | latest =>
    refine (accepts_ask_ledgerQuery _).bind fun n => ?_
    split
    · exact accepts_throw (by simp)
    · exact accepts_pure _
  | earliest => exact accepts_pure _
  | pending => exact accepts_throw (by simp)
  | number n => exact accepts_pure _

theorem accepts_findTransaction (txId : String) : (findTransaction txId).Accepts := by
  refine (accepts_ask_ledgerQuery _).bind fun block => ?_
  refine (accepts_check (accepted_checkDecode _)).bind fun found => ?_
  split
  · exact accepts_pure _
  · exact accepts_throw (by simp)

/-! ### Refusals before all questions -/

/-- When the method refuses, it has asked nothing. -/
def RefusesFirst (x : Service α) : Prop :=
  ∀ (S : Session) (asked : List Call) (e : ApiError),
    x.outcomeIn S asked = .error e → e.IsRefusal → x.callsIn S asked = []

theorem Accepts.refusesFirst (hx : x.Accepts) : x.RefusesFirst :=
  fun S asked e h hrefusal => absurd hrefusal (hx.outcomeIn S asked e h)

theorem refusesFirst_throw (e : ApiError) : (throw e : Service α).RefusesFirst :=
  fun _ _ _ _ _ => rfl

theorem refusesFirst_check_bind {y : Except ApiError α} {f : α → Service β}
    (hf : ∀ a, (f a).RefusesFirst) : (check y >>= f).RefusesFirst := by
  cases y with
  | error e => exact fun _ _ _ _ _ => rfl
  | ok a =>
    rw [check_ok, pure_bind]
    exact hf a

end Service

open Service (accepts_ask_ledgerQuery accepts_check accepts_findTransaction accepts_pure
  accepts_resolve refusesFirst_throw)

theorem accepts_getCode (config : Config) (address : String) : (getCode config address).Accepts :=
  (accepts_ask_ledgerQuery _).bind fun _ => accepts_pure _

theorem accepts_accounts (config : Config) : (accounts config).Accepts :=
  (accepts_ask_ledgerQuery _).bind fun _ => accepts_pure _

theorem accepts_sendTransaction (config : Config) (r : CallRequest) :
    (sendTransaction config r).Accepts :=
  (Service.accepts_ask (fun _ => by simp) _).bind fun _ => accepts_pure _

theorem accepts_blockNumber : blockNumber.Accepts :=
  (accepts_resolve _).bind fun _ => accepts_pure _

theorem accepts_getBlock (ref : BlockRef) (full : Bool) : (getBlock ref full).Accepts := by
  refine (accepts_resolve ref).bind fun number => (accepts_ask_ledgerQuery _).bind fun b => ?_
  exact accepts_check (accepted_showBlock full b)

theorem accepts_getReceipt (hash : String) : (getReceipt hash).Accepts :=
  (accepts_findTransaction _).bind fun _ => accepts_check (accepted_receiptOf _ _ _ _)

/-- By induction on the blocks that are left. -/
theorem accepts_scan (f : LogFilter) (count : Nat) (first : UInt64) :
    (scan f count first).Accepts := by
  induction count generalizing first with
  | zero => exact accepts_pure _
  | succ count ih =>
    refine (accepts_ask_ledgerQuery _).bind fun b => ?_
    refine (accepts_check (accepted_blockLogs f b)).bind fun logs => ?_
    exact (ih _).bind fun _ => accepts_pure _

/-- A call without a callee is refused. -/
theorem refusesFirst_call (config : Config) (r : CallRequest) : (call config r).RefusesFirst := by
  unfold call
  split
  · exact ((accepts_ask_ledgerQuery _).bind fun _ => accepts_pure _).refusesFirst
  · exact refusesFirst_throw _

/-- An empty hash is refused. -/
theorem refusesFirst_getTransaction (hash : String) : (getTransaction hash).RefusesFirst := by
  rw [getTransaction]
  split
  · exact refusesFirst_throw _
  · refine Service.Accepts.refusesFirst ?_
    refine (accepts_findTransaction _).bind fun found => ?_
    exact (accepts_check (accepted_ofBlock _)).bind fun _ => accepts_pure _

/-! ### Queries for logs -/

section Bounds

variable {S : Session} {q : LogQuery}

/-- A bound that cannot be resolved is no reason to refuse. -/
theorem not_isRefusal_of_resolve {ref : BlockRef} {asked : List Call} {e : ApiError}
    (h : (Service.resolve ref).outcome (S asked) = .error e) : ¬ e.IsRefusal := by
  obtain ⟨houtcome, -⟩ := run_resolve (S := S) asked ref
  exact (accepts_resolve ref).outcomeIn S asked e (houtcome.trans h)

/-- The bounds of a query turn out to be reversed in a session, which was asked for them. -/
def LogQuery.ReversedAfter (S : Session) (q : LogQuery) (asked : List Call) : Prop :=
  ∃ f first last, LogFilter.ofQuery q = .ok f ∧
    (Service.resolve f.fromBlock).outcome (S []) = .ok first ∧
    (Service.resolve f.toBlock).outcome (S f.fromBlock.questions) = .ok last ∧
    last < first ∧ asked = f.fromBlock.questions ++ f.toBlock.questions

/-- **A query for logs is refused before it asks anything, or because its bounds are reversed.** In
the second case nothing has been asked but what its bounds cost. -/
theorem refused_getLogs {e : ApiError} (h : (getLogs q).outcomeIn S [] = .error e)
    (hrefusal : e.IsRefusal) :
    (getLogs q).callsIn S [] = [] ∨ q.ReversedAfter S ((getLogs q).callsIn S []) := by
  cases hf : LogFilter.ofQuery q with
  | error e' =>
    left
    rw [getLogs, hf]
    rfl
  | ok f =>
    right
    cases hfirst : (Service.resolve f.fromBlock).outcome (S []) with
    | error e' =>
      rw [(run_getLogs_of_first_error hf hfirst).2] at h
      cases h
      exact absurd hrefusal (not_isRefusal_of_resolve hfirst)
    | ok first =>
      cases hlast : (Service.resolve f.toBlock).outcome (S f.fromBlock.questions) with
      | error e' =>
        rw [(run_getLogs_of_last_error hf hfirst hlast).2] at h
        cases h
        exact absurd hrefusal (not_isRefusal_of_resolve hlast)
      | ok last =>
        obtain ⟨hcalls, houtcome⟩ := run_getLogs_of_ok hf hfirst hlast
        rw [houtcome] at h
        by_cases hlt : last < first
        · rw [if_pos hlt] at hcalls
          exact ⟨f, first, last, hf, hfirst, hlast, hlt, hcalls.trans (List.append_nil _)⟩
        · rw [if_neg hlt] at h
          exact absurd hrefusal ((accepts_scan f _ first).outcomeIn S _ e h)

/-- The bounds of a query cost two questions at most, each for the height. -/
theorem LogQuery.ReversedAfter.eq_height {asked : List Call} (h : q.ReversedAfter S asked) :
    asked.length ≤ 2 ∧ ∀ c ∈ asked, c = .height := by
  obtain ⟨f, -, -, -, -, -, -, rfl⟩ := h
  cases f.fromBlock <;> cases f.toBlock <;> simp [BlockRef.questions]

end Bounds

/-! ### Flaws -/

/-- Some text of the query denotes nothing where it should: a bound is no block reference, an
address of the filter is none, or a topic is none at some position. In the list of a position an
empty text stands for any topic. -/
inductive LogQuery.HasFlaw (q : LogQuery) : Prop
  | fromBlock {s : String} (hs : q.fromBlock = some s) (h : ¬ (BlockRef.parse s).isOk)
  | toBlock {s : String} (hs : q.toBlock = some s) (h : ¬ (BlockRef.parse s).isOk)
  | address {c : Choice} {s : String} (hc : q.address = some c) (hs : s ∈ c.alternatives)
      (h : ¬ (FixedHex.parse 20 s).isOk)
  | topic {positions : List (Option Choice)} {c : Choice} {s : String}
      (hpositions : q.topics = some positions) (hc : some c ∈ positions)
      (hs : c = .one s ∨ s ∈ c.alternatives ∧ s ≠ "") (h : ¬ (FixedHex.parse 32 s).isOk)

/-- Some bound of the query is the earliest block, which cannot bound one. -/
def LogQuery.IsEarliest (q : LogQuery) : Prop :=
  BlockRef.parseOrLatest q.fromBlock = .ok .earliest ∨
    BlockRef.parseOrLatest q.toBlock = .ok .earliest

section Flaws

variable {q : LogQuery}

theorem failsWith_checkHex {α : Type} (x : Except HexError α) :
    FailsWith ApiError.IsRefusal (checkHex x) :=
  .mapError fun _ => by simp [ApiError.ofHex]

theorem failsWith_parseOrLatest (s? : Option String) :
    FailsWith ApiError.IsRefusal (BlockRef.parseOrLatest s?) := by
  cases s? with
  | none => exact .ok _
  | some s =>
    rw [BlockRef.parseOrLatest, BlockRef.parse]
    split_ifs
    · exact .ok _
    · exact .ok _
    · exact .ok _
    · exact (failsWith_checkHex _).map _

theorem failsWith_addresses (c? : Option Choice) :
    FailsWith ApiError.IsRefusal (c?.elim (pure {}) AddressFilter.ofChoice) := by
  cases c? with
  | none => exact .ok _
  | some c => exact (FailsWith.mapM (fun _ => failsWith_checkHex _) _).map _

theorem failsWith_parsePosition (c? : Option Choice) :
    FailsWith ApiError.IsRefusal (TopicsFilter.parsePosition c?) := by
  have htopics (ss : List String) : FailsWith ApiError.IsRefusal (TopicsFilter.parseTopics ss) :=
    .mapM (fun _ => failsWith_checkHex _) ss
  rcases c? with _ | (s | ss)
  · exact .ok _
  · exact htopics [s]
  · exact (htopics _).bind fun _ => .ok _

theorem failsWith_topics (positions? : Option (List (Option Choice))) :
    FailsWith ApiError.IsRefusal (positions?.elim (pure {}) TopicsFilter.ofPositions) := by
  cases positions? with
  | none => exact .ok _
  | some positions => exact (FailsWith.mapM failsWith_parsePosition positions).map _

theorem isOk_of_checkHex {α : Type} {x : Except HexError α} {a : α} (h : checkHex x = .ok a) :
    x.isOk := by
  rw [mapError_eq_ok.1 h]
  rfl

theorem isOk_of_parseTopics {ss : List String} {topics : List Topic}
    (h : TopicsFilter.parseTopics ss = .ok topics) {s : String} (hs : s ∈ ss) :
    (FixedHex.parse 32 s).isOk := by
  obtain ⟨topic, htopic⟩ := exists_mapM_eq_ok.1 ⟨topics, h⟩ s hs
  exact isOk_of_checkHex htopic

/-- Where every part of a query is read, there is no flaw. -/
theorem not_hasFlaw {first last : BlockRef} {addresses : AddressFilter} {topics : TopicsFilter}
    (hfirst : BlockRef.parseOrLatest q.fromBlock = .ok first)
    (hlast : BlockRef.parseOrLatest q.toBlock = .ok last)
    (haddresses : q.address.elim (pure {}) AddressFilter.ofChoice = .ok addresses)
    (htopics : q.topics.elim (pure {}) TopicsFilter.ofPositions = .ok topics) : ¬ q.HasFlaw := by
  rintro (⟨hs, h⟩ | ⟨hs, h⟩ | ⟨hc, hs, h⟩ |
    @⟨positions, c, s, hpositions, hc, hs, h⟩)
  · rw [hs] at hfirst
    exact h (isOk_iff.2 ⟨_, hfirst⟩)
  · rw [hs] at hlast
    exact h (isOk_iff.2 ⟨_, hlast⟩)
  · rw [hc] at haddresses
    obtain ⟨vs, hvs, -⟩ := map_eq_ok.1 haddresses
    obtain ⟨v, hv⟩ := exists_mapM_eq_ok.1 ⟨vs, hvs⟩ _ hs
    exact h (isOk_of_checkHex hv)
  · rw [hpositions] at htopics
    obtain ⟨vs, hvs, -⟩ := map_eq_ok.1 htopics
    obtain ⟨v, hv⟩ := exists_mapM_eq_ok.1 ⟨vs, hvs⟩ _ hc
    cases c with
    | one t =>
      have hst : s = t := by
        rcases hs with hone | ⟨hmem, -⟩
        · exact (Choice.one.inj hone).symm
        · exact List.mem_singleton.1 hmem
      exact h (isOk_of_parseTopics hv (List.mem_singleton.2 hst))
    | anyOf ss =>
      obtain ⟨hmem, hne⟩ := hs.resolve_left (by simp)
      obtain ⟨ts, hts, -⟩ := bind_eq_ok.1 hv
      exact h (isOk_of_parseTopics hts (List.mem_filter.2 ⟨hmem, decide_eq_true hne⟩))

/-- **A query with a flaw is refused.** Another error comes first only if a bound is the earliest
block. -/
theorem exists_error_of_hasFlaw (h : q.HasFlaw) :
    ∃ e, LogFilter.ofQuery q = .error e ∧ (e.IsRefusal ∨ q.IsEarliest) := by
  rw [LogFilter.ofQuery_eq_ofParts, LogFilter.ofParts]
  by_cases hhash : (q.blockHash.isSome && (q.fromBlock.isSome || q.toBlock.isSome)) = true
  · rw [if_pos hhash]
    exact ⟨_, rfl, .inl (by simp)⟩
  rw [if_neg hhash]
  cases hfirst : BlockRef.parseOrLatest q.fromBlock with
  | error e => exact ⟨e, rfl, .inl (failsWith_parseOrLatest _ e hfirst)⟩
  | ok first =>
    cases hlast : BlockRef.parseOrLatest q.toBlock with
    | error e => exact ⟨e, rfl, .inl (failsWith_parseOrLatest _ e hlast)⟩
    | ok last =>
      rw [ok_bind, ok_bind]
      by_cases hearliest : first = .earliest ∨ last = .earliest
      · rw [if_pos hearliest]
        refine ⟨_, rfl, .inr ?_⟩
        rwa [LogQuery.IsEarliest, hfirst, hlast, Except.ok.injEq, Except.ok.injEq]
      rw [if_neg hearliest]
      cases haddresses : q.address.elim (pure {}) AddressFilter.ofChoice with
      | error e => exact ⟨e, rfl, .inl (failsWith_addresses _ e haddresses)⟩
      | ok addresses =>
        cases htopics : q.topics.elim (pure {}) TopicsFilter.ofPositions with
        | error e => exact ⟨e, rfl, .inl (failsWith_topics _ e htopics)⟩
        | ok topics => exact absurd h (not_hasFlaw hfirst hlast haddresses htopics)

end Flaws

end Eth

end LedgerBridge
