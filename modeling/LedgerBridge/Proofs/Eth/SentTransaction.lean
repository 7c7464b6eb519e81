import LedgerBridge.Eth.Contract
import LedgerBridge.Proofs.Eth.Lookup
import LedgerBridge.Proofs.Eth.Place
import LedgerBridge.Proofs.Hex.Mark
import LedgerBridge.Proofs.Ledger.Chain

/-!
# Sent transactions looked up

A request goes to the ledger without marks, and comes back from there with them. What is sent is
what is shown later, once the ledger has committed it.

* `CalleeNames` and `DataSpells` say what the texts of a request mean, in all their spellings;
* `calls_sendTransaction` is what is handed to the ledger: a function that denotes the callee
  (`parse_functionOf`) and an argument that is the digits of the data (`bare_of_dataSpells`);
* `outcome_getTransaction_of_endorsement` shows an endorsed transaction as it was built;
* `getTransaction_of_sent` puts them together, with `ShowsSent` for what is shown.
-/

namespace LedgerBridge.Eth

open Ledger (Answers Endorsement EvmCall)

/-- The account that the callee of a request names: none for a request to deploy a contract. -/
inductive CalleeNames : Option String → Option Address → Prop where
  | absent : CalleeNames none none
  | empty : CalleeNames (some "") none
  | address {s : String} {v : Address} (h : FixedHex.parse 20 s = .ok v) :
      CalleeNames (some s) (some v)

/-- The digits that the data of a request spells, with the mark or without it. -/
inductive DataSpells : Option String → String → Prop where
  | absent : DataSpells none ""
  | bare {digits : String} (h : Hex.IsDigits digits) : DataSpells (some digits) digits
  | marked {digits : String} (h : Hex.IsDigits digits) :
      DataSpells (some (Hex.marked digits)) digits

/-! ### What is sent -/

theorem calls_sendTransaction (L : Answers) (config : Config) (r : CallRequest) :
    (sendTransaction config r).calls L =
      [.execute config.chaincode (functionOf r) [argument r.input]] := by
  rw [sendTransaction, Service.calls_bind, Service.execute, Service.calls_ask]
  cases (Service.ask .ledgerExecute
    (.execute config.chaincode (functionOf r) [argument r.input])).outcome L <;> rfl

section Request

variable {r : CallRequest} {target : Option Address} {digits : String}

/-- The function that is invoked denotes the callee, or zero to deploy, and has no mark. -/
theorem parse_functionOf (h : CalleeNames r.recipient target) :
    FixedHex.parse 20 (functionOf r) = .ok (target.getD (.zero 20)) ∧
      ¬ Hex.IsMarked (functionOf r) := by
  have hzero : FixedHex.parse 20 (FixedHex.zero 20).digits = .ok (.zero 20) ∧
      ¬ Hex.IsMarked (FixedHex.zero 20).digits :=
    ⟨FixedHex.parse_digits _, Hex.not_isMarked_of_isDigits (Hex.isDigits_encode _)⟩
  rw [functionOf, CallRequest.callee]
  generalize r.recipient = recipient at h
  cases h with
  | absent => exact hzero
  | empty => exact hzero
  | @address s v h =>
    have hs : s ≠ "" := FixedHex.ne_of_parse h (by decide)
    simp only [Option.filter_some, ne_eq, hs, not_false_eq_true, decide_true, if_true,
      Option.getD_some]
    exact ⟨FixedHex.parse_bare h, FixedHex.not_isMarked_bare_of_parse h⟩

/-- The argument is the digits of the data, except that the mark alone stays. -/
theorem bare_of_dataSpells (h : DataSpells r.data digits) (hmark : r.data ≠ some "0x") :
    Hex.bare r.input = digits ∧ Hex.IsDigits digits := by
  rw [CallRequest.input]
  generalize r.data = data at h hmark
  cases h with
  | absent => exact ⟨rfl, by simp [Hex.IsDigits]⟩
  | bare h => exact ⟨Hex.bare_of_not_isMarked (Hex.not_isMarked_of_isDigits h), h⟩
  | marked h =>
    refine ⟨Hex.bare_marked ?_, h⟩
    rintro rfl
    exact hmark rfl

end Request

/-! ### What is shown -/

/-- An endorsed transaction that is alone in its block is shown as it was built. -/
theorem outcome_getTransaction_of_endorsement {L : Answers} {b : Ledger.Block} {slot : Nat}
    {header : Ledger.BlockHeader} {e : Endorsement} (ha : e.hasActions) (hx : e.hasExtension)
    (hempty : e.txId ≠ "") (hmark : e.txId ≠ "0x") (hb : L (.blockOf e.txId) = .ok b)
    (hheader : b.header = some header) (halone : b.transactions = [(slot, e.envelope)])
    (hlen : e.envelope.length < UInt64.size) :
    (getTransaction (Hex.marked e.txId)).outcome L = .ok {
      blockHash := Hex.ofBytes header.dataHash
      blockNumber := Quantity.text header.number
      recipient := (EvmCall.ofArgs? e.args).bind Place.calleeOf
      input := (EvmCall.ofArgs? e.args).bind Place.inputOf
      transactionIndex := Quantity.text (UInt64.ofNat slot)
      hash := Hex.marked e.txId } := by
  have hfound := Ledger.Block.findAmong_eq_some_iff.2
    ⟨[], e.envelope, [], halone, by simp, rfl, e.decodeTransaction_envelope ha hx hlen⟩
  rw [outcome_getTransaction hempty hmark hb hfound (BlockSummary.ofBlock_of_header hheader)]
  rfl

/-- A well-formed callee is shown unless it is zero. -/
theorem calleeOf_of_parse {c : EvmCall} {v : Address} (h : FixedHex.parse 20 c.callee = .ok v) :
    Place.calleeOf c = if v = .zero 20 then none else some (Hex.marked c.callee) := by
  have hempty : c.callee ≠ "" := FixedHex.ne_of_parse h (by decide)
  have hcreation : c.isCreation = decide (v = .zero 20) := by
    rw [EvmCall.isCreation, FixedHex.denotedBy, h]
    rfl
  simp only [Place.calleeOf, hempty, hcreation, false_or, decide_eq_true_eq]

/-- What is shown of the transaction with an id that was sent with a request: the callee in some
spelling, or none for a deployment, and the digits of the data behind the mark. Nothing has the mark
twice, except for the hash of an id that has it already. The input is left open for a request whose
data is the mark alone. -/
structure ShowsSent (r : CallRequest) (target : Option Address) (digits txId : String)
    (tx : Transaction) : Prop where
  hash : tx.hash = Hex.marked txId
  recipient_eq_none (h : ∀ v, target = some v → v = .zero 20) : tx.recipient = none
  recipient_eq_some (v : Address) (h : target = some v) (hv : v ≠ .zero 20) :
    ∃ s, tx.recipient = some s ∧ FixedHex.parse 20 s = .ok v
  input (h : r.data ≠ some "0x") : tx.input = if digits = "" then none else some (Hex.marked digits)
  marked_once (s : String)
    (h : s = tx.blockHash ∨ s = tx.blockNumber ∨ s = tx.transactionIndex ∨ tx.recipient = some s ∨
      (tx.input = some s ∧ r.data ≠ some "0x") ∨ (s = tx.hash ∧ ¬ Hex.IsMarked txId)) :
    ∀ u, s ≠ Hex.marked (Hex.marked u)

/-- The transaction that the ledger commits for an invocation with one argument. -/
def endorsementOf (txId function : String) (argument : Bytes) : Endorsement where
  txId := txId
  args := [Utf8.encode function, argument]

section Request

variable {r : CallRequest} {target : Option Address} {digits : String}
  (htarget : CalleeNames r.recipient target)
include htarget

/-- The arguments that were sent are a call. -/
theorem ofArgs?_sent : EvmCall.ofArgs? [Utf8.encode (functionOf r), argument r.input] =
    some ⟨functionOf r, Hex.bare r.input⟩ := by
  obtain ⟨hparse, -⟩ := parse_functionOf htarget
  exact EvmCall.ofArgs?_eq_some_iff.2 ⟨rfl, FixedHex.ne_of_parse hparse (by decide)⟩

variable (hdigits : DataSpells r.data digits)
include hdigits

theorem showsSent (header : Ledger.BlockHeader) (slot : Nat) (txId : String) :
    ShowsSent r target digits txId {
      blockHash := Hex.ofBytes header.dataHash
      blockNumber := Quantity.text header.number
      recipient := Place.calleeOf ⟨functionOf r, Hex.bare r.input⟩
      input := Place.inputOf ⟨functionOf r, Hex.bare r.input⟩
      transactionIndex := Quantity.text (UInt64.ofNat slot)
      hash := Hex.marked txId } := by
  obtain ⟨hparse, hfunction⟩ := parse_functionOf htarget
  have hrecipient := calleeOf_of_parse (c := ⟨functionOf r, Hex.bare r.input⟩) hparse
  have hinput (h : r.data ≠ some "0x") : Place.inputOf ⟨functionOf r, Hex.bare r.input⟩ =
      if digits = "" then none else some (Hex.marked digits) := by
    rw [Place.inputOf, (bare_of_dataSpells hdigits h).1]
  rw [hrecipient]
  constructor
  case hash => rfl
  case recipient_eq_none =>
    intro h
    refine if_pos ?_
    cases target with
    | none => rfl
    | some v => exact h v rfl
  case recipient_eq_some =>
    rintro v rfl hv
    refine ⟨_, if_neg hv, ?_⟩
    have hmarked := FixedHex.toOption_parse_marked_bare (n := 20) (by decide) (functionOf r)
    rw [Hex.bare_of_not_isMarked hfunction, hparse] at hmarked
    exact toOption_eq_some.1 hmarked
  case input => exact hinput
  case marked_once =>
    -- what stands behind the mark is a text without it
    intro s h
    obtain ⟨x, rfl, hx⟩ : ∃ x, s = Hex.marked x ∧ ¬ Hex.IsMarked x := by
      rcases h with rfl | rfl | rfl | h | ⟨h, hdata⟩ | ⟨rfl, hid⟩
      · exact ⟨_, rfl, Hex.not_isMarked_of_isDigits (Hex.isDigits_encode _)⟩
      · exact ⟨_, rfl, Hex.not_isMarked_of_isDigits (Hex.isDigits_digits _)⟩
      · exact ⟨_, rfl, Hex.not_isMarked_of_isDigits (Hex.isDigits_digits _)⟩
      · split at h
        · cases h
        · exact ⟨_, (Option.some.inj h).symm, hfunction⟩
      · have h := (hinput hdata).symm.trans h
        split at h
        · cases h
        · exact ⟨_, (Option.some.inj h).symm,
            Hex.not_isMarked_of_isDigits (bare_of_dataSpells hdigits hdata).2⟩
      · exact ⟨_, rfl, hid⟩
    exact Hex.marked_ne_marked_marked hx

/-- **What is sent is what is shown.** A request to a well-formed address, or to none, whose data is
digits makes the ledger execute one function with one argument. If the ledger finds a block for an
id, which has a header and holds nothing but a transaction with this id, function and argument, then
a look-up shows the callee and the digits of the request. -/
theorem getTransaction_of_sent :
    ∃ (function : String) (argument : Bytes),
      (∀ L config, (sendTransaction config r).calls L =
        [.execute config.chaincode function [argument]]) ∧
      ∀ (L : Answers) (b : Ledger.Block) (slot : Nat) (txId : String), txId ≠ "" → txId ≠ "0x" →
        L (.blockOf txId) = .ok b → b.header.isSome →
        b.transactions = [(slot, (endorsementOf txId function argument).envelope)] →
        (endorsementOf txId function argument).envelope.length < UInt64.size →
        ∃ tx, (getTransaction (Hex.marked txId)).outcome L = .ok tx ∧
          ShowsSent r target digits txId tx := by
  refine ⟨functionOf r, argument r.input, fun L config => calls_sendTransaction L config r, ?_⟩
  intro L b slot txId hempty hmark hb hheader halone hlen
  obtain ⟨header, hheader⟩ := Option.isSome_iff_exists.1 hheader
  refine ⟨_, ?_, showsSent htarget hdigits header slot txId⟩
  have hrun := outcome_getTransaction_of_endorsement
    (e := endorsementOf txId (functionOf r) (argument r.input)) rfl rfl hempty hmark hb hheader
    halone hlen
  rw [endorsementOf, ofArgs?_sent htarget] at hrun
  exact hrun

end Request

/-- A ledger that knows one block, with nothing in it but a transaction for an invocation. -/
def answersOfSent (txId function : String) (argument : Bytes) : Answers :=
  Ledger.answersOfLookup fun number =>
    .ok (.committed number [((endorsementOf txId function argument).envelope, 0)])

theorem getTransaction_of_sent_call : ∃ tx s,
    (getTransaction "0xa1").outcome (answersOfSent "a1" "82373458164820947891abcdefabcdefabcdefab"
      (Utf8.encode "a905")) = .ok tx ∧
    tx.recipient = some s ∧
    FixedHex.parse 20 s = FixedHex.parse 20 "0x82373458164820947891abcdefabcdefabcdefab" ∧
    tx.input = some "0xa905" := by
  obtain ⟨v, hv, hzero⟩ : ∃ v,
      FixedHex.parse 20 "0x82373458164820947891abcdefabcdefabcdefab" = .ok v ∧ v ≠ .zero 20 :=
    ⟨⟨[0x82, 0x37, 0x34, 0x58, 0x16, 0x48, 0x20, 0x94, 0x78, 0x91, 0xab, 0xcd, 0xef, 0xab, 0xcd,
      0xef, 0xab, 0xcd, 0xef, 0xab], rfl⟩, by decide +kernel⟩
  obtain ⟨function, argument, hcalls, hshown⟩ := getTransaction_of_sent
    (r := { recipient := some "0x82373458164820947891abcdefabcdefabcdefab", data := some "a905" })
    (.address hv) (.bare (show Hex.IsDigits "a905" by decide))
  have hsent := hcalls (Ledger.answersOf []) {}
  rw [calls_sendTransaction, List.cons.injEq, Ledger.Call.execute.injEq, List.cons.injEq] at hsent
  obtain ⟨⟨-, hfunction, hargument, -⟩, -⟩ := hsent
  obtain rfl : "82373458164820947891abcdefabcdefabcdefab" = function :=
    Eq.trans (by decide) hfunction
  obtain rfl : Utf8.encode "a905" = argument := Eq.trans (by decide) hargument
  obtain ⟨tx, htx, hshows⟩ := hshown (answersOfSent "a1" "82373458164820947891abcdefabcdefabcdefab"
    (Utf8.encode "a905")) _ 0 "a1" (by decide) (by decide) rfl rfl rfl (by decide +kernel)
  obtain ⟨s, hs, hparse⟩ := hshows.recipient_eq_some v rfl hzero
  exact ⟨tx, s, htx, hs, hparse.trans hv.symm, hshows.input (by decide)⟩

/-- Ids with the mark, blocks without a header, and data that is the mark alone. -/
theorem getTransaction_marked_twice :
    ((∀ L, (sendTransaction {} { data := some "0x6060" }).calls L =
        [.execute "evmcc" "0000000000000000000000000000000000000000" [Utf8.encode "6060"]]) ∧
      (∃ tx, (getTransaction "0x0xa1").outcome (answersOfSent "0xa1"
          "0000000000000000000000000000000000000000" (Utf8.encode "6060")) = .ok tx ∧
        tx.hash = "0x0xa1") ∧
      (getTransaction "0xa1").outcome (Ledger.answersOfLookup fun _ => .ok { data := some { data :=
          [(endorsementOf "a1" "0000000000000000000000000000000000000000"
            (Utf8.encode "6060")).envelope] } }) = .error (.unmarshal "block has no header")) ∧
    (∀ L, (sendTransaction {} { data := some "0x" }).calls L =
        [.execute "evmcc" "0000000000000000000000000000000000000000" [Utf8.encode "0x"]]) ∧
      ∃ tx, (getTransaction "0xa1").outcome (answersOfSent "a1"
          "0000000000000000000000000000000000000000" (Utf8.encode "0x")) = .ok tx ∧
        tx.input = some "0x0x" := by
  refine ⟨⟨fun L => calls_sendTransaction L _ _, ?_, by decide +kernel⟩,
    fun L => calls_sendTransaction L _ _, ?_⟩
  · exact ⟨⟨Hex.ofBytes (Ledger.dataHashOf 0), "0x0", none, some "0x6060", "0x0", "0x0xa1"⟩,
      by decide +kernel, rfl⟩
  · exact ⟨⟨Hex.ofBytes (Ledger.dataHashOf 0), "0x0", none, some "0x0x", "0x0", "0xa1"⟩,
      by decide +kernel, rfl⟩

end LedgerBridge.Eth
