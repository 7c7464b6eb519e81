import LedgerBridge.Proofs.Eth.ScanFault
import LedgerBridge.Proofs.Eth.Session
import LedgerBridge.Proofs.Ledger.Chain

/-!
# What a query for logs asks

A query asks for the height of the chain where a bound is the latest block, and then for the blocks
between its bounds, one after the other. It stops at the first block that cannot be read.

* `heights first last` are the numbers of the blocks between two bounds, the greatest number
  included (`toNat_heights`, `mem_heights`);
* `upTo` cuts a list behind the first member that fails a test: so far a scan gets (`calls_scan`);
* `ScanRun` says what a scan asks and gives, and `scanRun_scan` that it does;
* `scanned` are the answers that a scan comes across in a session (`run_scan`);
* `calls_getLogs` says what a query asks and gives, in all cases and in every session.
-/

namespace LedgerBridge.Eth

open Ledger (Answers Call Session)
open Service (check_ok)

/-- The questions that a block reference costs. -/
def BlockRef.questions : BlockRef → List Call
  | .latest => [.height]
  | .earliest | .pending | .number _ => []

/-- The numbers from one block to another. -/
def heights (first last : UInt64) : List UInt64 :=
  (List.range' first.toNat (last.toNat - first.toNat + 1)).map UInt64.ofNat

/-- The members of a list up to the first that fails a test, which is the last of them. -/
def upTo {α : Type} (p : α → Bool) : List α → List α
  | [] => []
  | a :: l => a :: if p a then upTo p l else []

section Heights

variable {first last : UInt64} (hle : first ≤ last)
include hle

theorem toNat_heights :
    (heights first last).map UInt64.toNat =
      List.range' first.toNat (last.toNat - first.toNat + 1) := by
  rw [heights, List.map_map]
  refine (List.map_congr_left fun n hn => ?_).trans (List.map_id _)
  have := List.mem_range'_1.1 hn
  have := last.toNat_lt
  rw [UInt64.le_iff_toNat_le] at hle
  exact UInt64.toNat_ofNat_of_lt' (show n < 2 ^ 64 by omega)

theorem mem_heights {n : UInt64} : n ∈ heights first last ↔ first ≤ n ∧ n ≤ last := by
  have hmem : n ∈ heights first last ↔ n.toNat ∈ (heights first last).map UInt64.toNat :=
    (List.mem_map_of_injective fun _ _ => UInt64.toNat_inj.1).symm
  rw [hmem, toNat_heights hle, List.mem_range'_1, UInt64.le_iff_toNat_le, UInt64.le_iff_toNat_le]
  rw [UInt64.le_iff_toNat_le] at hle
  omega

/-- The numbers in front of one of them are those below it. -/
theorem heights_eq_append {before behind : List UInt64} {n : UInt64}
    (h : heights first last = before ++ n :: behind) :
    (before ++ [n]).map UInt64.toNat = List.range' first.toNat (n.toNat - first.toNat + 1) ∧
      ∀ m, first ≤ m → m < n → m ∈ before := by
  have hnat := toNat_heights hle
  rw [h, List.map_append, List.map_cons] at hnat
  obtain ⟨k, hk, hbefore, hbehind⟩ := List.range'_eq_append_iff.1 hnat.symm
  obtain ⟨hn, -, -⟩ := List.range'_eq_cons_iff.1 hbehind.symm
  refine ⟨?_, fun m hfirst hm => ?_⟩
  · rw [List.map_append, hbefore, show n.toNat - first.toNat + 1 = k + 1 by omega,
      List.range'_concat, List.map_singleton, ← hn, Nat.mul_comm]
  · have hmem : m.toNat ∈ before.map UInt64.toNat := by
      rw [UInt64.le_iff_toNat_le] at hfirst
      rw [UInt64.lt_iff_toNat_lt] at hm
      rw [hbefore, List.mem_range'_1]
      omega
    exact (List.mem_map_of_injective fun _ _ => UInt64.toNat_inj.1).1 hmem

end Heights

section UpTo

variable {α : Type} {p : α → Bool} {l before behind : List α} {a : α}

theorem isPrefix_upTo (p : α → Bool) (l : List α) : upTo p l <+: l := by
  induction l with
  | nil => exact List.prefix_rfl
  | cons a l ih =>
    rw [upTo, List.cons_prefix_cons]
    split
    · exact ⟨rfl, ih⟩
    · exact ⟨rfl, List.nil_prefix⟩

theorem upTo_eq_self (h : ∀ a ∈ l, p a) : upTo p l = l := by
  induction l with
  | nil => rfl
  | cons a l ih =>
    obtain ⟨ha, hl⟩ := List.forall_mem_cons.1 h
    rw [upTo, if_pos ha, ih hl]

theorem upTo_append (h : ∀ a ∈ before, p a) (ha : ¬ p a) :
    upTo p (before ++ a :: behind) = before ++ [a] := by
  induction before with
  | nil => rw [List.nil_append, upTo, if_neg ha, List.nil_append]
  | cons b before ih =>
    obtain ⟨hb, hbefore⟩ := List.forall_mem_cons.1 h
    rw [List.cons_append, upTo, if_pos hb, ih hbefore, List.cons_append]

end UpTo

/-! ### Questions -/

theorem calls_resolve (L : Answers) (ref : BlockRef) :
    (Service.resolve ref).calls L = ref.questions := by
  cases ref with
  | latest =>
    rw [Service.resolve, Service.calls_bind, Service.height, Service.calls_ask]
    cases (Service.ask .ledgerQuery .height).outcome L with
    | error e => rfl
    | ok h => by_cases hh : h = 0 <;> simp [hh, BlockRef.questions]
  | earliest => rfl
  | pending => rfl
  | number n => rfl

theorem calls_blockAt (L : Answers) (number : UInt64) :
    (Service.blockAt number).calls L = [.block number] :=
  Service.calls_ask L _ _

/-- A scan asks for its first block, and goes on if that can be read. -/
theorem calls_scan_succ (L : Answers) (f : LogFilter) (count : Nat) (number : UInt64) :
    (scan f (count + 1) number).calls L =
      .block number ::
        if (logsAt L f number).isOk then (scan f count (number + 1)).calls L else [] := by
  rw [scan, logsAt]
  cases hblock : (Service.blockAt number).outcome L with
  | error e =>
    rw [Service.calls_bind_of_error hblock, calls_blockAt]
    rfl
  | ok block =>
    rw [Service.calls_bind_of_ok hblock, calls_blockAt, List.singleton_append, ok_bind]
    cases blockLogs f block with
    | error e => rfl
    | ok logs =>
      -- what is done with the logs of the other blocks asks nothing
      show _ :: ((logs ++ ·) <$> scan f count (number + 1)).calls L = _
      rw [Service.calls_map]
      rfl

/-- A scan asks for its blocks, up to the first that cannot be read. -/
theorem calls_scan (L : Answers) (f : LogFilter) (count first : Nat) :
    (scan f count (UInt64.ofNat first)).calls L =
      (upTo (fun n => (logsAt L f n).isOk) ((List.range' first count).map UInt64.ofNat)).map
        Call.block := by
  induction count generalizing first with
  | zero => rfl
  | succ count ih =>
    have hnext : UInt64.ofNat first + 1 = UInt64.ofNat (first + 1) := by
      rw [UInt64.ofNat_add]
      rfl
    rw [calls_scan_succ, hnext, ih, List.range'_succ, List.map_cons, upTo, List.map_cons]
    split <;> rfl

/-- What a scan asks and gives: `asked` are the numbers of the blocks it asks for. It succeeds if
all blocks can be read, and then it has asked for each of them once, in their order. Otherwise it
has asked for those up to the first that cannot be read, and fails with the error of that one. -/
structure ScanRun (L : Answers) (first last : UInt64) (asked : List UInt64)
    (result : Except ApiError (List Log)) : Prop where
  exists_ok_iff : (∃ logs, result = .ok logs) ↔ ∀ n, first ≤ n → n ≤ last → HeightReadable L n
  asked_of_ok (logs : List Log) (h : result = .ok logs) :
    asked.map UInt64.toNat = List.range' first.toNat (last.toNat - first.toNat + 1)
  asked_of_error (e : ApiError) (h : result = .error e) :
    ∃ n, first ≤ n ∧ n ≤ last ∧ HeightFault L n e ∧
      (∀ m, first ≤ m → m < n → HeightReadable L m) ∧
      asked.map UInt64.toNat = List.range' first.toNat (n.toNat - first.toNat + 1)

section Scan

variable {L : Answers} {f : LogFilter} {first last : UInt64}

theorem calls_scan_heights :
    (scan f (last.toNat - first.toNat + 1) first).calls L =
      (upTo (fun n => (logsAt L f n).isOk) (heights first last)).map Call.block := by
  have hscan := calls_scan L f (last.toNat - first.toNat + 1) first.toNat
  rwa [UInt64.ofNat_toNat] at hscan

theorem outcome_scan_heights :
    (scan f (last.toNat - first.toNat + 1) first).outcome L =
      List.flatten <$> (heights first last).mapM (logsAt L f) := by
  have hscan := outcome_scan L f (last.toNat - first.toNat + 1) first.toNat
  rw [UInt64.ofNat_toNat] at hscan
  rw [hscan, heights, List.mapM_map]
  rfl

/-- **A scan asks for the blocks between its bounds.** -/
theorem scanRun_scan (hle : first ≤ last) :
    ScanRun L first last (upTo (fun n => (logsAt L f n).isOk) (heights first last))
      ((scan f (last.toNat - first.toNat + 1) first).outcome L) := by
  rw [outcome_scan_heights]
  constructor
  · simp only [map_eq_ok, ← exists_logsAt_iff (f := f), ← and_imp, ← mem_heights hle]
    rw [← exists_mapM_eq_ok]
    exact ⟨fun ⟨_, lists, h, _⟩ => ⟨lists, h⟩, fun ⟨lists, h⟩ => ⟨_, lists, h, rfl⟩⟩
  · intro logs h
    obtain ⟨lists, h, -⟩ := map_eq_ok.1 h
    rw [upTo_eq_self fun n hn => isOk_iff.2 (exists_mapM_eq_ok.1 ⟨lists, h⟩ n hn),
      toNat_heights hle]
  · intro e h
    obtain ⟨before, n, behind, heq, hbefore, hn⟩ := mapM_eq_error.1 (map_eq_error.1 h)
    obtain ⟨hasked, hlower⟩ := heights_eq_append hle heq
    have hmem : n ∈ heights first last := by simp [heq]
    obtain ⟨hfirst, hlast⟩ := (mem_heights hle).1 hmem
    refine ⟨n, hfirst, hlast, heightFault_of_error hn, fun m hm hlt => ?_, ?_⟩
    · exact exists_logsAt_iff.1 (hbefore m (hlower m hm hlt))
    · have hfails : ¬ (logsAt L f n).isOk := by
        rw [hn]
        exact Bool.false_ne_true
      rw [heq, upTo_append (fun m hm => isOk_iff.2 (hbefore m hm)) hfails, hasked]

end Scan

/-! ### Sessions -/

/-- The answers of a session to a scan from a block on, after some questions: when a block is asked
for, all blocks in front of it have been. -/
def scanned (S : Session) (asked : List Call) (first : UInt64) : Answers
  | .block n =>
    S (asked ++ (List.range' first.toNat (n.toNat - first.toNat)).map fun k =>
      .block (UInt64.ofNat k)) (.block n)
  | c => S asked c

section Session

variable {S : Session} {f : LogFilter} {first last : UInt64}

/-- When a block is asked for, the blocks asked for so far are those in front of it. -/
theorem scanned_block {asked : List Call} {lower upper : List UInt64} {n : UInt64}
    (hle : first ≤ last) (h : heights first last = lower ++ n :: upper) :
    scanned S asked first (.block n) = S (asked ++ lower.map Call.block) (.block n) := by
  obtain ⟨hnat, -⟩ := heights_eq_append hle h
  rw [List.range'_concat, List.map_append, List.map_singleton] at hnat
  rw [scanned, ← List.append_inj_left' hnat rfl, List.map_map]
  simp [Function.comp_def]

/-- Every block is asked for once at most, so a scan in a session is one on a ledger that always
answers alike. -/
theorem run_scan (asked : List Call) (hle : first ≤ last) :
    (scan f (last.toNat - first.toNat + 1) first).outcomeIn S asked =
        (scan f (last.toNat - first.toNat + 1) first).outcome (scanned S asked first) ∧
      (scan f (last.toNat - first.toNat + 1) first).callsIn S asked =
        (scan f (last.toNat - first.toNat + 1) first).calls (scanned S asked first) := by
  refine Service.run_eq_of_agrees fun before c hprefix => ?_
  rw [calls_scan_heights] at hprefix
  obtain ⟨rest, h⟩ := hprefix.trans ((isPrefix_upTo _ _).map Call.block)
  rw [List.append_assoc, List.singleton_append] at h
  obtain ⟨lower, upper, hheights, rfl, hupper⟩ := List.map_eq_append_iff.1 h.symm
  obtain ⟨n, behind, rfl, rfl, -⟩ := List.map_eq_cons_iff.1 hupper
  exact (scanned_block hle hheights).symm

theorem run_resolve (asked : List Call) (ref : BlockRef) :
    (Service.resolve ref).outcomeIn S asked = (Service.resolve ref).outcome (S asked) ∧
      (Service.resolve ref).callsIn S asked = ref.questions := by
  rw [← calls_resolve (S asked)]
  refine Service.run_eq_of_length_le ?_
  rw [calls_resolve]
  cases ref <;> simp [BlockRef.questions]

theorem run_resolve_of_error {asked : List Call} {ref : BlockRef} {e : ApiError}
    (h : (Service.resolve ref).outcome (S asked) = .error e) (rest : UInt64 → Service (List Log)) :
    (Service.resolve ref >>= rest).outcomeIn S asked = .error e ∧
      (Service.resolve ref >>= rest).callsIn S asked = ref.questions := by
  obtain ⟨houtcome, hcalls⟩ := run_resolve (S := S) asked ref
  obtain ⟨hresult, hasked⟩ := Service.run_bind_of_error (houtcome.trans h) rest
  exact ⟨hresult, hasked.trans hcalls⟩

theorem run_resolve_of_ok {asked : List Call} {ref : BlockRef} {number : UInt64}
    (h : (Service.resolve ref).outcome (S asked) = .ok number)
    (rest : UInt64 → Service (List Log)) :
    (Service.resolve ref >>= rest).outcomeIn S asked =
        (rest number).outcomeIn S (asked ++ ref.questions) ∧
      (Service.resolve ref >>= rest).callsIn S asked =
        ref.questions ++ (rest number).callsIn S (asked ++ ref.questions) := by
  obtain ⟨houtcome, hcalls⟩ := run_resolve (S := S) asked ref
  rw [← hcalls]
  exact Service.run_bind_of_ok (houtcome.trans h) rest

variable {q : LogQuery} (hf : LogFilter.ofQuery q = .ok f)
include hf

theorem run_getLogs_of_first_error {e : ApiError}
    (hfirst : (Service.resolve f.fromBlock).outcome (S []) = .error e) :
    (getLogs q).callsIn S [] = f.fromBlock.questions ∧ (getLogs q).outcomeIn S [] = .error e := by
  rw [getLogs, hf, check_ok, pure_bind]
  exact (run_resolve_of_error hfirst _).symm

variable (hfirst : (Service.resolve f.fromBlock).outcome (S []) = .ok first)
include hfirst

theorem run_getLogs_of_last_error {e : ApiError}
    (hlast : (Service.resolve f.toBlock).outcome (S f.fromBlock.questions) = .error e) :
    (getLogs q).callsIn S [] = f.fromBlock.questions ++ f.toBlock.questions ∧
      (getLogs q).outcomeIn S [] = .error e := by
  rw [getLogs, hf, check_ok, pure_bind]
  obtain ⟨houtcome, hcalls⟩ := run_resolve_of_ok hfirst _
  rw [houtcome, hcalls, List.nil_append]
  obtain ⟨houtcome, hcalls⟩ := run_resolve_of_error hlast _
  rw [houtcome, hcalls]
  exact ⟨rfl, rfl⟩

variable (hlast : (Service.resolve f.toBlock).outcome (S f.fromBlock.questions) = .ok last)
include hlast

/-- Once both bounds are resolved, what is left of the query is a check and the scan. -/
theorem run_getLogs_of_ok :
    (getLogs q).callsIn S [] = f.fromBlock.questions ++ f.toBlock.questions ++
        Service.callsIn S (f.fromBlock.questions ++ f.toBlock.questions)
          (if last < first then
            throw (.invalidParams "first block number greater than last block number")
          else scan f (last.toNat - first.toNat + 1) first) ∧
      (getLogs q).outcomeIn S [] =
        Service.outcomeIn S (f.fromBlock.questions ++ f.toBlock.questions)
          (if last < first then
            throw (.invalidParams "first block number greater than last block number")
          else scan f (last.toNat - first.toNat + 1) first) := by
  rw [getLogs, hf, check_ok, pure_bind]
  obtain ⟨houtcome, hcalls⟩ := run_resolve_of_ok hfirst _
  rw [houtcome, hcalls, List.nil_append]
  obtain ⟨houtcome, hcalls⟩ := run_resolve_of_ok hlast _
  rw [houtcome, hcalls, List.append_assoc]
  exact ⟨rfl, rfl⟩

end Session

/-- **What a query asks and gives.** Nothing is asked for a query that is refused. Otherwise the
height is asked for each bound that is the latest block, the last bound only if the first one could
be resolved; blocks are asked for only if both could be resolved and are in order, and then the scan
runs as `ScanRun` says. The ledger may answer differently every time it is asked. -/
theorem calls_getLogs (S : Session) (q : LogQuery) :
    (∀ e, LogFilter.ofQuery q = .error e →
      (getLogs q).callsIn S [] = [] ∧ (getLogs q).outcomeIn S [] = .error e) ∧
    ∀ f, LogFilter.ofQuery q = .ok f →
      (∀ e, (Service.resolve f.fromBlock).outcome (S []) = .error e →
        (getLogs q).callsIn S [] = f.fromBlock.questions ∧
          (getLogs q).outcomeIn S [] = .error e) ∧
      ∀ first, (Service.resolve f.fromBlock).outcome (S []) = .ok first →
        (∀ e, (Service.resolve f.toBlock).outcome (S f.fromBlock.questions) = .error e →
          (getLogs q).callsIn S [] = f.fromBlock.questions ++ f.toBlock.questions ∧
            (getLogs q).outcomeIn S [] = .error e) ∧
        ∀ last, (Service.resolve f.toBlock).outcome (S f.fromBlock.questions) = .ok last →
          (last < first →
            (getLogs q).callsIn S [] = f.fromBlock.questions ++ f.toBlock.questions ∧
              (getLogs q).outcomeIn S [] =
                .error (.invalidParams "first block number greater than last block number")) ∧
          (first ≤ last → ∃ asked,
            (getLogs q).callsIn S [] =
              f.fromBlock.questions ++ f.toBlock.questions ++ asked.map Call.block ∧
            ScanRun (scanned S (f.fromBlock.questions ++ f.toBlock.questions) first) first
              last asked
              ((getLogs q).outcomeIn S [])) := by
  refine ⟨fun e he => ?_, fun f hf => ⟨fun e he => ?_, fun first hfirst => ⟨fun e he => ?_,
    fun last hlast => ?_⟩⟩⟩
  · rw [getLogs, he]
    exact ⟨rfl, rfl⟩
  · exact run_getLogs_of_first_error hf he
  · exact run_getLogs_of_last_error hf hfirst he
  · obtain ⟨hcalls, houtcome⟩ := run_getLogs_of_ok hf hfirst hlast
    rw [hcalls, houtcome]
    constructor
    · intro hlt
      rw [if_pos hlt]
      exact ⟨List.append_nil _, rfl⟩
    · intro hle
      rw [if_neg (UInt64.not_lt.2 hle)]
      obtain ⟨hscan, hasked⟩ :=
        run_scan (S := S) (f := f) (f.fromBlock.questions ++ f.toBlock.questions) hle
      rw [hscan, hasked, calls_scan_heights]
      exact ⟨_, rfl, scanRun_scan hle⟩

theorem calls_getLogs_greatest :
    (getLogs {
      fromBlock := some "0xfffffffffffffffe", toBlock := some "0xffffffffffffffff" }).callsIn
        (fun _ => Ledger.answersOfLookup fun _ => .ok { header := some {} }) [] =
      [.block 0xfffffffffffffffe, .block 0xffffffffffffffff] := by
  have hf : LogFilter.ofQuery
      { fromBlock := some "0xfffffffffffffffe", toBlock := some "0xffffffffffffffff" } =
      .ok { fromBlock := .number 0xfffffffffffffffe, toBlock := .number 0xffffffffffffffff } := by
    decide +kernel
  obtain ⟨-, h⟩ := calls_getLogs
    (fun _ => Ledger.answersOfLookup fun _ => .ok { header := some {} })
    { fromBlock := some "0xfffffffffffffffe", toBlock := some "0xffffffffffffffff" }
  obtain ⟨asked, hcalls, hrun⟩ := (((h _ hf).2 _ rfl).2 _ rfl).2 (by decide)
  obtain ⟨logs, hlogs⟩ := hrun.exists_ok_iff.2 fun n _ _ =>
    ⟨_, rfl, ⟨_, rfl⟩, fun i raw hslot => by simp [Ledger.Block.slots] at hslot⟩
  have hasked : asked.map UInt64.toNat = [0xfffffffffffffffe, 0xffffffffffffffff] :=
    hrun.asked_of_ok logs hlogs
  have hgreatest : asked = [0xfffffffffffffffe, 0xffffffffffffffff] :=
    List.map_injective_iff.2 (fun _ _ => UInt64.toNat_inj.1) hasked
  rw [hcalls, hgreatest]
  rfl

end LedgerBridge.Eth
