import LedgerBridge.Proofs.Rpc.Submission
import LedgerBridge.Proofs.Text.Case

/-!
# Where names lead

* `Name.spellings key`: the namespace of a key, the separator, and its method, as it stands in the
  key or with a small first letter;
* `Name.key?_eq_some_iff_mem`: the names that ask for a key of the table are its spellings, and
  those that have another letter with the same capital in first place;
* `route_iff_spelling`: so each name leads to the method that it spells, and all others are answered
  that there is no such method.
-/

namespace LedgerBridge.Rpc

open Eth (CallRequest Config)
open Ledger (Access)

namespace Name

/-- A wire name, put together. -/
def join (space : List Char) (first : Char) (rest : List Char) : String :=
  String.ofList (space ++ '_' :: first :: rest)

/-- The letters whose upper case form is a capital of ASCII. -/
def letters (capital : Char) : List Char :=
  capital :: capital.toLower :: (Case.foreign.filter (·.2 = capital)).map (·.1)

/-- The wire names of a key with a first letter of the method out of `choose`. -/
def withLetters (choose : Char → List Char) (key : String) : List String :=
  match splitFirst '.' key.toList with
  | some (space, first :: rest) => (choose first).map fun c => join space c rest
  | _ => []

/-- The wire names that are documented for a key: the method starts as in the key, or with the small
letter. -/
def spellings (key : String) : List String :=
  withLetters (fun first => [first, first.toLower]) key

/-- The key has one point, its namespace has no separator, and its method starts with a capital and
a small letter. -/
def IsRegular (key : String) : Prop :=
  match splitFirst '.' key.toList with
  | some (space, first :: second :: rest) =>
    '_' ∉ space ∧ '.' ∉ second :: rest ∧ first.isUpper = true ∧ second.isLower = true
  | _ => False

instance : DecidablePred IsRegular := fun key => by
  unfold IsRegular
  split <;> infer_instance

/-! ### The names that ask for a key -/

variable {wire key : String} {space rest : List Char} {first second : Char}

/-- A key has one point only, so it says what is in front of it. -/
theorem eq_of_append_point {space' rest' : List Char} (hspace : '.' ∉ space) (hrest : '.' ∉ rest)
    (h : space ++ '.' :: rest = space' ++ '.' :: rest') : space' = space ∧ rest' = rest := by
  have hspace' : '.' ∉ space' := by
    have hcount := congrArg (List.count '.') h
    simp only [List.count_append, List.count_cons_self, List.count_eq_zero_of_not_mem hspace,
      List.count_eq_zero_of_not_mem hrest] at hcount
    exact List.count_eq_zero.1 (by omega)
  have hsplit := splitFirst_append hspace rest
  rw [h, splitFirst_append hspace', Option.some.injEq, Prod.mk.injEq] at hsplit
  exact hsplit

/-- Capitals and small letters have one letter each, so a key is asked for by the names that have
those letters in first place, and by no name whose first letter has several capitals. -/
theorem key?_eq_some_iff (hkey : key.toList = space ++ '.' :: first :: second :: rest)
    (hspace : '.' ∉ space) (hplain : '_' ∉ space) (hrest : '.' ∉ second :: rest)
    (hfirst : first.isUpper = true) (hsecond : second.isLower = true) :
    key? wire = some key ↔ ∃ c, Case.upper c = [first] ∧ wire = join space c (second :: rest) := by
  have hpoint : '.' ∉ first :: second :: rest := by
    refine fun h => (List.mem_cons.1 h).elim (fun h => ?_) hrest
    rw [← h] at hfirst
    exact absurd hfirst (by decide)
  constructor
  · intro h
    unfold key? at h
    split at h
    · next space' c rest' hsplit =>
      obtain ⟨hwire, -⟩ := eq_append_of_splitFirst hsplit
      have htext : key.toList = space' ++ '.' :: (Case.upper c ++ rest') := by
        rw [← Option.some.inj h, String.toList_ofList]
      obtain ⟨rfl, hmethod⟩ := eq_of_append_point hspace hpoint (hkey.symm.trans htext)
      cases hupper : Case.upper c with
      | nil => exact absurd hupper (Case.upper_ne_nil c)
      | cons d more =>
        rw [hupper, List.cons_append, List.cons.injEq] at hmethod
        obtain ⟨rfl, hmethod⟩ := hmethod
        cases more with
        | nil =>
          refine ⟨c, hupper, String.toList_inj.1 ?_⟩
          rw [hwire, join, String.toList_ofList, ← hmethod, List.nil_append]
        | cons e more =>
          rw [List.cons_append, List.cons.injEq] at hmethod
          rw [← hmethod.1, Case.isLower_of_upper_eq hupper] at hsecond
          cases hsecond
    · cases h
  · rintro ⟨c, hupper, rfl⟩
    rw [key?, join, String.toList_ofList, splitFirst_append hplain]
    simp only [hupper, List.singleton_append, ← hkey, String.ofList_toList]

/-- **The names that ask for a key.** -/
theorem key?_eq_some_iff_mem (h : IsRegular key) :
    key? wire = some key ↔ wire ∈ withLetters letters key := by
  unfold IsRegular at h
  split at h
  · next space first second rest hsplit =>
    obtain ⟨hplain, hrest, hfirst, hsecond⟩ := h
    obtain ⟨hkey, hspace⟩ := eq_append_of_splitFirst hsplit
    have hletters (c : Char) : Case.upper c = [first] ↔ c ∈ letters first := by
      rw [Case.upper_eq_singleton_iff hfirst, letters, List.mem_cons, List.mem_cons]
      simp
    rw [key?_eq_some_iff hkey hspace hplain hrest hfirst hsecond, withLetters, hsplit]
    simp only [hletters, List.mem_map, eq_comm (a := wire)]
  · exact h.elim

end Name

/-! ### The routes -/

/-- The keys that lead somewhere. -/
def keys : List String := Route.directoryKey :: methods.map (·.key)

theorem isRegular_of_mem_keys : ∀ key ∈ keys, Name.IsRegular key := by decide

/-- Of the first letters of the methods only one is the capital of a letter that ASCII does not
have. -/
theorem withLetters_of_mem_keys : ∀ key ∈ keys, Name.withLetters Name.letters key =
    Name.spellings key ++
      if key = "eth.SendTransaction" then ["eth_\u017fendTransaction"] else [] := by
  decide

theorem key?_eq_some_iff_of_mem_keys {wire key : String} (h : key ∈ keys) :
    Name.key? wire = some key ↔ wire ∈ Name.spellings key ∨
      key = "eth.SendTransaction" ∧ wire = "eth_\u017fendTransaction" := by
  rw [Name.key?_eq_some_iff_mem (isRegular_of_mem_keys key h), withLetters_of_mem_keys key h,
    List.mem_append]
  split <;> simp_all

/-- No two methods have one key, and none has the key of the list. -/
theorem method?_key {m : Method} (hm : m ∈ methods) :
    method? m.key = some m ∧ m.key ≠ Route.directoryKey := by
  simp only [methods, List.mem_cons, List.not_mem_nil, or_false] at hm
  rcases hm with rfl | rfl | rfl | rfl | rfl | rfl | rfl | rfl | rfl | rfl | rfl | rfl <;>
    exact ⟨rfl, by decide⟩

namespace Route

variable {wire : String}

theorem ofName_eq_method_iff {m : Method} (hm : m ∈ methods) :
    ofName wire = .method m ↔ Name.key? wire = some m.key := by
  refine ⟨fun h => (mem_of_ofName_eq h).2, fun h => ?_⟩
  obtain ⟨hfind, hne⟩ := method?_key hm
  rw [ofName, h, Option.elim, ofKey, if_neg hne, hfind, Option.elim]

theorem ofName_eq_directory_iff :
    ofName wire = .directory ↔ Name.key? wire = some directoryKey := by
  constructor
  · intro h
    cases hkey : Name.key? wire with
    | none =>
      rw [ofName, hkey] at h
      cases h
    | some key =>
      rw [ofName, hkey, Option.elim, ofKey] at h
      split at h
      · next hdirectory => rw [hdirectory]
      · cases hm : method? key <;> rw [hm] at h <;> cases h
  · intro h
    rw [ofName, h, Option.elim, ofKey, if_pos rfl]

/-- A name that leads nowhere is answered at once. -/
theorem answer_of_forall_key? {r : Request} (h : ∀ key ∈ keys, Name.key? r.method ≠ some key)
    (config : Config) (limit : Nat) :
    ∃ e, r.answer config limit = pure (.failure r.id e) ∧ e.code = -32601 ∧
      e.message = "Method not found" := by
  unfold Request.answer
  split
  · next m hroute =>
    obtain ⟨hm, hkey⟩ := mem_of_ofName_eq hroute
    exact absurd hkey (h m.key (List.mem_cons_of_mem _ (List.mem_map_of_mem hm)))
  · next hroute =>
    exact absurd (ofName_eq_directory_iff.1 hroute) (h directoryKey List.mem_cons_self)
  · exact ⟨_, rfl, rfl, rfl⟩
  · exact ⟨_, rfl, rfl, rfl⟩

end Route

/-- What the request is answered when it goes to the method. -/
def Request.answerBy (m : Method) (config : Config) (limit : Nat) (r : Request) :
    Access Response := do
  let outcome ← (m.run config r.params).run
  return Response.within limit ⟨r.id, outcome.mapError Fault.object⟩

/-- **Names lead where they are spelled to.** A name leads to a method of the table if and only if
it is a spelling of its key, except that sending a transaction may also be written with a long s; to
the list of methods if and only if it is a spelling of that key. A request with any other name asks
the ledger nothing and is answered that there is no such method. -/
theorem route_iff_spelling (wire : String) :
    (∀ m ∈ methods, (Route.ofName wire = .method m ↔ wire ∈ Name.spellings m.key ∨
        m.key = "eth.SendTransaction" ∧ wire = "eth_\u017fendTransaction") ∧
      (Route.ofName wire = .method m → ∀ config limit id params,
        Request.answer config limit ⟨id, wire, params⟩ =
          Request.answerBy m config limit ⟨id, wire, params⟩)) ∧
    ((Route.ofName wire = .directory ↔ wire ∈ Name.spellings Route.directoryKey) ∧
      (Route.ofName wire = .directory → ∀ config limit id params,
        Request.answer config limit ⟨id, wire, params⟩ =
          pure (Response.within limit ⟨id, .ok directory⟩))) ∧
    ((∀ key ∈ keys, wire ∉ Name.spellings key) → wire ≠ "eth_\u017fendTransaction" →
      ∀ config limit id params, ∃ e,
        Request.answer config limit ⟨id, wire, params⟩ = pure (.failure id e) ∧ e.code = -32601 ∧
          e.message = "Method not found") := by
  refine ⟨fun m hm => ⟨?_, fun h config limit id params => ?_⟩,
    ⟨?_, fun h config limit id params => ?_⟩, fun hspelling hlong config limit id params => ?_⟩
  · rw [Route.ofName_eq_method_iff hm,
      key?_eq_some_iff_of_mem_keys (List.mem_cons_of_mem _ (List.mem_map_of_mem hm))]
  · simp only [Request.answer, h]
    rfl
  · rw [Route.ofName_eq_directory_iff, key?_eq_some_iff_of_mem_keys List.mem_cons_self]
    exact or_iff_left fun h => absurd h.1 (by decide)
  · simp only [Request.answer, h]
  · refine Route.answer_of_forall_key? (r := ⟨id, wire, params⟩)
      (fun key hmem hkey => ?_) config limit
    rcases (key?_eq_some_iff_of_mem_keys hmem).1 hkey with h | ⟨-, h⟩
    · exact hspelling key hmem h
    · exact hlong h

theorem route_iff_spelling_samples :
    Request.answer {} 1000 ⟨.null, "eth_getCode", none⟩ =
        Request.answerBy (.unaryAtBlock "eth.GetCode" Json.asText? .str Eth.getCode) {} 1000
          ⟨.null, "eth_getCode", none⟩ ∧
      Request.answer {} 1000 ⟨.null, "rpc_methods", none⟩ =
        pure (Response.within 1000 ⟨.null, .ok directory⟩) ∧
      ∃ e, Request.answer {} 1000 ⟨.null, "eth.GetCode", none⟩ = pure (.failure .null e) ∧
        e.code = -32601 ∧ e.message = "Method not found" := by
  refine ⟨?_, ?_, ?_⟩
  · obtain ⟨hroute, hanswer⟩ := (route_iff_spelling "eth_getCode").1
      (.unaryAtBlock "eth.GetCode" Json.asText? .str Eth.getCode) List.mem_cons_self
    exact hanswer (hroute.2 (.inl (by decide))) {} 1000 .null none
  · obtain ⟨hroute, hanswer⟩ := (route_iff_spelling "rpc_methods").2.1
    exact hanswer (hroute.2 (by decide)) {} 1000 .null none
  · exact (route_iff_spelling "eth.GetCode").2.2 (by decide) (by decide) {} 1000 .null none

/-- A name that is no spelling of any key leads to the method that sends transactions. -/
theorem route_of_long_s :
    (∀ key ∈ keys, "eth_\u017fendTransaction" ∉ Name.spellings key) ∧
      Route.ofName "eth_\u017fendTransaction" =
        .method (.unary "eth.SendTransaction" CallRequest.ofJson? .str Eth.sendTransaction) := by
  refine ⟨by decide, (Route.ofName_eq_method_iff ?_).2 (by decide)⟩
  simp only [methods, List.mem_cons, true_or, or_true]

end LedgerBridge.Rpc
