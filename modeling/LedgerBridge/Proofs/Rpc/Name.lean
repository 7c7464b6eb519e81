import LedgerBridge.Proofs.Text.Case
import LedgerBridge.Rpc.Name

/-!
# Wire names and keys

* `IsWireName`, `IsKey`: a namespace without separators, a separator, and a method, which starts
  with a small letter in a wire name and with a capital in a key;
* `Corresponds wire key`: the two have one namespace and one method, apart from its first letter;
* `names_inverse`: a wire name and the key that it asks for correspond, and each is found from the
  other;
* `key?_eq_none_iff`: the names that ask for no key have no separator, or nothing behind the first
  one.
-/

namespace LedgerBridge.Rpc.Name

/-- A namespace holds neither the separator of wire names nor that of keys. -/
def IsSpace (space : List Char) : Prop := '_' ∉ space ∧ '.' ∉ space

instance : DecidablePred IsSpace := fun _ => inferInstanceAs (Decidable (_ ∧ _))

/-- A namespace, a separator, and a method with its first letter apart. -/
def spell (separator : Char) (space : List Char) (first : Char) (rest : List Char) : String :=
  String.ofList (space ++ separator :: first :: rest)

/-- Names as clients write them: the method starts with a small letter of ASCII, and may go on with
any text. -/
def IsWireName (s : String) : Prop :=
  ∃ space first rest, IsSpace space ∧ first.isLower = true ∧ s = spell '_' space first rest

/-- Names as methods are looked up: the method starts with a capital of ASCII. -/
def IsKey (s : String) : Prop :=
  ∃ space first rest, IsSpace space ∧ first.isUpper = true ∧ s = spell '.' space first rest

/-- A wire name and a key that differ in the separator and in the case of one letter. -/
def Corresponds (wire key : String) : Prop :=
  ∃ space first rest, IsSpace space ∧ first.isLower = true ∧ first.toUpper.isUpper = true ∧
    wire = spell '_' space first rest ∧ key = spell '.' space first.toUpper rest

section Names

variable {s : String} {space rest : List Char} {first : Char}

theorem key?_spell (hspace : IsSpace space) (hfirst : first.isLower = true) :
    key? (spell '_' space first rest) = some (spell '.' space first.toUpper rest) := by
  rw [key?, spell, String.toList_ofList, splitFirst_append hspace.1]
  simp only [Case.upper_ascii (Case.lt_of_isLower hfirst), List.singleton_append, spell]

theorem wire_spell (hspace : IsSpace space) (hfirst : first.isUpper = true) :
    wire (spell '.' space first rest) = spell '_' space first.toLower rest := by
  rw [wire, spell, String.toList_ofList, splitFirst_append hspace.2]
  simp only [Case.lower_ascii (Case.lt_of_isUpper hfirst), List.singleton_append, spell]

/-- **A wire name is the one of its key.** -/
theorem exists_key_of_isWireName (h : IsWireName s) :
    ∃ key, Corresponds s key ∧ key? s = some key ∧ wire key = s := by
  obtain ⟨space, first, rest, hspace, hfirst, rfl⟩ := h
  have hcapital := Case.isUpper_toUpper hfirst
  refine ⟨_, ⟨space, first, rest, hspace, hfirst, hcapital, rfl, rfl⟩, key?_spell hspace hfirst, ?_⟩
  rw [wire_spell hspace hcapital, Case.toLower_toUpper hfirst]

/-- **A key is the one of its wire name.** -/
theorem key?_wire_of_isKey (h : IsKey s) : Corresponds (wire s) s ∧ key? (wire s) = some s := by
  obtain ⟨space, first, rest, hspace, hfirst, rfl⟩ := h
  have hsmall := Case.isLower_toLower hfirst
  have hback := Case.toUpper_toLower hfirst
  rw [wire_spell hspace hfirst, key?_spell hspace hsmall, hback]
  refine ⟨⟨space, first.toLower, rest, hspace, hsmall, ?_, rfl, ?_⟩, rfl⟩
  · rw [hback, hfirst]
  · rw [hback]

theorem splitFirst_eq_none_iff {separator : Char} {cs : List Char} :
    splitFirst separator cs = none ↔ separator ∉ cs := by
  induction cs with
  | nil => simp [splitFirst]
  | cons c cs ih =>
    by_cases hc : c = separator
    · simp [splitFirst, hc]
    · simp [splitFirst, hc, ih, Ne.symm hc]

/-- **The names that ask for no key** have no separator, or nothing behind the first one. -/
theorem key?_eq_none_iff : key? s = none ↔
    '_' ∉ s.toList ∨ ∃ space, '_' ∉ space ∧ s.toList = space ++ ['_'] := by
  unfold key?
  cases hsplit : splitFirst '_' s.toList with
  | none =>
    rw [splitFirst_eq_none_iff] at hsplit
    simp [hsplit]
  | some p =>
    obtain ⟨space, rest⟩ := p
    obtain ⟨hs, hspace⟩ := eq_append_of_splitFirst hsplit
    have hmem : '_' ∈ s.toList := by simp [hs]
    cases rest with
    | nil => simpa [hmem] using ⟨space, hspace, hs⟩
    | cons first rest =>
      simp only [reduceCtorEq, hmem, not_true_eq_false, false_or, false_iff, not_exists, not_and]
      intro space' hspace' hs'
      -- the first separator cuts the name in one way only
      rw [hs', splitFirst_append hspace'] at hsplit
      simp at hsplit

end Names

/-- **Wire names and keys are inverse to each other.** A wire name asks for the key that corresponds
to it, and is the wire name of that key; a key is the one of its wire name. So different wire names
have different keys. A name has no key exactly if it has no separator, or nothing behind the first
one. -/
theorem names_inverse :
    (∀ s, IsWireName s → ∃ key, Corresponds s key ∧ key? s = some key ∧ wire key = s) ∧
    (∀ key, IsKey key → Corresponds (wire key) key ∧ key? (wire key) = some key) ∧
    (∀ s t, IsWireName s → IsWireName t → key? s = key? t → s = t) ∧
    ∀ s, key? s = none ↔
      '_' ∉ s.toList ∨ ∃ space, '_' ∉ space ∧ s.toList = space ++ ['_'] := by
  refine ⟨fun s h => exists_key_of_isWireName h, fun key h => key?_wire_of_isKey h, ?_,
    fun s => key?_eq_none_iff⟩
  intro s t hs ht heq
  obtain ⟨key, -, hkey, hwire⟩ := exists_key_of_isWireName hs
  obtain ⟨key', -, hkey', hwire'⟩ := exists_key_of_isWireName ht
  rw [hkey, hkey', Option.some.injEq] at heq
  rw [← hwire, ← hwire', heq]

/-- Separators in the method change nothing. -/
theorem names_inverse_separators :
    (IsWireName "eth_get.logs_V2" ∧ key? "eth_get.logs_V2" = some "eth.Get.logs_V2" ∧
      wire "eth.Get.logs_V2" = "eth_get.logs_V2") ∧
    (IsKey "eth.Get_logs.v2" ∧ key? (wire "eth.Get_logs.v2") = some "eth.Get_logs.v2") ∧
    (IsWireName "eth_getLogs" ∧ key? "eth_getLogs" ≠ key? "eth_get.logs_V2") ∧
    key? "eth_" = none := by
  have hname : IsWireName "eth_get.logs_V2" :=
    ⟨"eth".toList, 'g', "et.logs_V2".toList, by decide, rfl, rfl⟩
  have hother : IsWireName "eth_getLogs" :=
    ⟨"eth".toList, 'g', "etLogs".toList, by decide, rfl, rfl⟩
  have hkey : IsKey "eth.Get_logs.v2" :=
    ⟨"eth".toList, 'G', "et_logs.v2".toList, by decide, rfl, rfl⟩
  obtain ⟨hwire, hback, hinjective, hnone⟩ := names_inverse
  obtain ⟨key, -, hfound, hwritten⟩ := hwire _ hname
  obtain rfl : "eth.Get.logs_V2" = key := by
    rw [show key? "eth_get.logs_V2" = some "eth.Get.logs_V2" by decide] at hfound
    exact Option.some.inj hfound
  refine ⟨⟨hname, hfound, hwritten⟩, ⟨hkey, (hback _ hkey).2⟩, ⟨hother, ?_⟩, ?_⟩
  · intro heq
    exact absurd (hinjective _ _ hother hname heq) (by decide)
  · exact (hnone "eth_").2 (.inr ⟨"eth".toList, by decide, rfl⟩)

end LedgerBridge.Rpc.Name
