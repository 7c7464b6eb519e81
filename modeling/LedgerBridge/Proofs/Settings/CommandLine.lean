import LedgerBridge.Proofs.Except
import LedgerBridge.Settings.CommandLine

/-!
# What a command line can set

* `Settings.IsRead s`: the URL, the timeout and the origins of the settings were read from texts;
* `CommandLine.isRead_of_parse`: those of a command line were, however it is written. Each argument
  keeps this, and so do all of them one after the other.
-/

namespace LedgerBridge.Settings

/-- The settings that are kept in another form than they are written in were read from texts. -/
structure IsRead (s : Settings) : Prop where
  url : ∀ u, s.ledger.url = some u → ∃ t, Url.parse? t = some u
  timeout : ∃ t, Duration.parse t = .ok s.ledger.timeout
  cors : ∃ t, Cors.parse t = s.server.cors

theorem isRead_default : IsRead {} where
  url := by simp
  timeout := ⟨"30s", by decide⟩
  cors := ⟨"*", by decide⟩

namespace CommandLine

/-! ### Arguments -/

/-- The setter leaves settings that were read. -/
def Keeps (set : Setter) : Prop :=
  ∀ value c c', set value c = .ok c' → IsRead c.settings → IsRead c'.settings

theorem keeps_setter {α : Type} {fault : UsageError} {read : String → Option α}
    {put : α → CommandLine → CommandLine}
    (h : ∀ value a c, read value = some a → IsRead c.settings → IsRead (put a c).settings) :
    Keeps (setter fault read put) := by
  intro value c c' hset hc
  unfold setter at hset
  cases hread : read value with
  | none =>
    rw [hread] at hset
    cases hset
  | some a =>
    rw [hread, Except.ok.injEq] at hset
    exact hset ▸ h value a c hread hc

theorem keeps_onLedger {α : Type} {fault : UsageError} {read : String → Option α}
    {put : α → LedgerPart → LedgerPart}
    (h : ∀ a p, (put a p).url = p.url ∧ (put a p).timeout = p.timeout) :
    Keeps (setter fault read (onLedger put)) := by
  refine keeps_setter fun _ a c _ hc => ?_
  obtain ⟨hurl, htimeout⟩ := h a c.settings.ledger
  refine ⟨fun u hu => hc.url u ?_, ?_, hc.cors⟩
  · exact hurl.symm.trans hu
  · exact hc.timeout.imp fun t ht => ht.trans (congrArg _ htimeout.symm)

theorem keeps_onServer {α : Type} {fault : UsageError} {read : String → Option α}
    {put : α → ServerPart → ServerPart} (h : ∀ a p, (put a p).cors = p.cors) :
    Keeps (setter fault read (onServer put)) := by
  refine keeps_setter fun _ a c _ hc => ⟨hc.url, hc.timeout, ?_⟩
  exact hc.cors.imp fun t ht => ht.trans (h a c.settings.server).symm

/-- **Every argument keeps settings read.** -/
theorem keeps_arguments : ∀ a ∈ arguments, Keeps a.set := by
  simp only [arguments, List.forall_mem_cons, List.not_mem_nil, false_imp_iff, implies_true,
    and_true]
  refine ⟨?url, ?channel, ?chaincode, ?user, ?org, ?timeout, ?isExternal, ?port, ?maxRequestSize,
    ?maxResponseSize, ?maxConnections, ?cors, ?networkId, ?logFormat, ?configFile⟩
  case url =>
    refine keeps_setter fun value u c hread hc => ⟨fun v hv => ?_, hc.timeout, hc.cors⟩
    exact ⟨value, hread.trans hv⟩
  case timeout =>
    refine keeps_setter fun value d c hread hc => ⟨hc.url, ⟨value, ?_⟩, hc.cors⟩
    exact toOption_eq_some.1 hread
  case cors =>
    refine keeps_setter fun value v c hread hc => ⟨hc.url, hc.timeout, ⟨value, ?_⟩⟩
    exact Option.some.inj hread
  case logFormat => exact keeps_setter fun _ _ _ _ hc => ⟨hc.url, hc.timeout, hc.cors⟩
  case configFile => exact keeps_setter fun _ _ _ _ hc => hc
  case channel | chaincode | user | org => exact keeps_onLedger fun _ _ => ⟨rfl, rfl⟩
  case isExternal | port | maxRequestSize | maxResponseSize | maxConnections | networkId =>
    exact keeps_onServer fun _ _ => rfl

/-! ### Reading -/

namespace Reading

/-- What was set so far was read, and the argument in front is one of the table. -/
structure IsSound (st : Reading) : Prop where
  isRead : IsRead st.result.settings
  pending : ∀ a value, st.pending = some (a, value) → a ∈ arguments

theorem isSound_give {st st' : Reading} {a : Argument} {value : String} (hst : st.IsSound)
    (ha : a ∈ arguments) (h : st.give a value = .ok st') : st'.IsSound := by
  unfold give at h
  split_ifs at h
  obtain ⟨result, hset, hresult⟩ := bind_eq_ok.1 h
  rw [← Except.ok.inj hresult]
  exact ⟨keeps_arguments a ha value st.result result hset hst.isRead, by simp⟩

theorem isSound_settle {st st' : Reading} (hst : st.IsSound) (h : st.settle = .ok st') :
    st'.IsSound := by
  unfold settle at h
  split at h
  · exact Except.ok.inj h ▸ hst
  · cases h
  · next a value hpending =>
    have hnone : ({ st with pending := none } : Reading).IsSound := ⟨hst.isRead, by simp⟩
    exact isSound_give hnone (hst.pending a _ hpending) h

theorem isSound_giveEnv {env : List (String × String)} {st st' : Reading} {a : Argument}
    (hst : st.IsSound) (ha : a ∈ arguments) (h : st.giveEnv env a = .ok st') : st'.IsSound := by
  unfold giveEnv at h
  split_ifs at h
  · exact Except.ok.inj h ▸ hst
  · split at h
    · exact isSound_give hst ha h
    · exact Except.ok.inj h ▸ hst

end Reading

section Read

variable {st st' : Reading}

theorem isSound_readLong {cs : List Char} (hst : st.IsSound) (h : readLong st cs = .ok st') :
    st'.IsSound := by
  unfold readLong at h
  generalize splitLong cs = long at h
  obtain ⟨name, value⟩ := long
  dsimp -zeta only at h
  extract_lets asked at h
  -- the help and the version are asked for in vain
  have hasked (e : UsageError) : asked e ≠ .ok st' := by
    intro hok
    simp only [asked] at hok
    split_ifs at hok
    obtain ⟨_, -, herror⟩ := bind_eq_ok.1 hok
    cases herror
  by_cases hhelp : name = "help"
  · rw [if_pos hhelp] at h
    exact absurd h (hasked _)
  by_cases hversion : name = "version"
  · rw [if_neg hhelp, if_pos hversion] at h
    exact absurd h (hasked _)
  rw [if_neg hhelp, if_neg hversion] at h
  cases hfind : arguments.find? (·.name == name) with
  | none =>
    rw [hfind] at h
    cases h
  | some a =>
    have ha := List.mem_of_find?_eq_some hfind
    simp only [hfind] at h
    split at h
    · split_ifs at h
      obtain ⟨settled, hsettle, hgive⟩ := bind_eq_ok.1 h
      exact Reading.isSound_give (Reading.isSound_settle hst hsettle) ha hgive
    · split at h
      · obtain ⟨settled, hsettle, hgive⟩ := bind_eq_ok.1 h
        exact Reading.isSound_give (Reading.isSound_settle hst hsettle) ha hgive
      · obtain ⟨settled, hsettle, hpending⟩ := bind_eq_ok.1 h
        rw [← Except.ok.inj hpending]
        refine ⟨(Reading.isSound_settle hst hsettle).isRead, fun b value hb => ?_⟩
        rw [Option.some.injEq, Prod.mk.injEq] at hb
        exact hb.1 ▸ ha

theorem readShort_ne_ok {cs : List Char} : readShort st cs ≠ .ok st' := by
  intro h
  unfold readShort at h
  split at h
  · obtain ⟨_, -, herror⟩ := bind_eq_ok.1 h
    cases herror
  · obtain ⟨_, -, herror⟩ := bind_eq_ok.1 h
    cases herror
  · cases h

theorem isSound_readValue {value : String} (hst : st.IsSound) (h : readValue st value = .ok st') :
    st'.IsSound := by
  unfold readValue at h
  split at h
  · next a hpending =>
    rw [← Except.ok.inj h]
    refine ⟨hst.isRead, fun b v hb => ?_⟩
    rw [Option.some.injEq, Prod.mk.injEq] at hb
    exact hb.1 ▸ hst.pending a _ hpending
  · cases h

theorem isSound_readAll {args : List String} (hst : st.IsSound) (h : readAll st args = .ok st') :
    st'.IsSound := by
  induction args generalizing st with
  | nil => exact Reading.isSound_settle hst h
  | cons s args ih =>
    unfold readAll at h
    split at h
    · split_ifs at h
      exact Reading.isSound_settle hst h
    · obtain ⟨next, hnext, hrest⟩ := bind_eq_ok.1 h
      exact ih (isSound_readLong hst hnext) hrest
    · obtain ⟨next, hnext, -⟩ := bind_eq_ok.1 h
      exact absurd hnext readShort_ne_ok
    · obtain ⟨next, hnext, hrest⟩ := bind_eq_ok.1 h
      exact ih (isSound_readValue hst hnext) hrest

theorem isSound_giveAllEnv {env : List (String × String)} {as : List Argument}
    (has : ∀ a ∈ as, a ∈ arguments) (hst : st.IsSound)
    (h : as.foldlM (·.giveEnv env ·) st = .ok st') : st'.IsSound := by
  induction as generalizing st with
  | nil => exact Except.ok.inj h ▸ hst
  | cons a as ih =>
    obtain ⟨ha, has⟩ := List.forall_mem_cons.1 has
    rw [List.foldlM_cons] at h
    obtain ⟨next, hnext, hrest⟩ := bind_eq_ok.1 h
    exact ih has (Reading.isSound_giveEnv hst ha hnext) hrest

end Read

/-- **What a command line sets was read.** -/
theorem isRead_of_parse {args : List String} {env : List (String × String)} {c : CommandLine}
    (h : parse args env = .ok c) : IsRead c.settings := by
  unfold parse at h
  obtain ⟨st, hargs, h⟩ := bind_eq_ok.1 h
  obtain ⟨st', henv, h⟩ := bind_eq_ok.1 h
  have hst : st.IsSound := isSound_readAll ⟨isRead_default, by simp⟩ hargs
  have hst' : st'.IsSound := isSound_giveAllEnv (fun _ ha => ha) hst henv
  split_ifs at h
  · cases h
  · exact Except.ok.inj h ▸ hst'.isRead

end CommandLine

end LedgerBridge.Settings
