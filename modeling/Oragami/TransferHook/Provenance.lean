/-
# `Oragami.TransferHook.Provenance` — who put whom on the whitelist

A transfer is checked against entries as they are.  Entries are created, patched
field by field, closed and created again; here each field is traced back to the
call that last wrote it.

`Kept` is the invariant: an entry is the entry of the wallet it names, at that
wallet's address, and since the wallet was last added every field holds what was
last written to it.  A transfer that `transfer_hook` accepts is therefore one that
the authority's calls allow (`transfer_provenance`).
-/
import Oragami.TransferHook.Step

namespace TransferHook

open Anchor Addresses Lts

variable {K : Type}

/-! ## What a call writes -/

/-- What is checked of a wallet besides its expiry. -/
inductive Flag where
  | kycCompliant
  | amlClear
  | travelRuleCompliant

def WhitelistEntry.flag (e : WhitelistEntry K) : Flag → Bool
  | .kycCompliant => e.kycCompliant
  | .amlClear => e.amlClear
  | .travelRuleCompliant => e.travelRuleCompliant

def AddWhitelistParams.flag (p : AddWhitelistParams) : Flag → Bool
  | .kycCompliant => p.kycCompliant
  | .amlClear => p.amlClear
  | .travelRuleCompliant => p.travelRuleCompliant

def UpdateWhitelistParams.flag (p : UpdateWhitelistParams) : Flag → Option Bool
  | .kycCompliant => p.kycCompliant
  | .amlClear => p.amlClear
  | .travelRuleCompliant => p.travelRuleCompliant

/-- What a call sets `allow_transfers` to. -/
def Call.allows : Call K → Option Bool
  | .initializeCompliance _ _ => some true
  | .updateCompliance _ p => p.allowTransfers
  | _ => none

section Writes

variable [DecidableEq K] [Addresses K] [Deployment K] (w : K)

/-- Whether a call puts `w` on the whitelist or takes it off. -/
def Call.lists : Call K → Option Bool
  | .addToWhitelist a _ => if a.wallet = w then some true else none
  | .removeFromWhitelist a => if a.wallet = w then some false else none
  | _ => none

/-- What a call sets a flag of `w` to. -/
def Call.flag (f : Flag) : Call K → Option Bool
  | .addToWhitelist a p => if a.wallet = w then some (p.flag f) else none
  | .updateWhitelist a p => if a.entry = whitelistKey w then p.flag f else none
  | _ => none

/-- The days a call gives `w` from when it is executed. -/
def Call.days : Call K → Option Int64
  | .addToWhitelist a p => if a.wallet = w then some p.expiryDays else none
  | .updateWhitelist a p => if a.entry = whitelistKey w then p.extendExpiryDays else none
  | _ => none

/-- When the days were given, and how many. -/
def Action.term (act : Action K) : Option (Int64 × Int64) :=
  (act.call.days w).map fun days => (act.now, days)

/-- `w` is on the whitelist by the calls of a run: since it was last added it was not removed,
each flag was last set as `flags` says, and the days last given end at `expiry`. -/
def Listed (ts : List (Transition (State K) (Action K))) (flags : Flag → Bool) (expiry : Int) :
    Prop :=
  ∃ before add after, ts = before ++ add :: after ∧ add.label.call.lists w = some true ∧
    (∀ t ∈ after, t.label.call.lists w = none) ∧
    (∀ f, LastWrote (add :: after) (fun t => t.label.call.flag w f) (flags f)) ∧
    ∃ u days, LastWrote (add :: after) (fun t => t.label.term w) (u, days) ∧
      expiry = u.toInt + 86400 * days.toInt

variable {w} {ts : List (Transition (State K) (Action K))} {t : Transition (State K) (Action K)}
  {flags flags' : Flag → Bool} {expiry expiry' : Int}

/-- Added just now. -/
theorem listed_of_add (days : Int64) (hlists : t.label.call.lists w = some true)
    (hflags : ∀ f, t.label.call.flag w f = some (flags f)) (hdays : t.label.call.days w = some days)
    (hexpiry : expiry = t.label.now.toInt + 86400 * days.toInt) : Listed w (ts ++ [t]) flags expiry := by
  refine ⟨ts, t, [], rfl, hlists, ?_, ?_, t.label.now, days, ?_, hexpiry⟩
  · intro u hu
    cases hu
  · intro f
    exact LastWrote.wrote [] (hflags f)
  · refine LastWrote.wrote [] ?_
    rw [Action.term, hdays, Option.map_some]

/-- Added before, and not removed now. -/
theorem Listed.next (h : Listed w ts flags expiry) (hlists : t.label.call.lists w = none)
    (hflags : ∀ f, flags' f = (t.label.call.flag w f).getD (flags f))
    (hgiven : ∀ days, t.label.call.days w = some days →
      expiry' = t.label.now.toInt + 86400 * days.toInt)
    (hkept : t.label.call.days w = none → expiry' = expiry) :
    Listed w (ts ++ [t]) flags' expiry' := by
  obtain ⟨before, add, after, rfl, hadd, hafter, hlast, u, days, hterm, hexpiry⟩ := h
  refine ⟨before, add, after ++ [t], by simp, hadd, ?_, ?_, ?_⟩
  · intro v hv
    rcases List.mem_append.mp hv with hv | hv
    · exact hafter v hv
    · rw [List.mem_singleton.mp hv]
      exact hlists
  · intro f
    rw [hflags f]
    exact (hlast f).next
  · cases hdays : t.label.call.days w with
    | some given =>
        refine ⟨t.label.now, given, LastWrote.wrote (add :: after) ?_, hgiven given hdays⟩
        rw [Action.term, hdays, Option.map_some]
    | none =>
        refine ⟨u, days, hterm.keep ?_, (hkept hdays).trans hexpiry⟩
        rw [Action.term, hdays, Option.map_none]

/-- A call about other wallets. -/
theorem Listed.other (h : Listed w ts flags expiry) (hlists : t.label.call.lists w = none)
    (hflags : ∀ f, t.label.call.flag w f = none) (hdays : t.label.call.days w = none) :
    Listed w (ts ++ [t]) flags expiry := by
  refine h.next hlists ?_ ?_ fun _ => rfl
  · intro f
    rw [hflags f]
    rfl
  · intro days hsome
    cases hdays.symm.trans hsome

end Writes

/-! ## Every entry has its history -/

section Kept

variable [DecidableEq K] [Addresses K] [Deployment K]
  {ts : List (Transition (State K) (Action K))} {st st' : State K} {act : Action K}

/-- Configuration and entries hold what was last written to them. -/
structure Kept (ts : List (Transition (State K) (Action K))) (st : State K) : Prop where
  allows : ∀ config, st.config = some config →
    LastWrote ts (fun t => t.label.call.allows) config.allowTransfers
  entries : ∀ k e, st.entries k = some e →
    k = whitelistKey e.wallet ∧ Listed e.wallet ts e.flag e.expiry.toInt

omit [DecidableEq K] in
/-- An address derived for a wallet is the address of no other. -/
theorem wallet_of_address {w w' : K} {b : UInt8}
    (h : derive programId [.text whitelistSeed, .key w] b = whitelistKey w') : w = w' := by
  obtain ⟨-, hseeds, -⟩ := derive_inj h
  simp only [List.cons.injEq, Seed.key.injEq, and_true, true_and] at hseeds
  exact hseeds

theorem Kept.step_allows (hs : Kept ts st) (h : Step st act st') :
    ∀ config, st'.config = some config →
      LastWrote (ts ++ [⟨st, act, st'⟩]) (fun t => t.label.call.allows) config.allowTransfers := by
  intro config hconfig
  obtain ⟨now, c⟩ := act
  cases c with
  | initializeCompliance a p =>
      obtain ⟨config', hallow, rfl⟩ := initializeCompliance_spec h
      cases hconfig
      rw [hallow]
      exact .wrote _ rfl
  | updateCompliance a p =>
      obtain ⟨config', hstored, -, rfl⟩ := updateCompliance_spec h
      cases hconfig
      exact (hs.allows config' hstored).next
  | initializeExtraAccountMetas a =>
      obtain ⟨metas, rfl⟩ := initializeExtraAccountMetas_spec h
      exact (hs.allows config hconfig).keep rfl
  | addToWhitelist a p =>
      obtain ⟨entry, hadd⟩ := addToWhitelist_spec h
      rw [hadd.state] at hconfig
      exact (hs.allows config hconfig).keep rfl
  | removeFromWhitelist a =>
      obtain ⟨-, entry, -, -, rfl⟩ := removeFromWhitelist_spec h
      exact (hs.allows config hconfig).keep rfl
  | updateWhitelist a p =>
      obtain ⟨entry, entry', hpatch⟩ := updateWhitelist_spec h
      rw [hpatch.state] at hconfig
      exact (hs.allows config hconfig).keep rfl
  | transferHook L a amount =>
      have hok : TransferHook.transferHook now L a amount st = .ok st' := h
      cases transferHook_state hok
      exact (hs.allows config hconfig).keep rfl
  | fallback data =>
      have hok : TransferHook.fallback data st = .ok st' := h
      cases fallback_state hok
      exact (hs.allows config hconfig).keep rfl

omit [Addresses K] [Deployment K] in
/-- The entry at another address is as it was. -/
theorem update_stored {k j : K} {o : Option (WhitelistEntry K)} {e : WhitelistEntry K}
    {entries : K → Option (WhitelistEntry K)} (h : Function.update entries j o k = some e)
    (hne : k ≠ j) : entries k = some e := by
  rwa [Function.update_of_ne hne] at h

theorem Kept.add {now : Int64} {a : AddToWhitelist K} {p : AddWhitelistParams}
    {entry : WhitelistEntry K} (hs : Kept ts st) (h : Added now a p st st' entry) :
    ∀ k e, st'.entries k = some e → k = whitelistKey e.wallet ∧
      Listed e.wallet (ts ++ [⟨st, ⟨now, .addToWhitelist a p⟩, st'⟩]) e.flag e.expiry.toInt := by
  intro k e he
  replace he : Function.update st.entries a.entry (some entry) k = some e := by
    rw [h.state] at he
    exact he
  by_cases hk : k = a.entry
  · rw [hk, Function.update_self] at he
    cases he
    refine ⟨by rw [hk, h.address, h.wallet], ?_⟩
    refine listed_of_add p.expiryDays ?_ ?_ ?_ h.expiry
    · exact if_pos h.wallet.symm
    · intro f
      show (if a.wallet = entry.wallet then some (p.flag f) else none) = some (entry.flag f)
      rw [if_pos h.wallet.symm]
      cases f with
      | kycCompliant => exact congrArg some h.kycCompliant.symm
      | amlClear => exact congrArg some h.amlClear.symm
      | travelRuleCompliant => exact congrArg some h.travelRuleCompliant.symm
    · exact if_pos h.wallet.symm
  · obtain ⟨haddr, hlisted⟩ := hs.entries k e (update_stored he hk)
    have hother : a.wallet ≠ e.wallet := by
      intro heq
      exact hk (by rw [haddr, h.address, heq])
    exact ⟨haddr, hlisted.other (if_neg hother) (fun _ => if_neg hother) (if_neg hother)⟩

theorem Kept.remove {now : Int64} {a : RemoveFromWhitelist K} {entry : WhitelistEntry K}
    (hs : Kept ts st) (hentry : st.entries a.entry = some entry)
    (haddress : a.entry = derive programId [.text whitelistSeed, .key a.wallet] entry.bump) :
    ∀ k e, Function.update st.entries a.entry none k = some e → k = whitelistKey e.wallet ∧
      Listed e.wallet (ts ++ [⟨st, ⟨now, .removeFromWhitelist a⟩, st'⟩]) e.flag e.expiry.toInt := by
  intro k e he
  have hk : k ≠ a.entry := by
    rintro rfl
    rw [Function.update_self] at he
    cases he
  obtain ⟨haddr, hlisted⟩ := hs.entries k e (update_stored he hk)
  -- the entry removed is the one of the wallet passed
  have hwallet := wallet_of_address (haddress.symm.trans (hs.entries _ _ hentry).1)
  have hother : a.wallet ≠ e.wallet := by
    intro heq
    exact hk (by rw [haddr, (hs.entries _ _ hentry).1, ← hwallet, heq])
  exact ⟨haddr, hlisted.other (if_neg hother) (fun _ => rfl) rfl⟩

theorem Kept.patch {now : Int64} {a : UpdateWhitelist K} {p : UpdateWhitelistParams}
    {entry entry' : WhitelistEntry K} (hs : Kept ts st) (h : Patched now a p st st' entry entry') :
    ∀ k e, st'.entries k = some e → k = whitelistKey e.wallet ∧
      Listed e.wallet (ts ++ [⟨st, ⟨now, .updateWhitelist a p⟩, st'⟩]) e.flag e.expiry.toInt := by
  intro k e he
  replace he : Function.update st.entries a.entry (some entry') k = some e := by
    rw [h.state] at he
    exact he
  by_cases hk : k = a.entry
  · rw [hk, Function.update_self] at he
    cases he
    obtain ⟨haddr, hlisted⟩ := hs.entries _ _ h.stored
    rw [← h.wallet] at haddr hlisted
    refine ⟨hk.trans haddr, hlisted.next rfl ?_ ?_ ?_⟩
    · intro f
      show entry'.flag f =
        (if a.entry = whitelistKey entry'.wallet then p.flag f else none).getD (entry.flag f)
      rw [if_pos haddr]
      cases f with
      | kycCompliant => exact h.kycCompliant
      | amlClear => exact h.amlClear
      | travelRuleCompliant => exact h.travelRuleCompliant
    · intro days hdays
      exact h.extended days ((if_pos haddr).symm.trans hdays)
    · intro hdays
      rw [h.kept ((if_pos haddr).symm.trans hdays)]
  · obtain ⟨haddr, hlisted⟩ := hs.entries k e (update_stored he hk)
    have hother : a.entry ≠ whitelistKey e.wallet := fun heq => hk (haddr.trans heq.symm)
    exact ⟨haddr, hlisted.other rfl (fun _ => if_neg hother) (if_neg hother)⟩

theorem Kept.step (hs : Kept ts st) (h : Step st act st') : Kept (ts ++ [⟨st, act, st'⟩]) st' := by
  refine ⟨hs.step_allows h, ?_⟩
  obtain ⟨now, c⟩ := act
  cases c with
  | addToWhitelist a p =>
      obtain ⟨entry, hadd⟩ := addToWhitelist_spec h
      exact hs.add hadd
  | removeFromWhitelist a =>
      obtain ⟨-, entry, hentry, haddr, rfl⟩ := removeFromWhitelist_spec h
      exact hs.remove hentry haddr
  | updateWhitelist a p =>
      obtain ⟨entry, entry', hpatch⟩ := updateWhitelist_spec h
      exact hs.patch hpatch
  | initializeCompliance a p =>
      obtain ⟨config, -, rfl⟩ := initializeCompliance_spec h
      intro k e he
      obtain ⟨haddr, hlisted⟩ := hs.entries k e he
      exact ⟨haddr, hlisted.other rfl (fun _ => rfl) rfl⟩
  | updateCompliance a p =>
      obtain ⟨config, -, -, rfl⟩ := updateCompliance_spec h
      intro k e he
      obtain ⟨haddr, hlisted⟩ := hs.entries k e he
      exact ⟨haddr, hlisted.other rfl (fun _ => rfl) rfl⟩
  | initializeExtraAccountMetas a =>
      obtain ⟨metas, rfl⟩ := initializeExtraAccountMetas_spec h
      intro k e he
      obtain ⟨haddr, hlisted⟩ := hs.entries k e he
      exact ⟨haddr, hlisted.other rfl (fun _ => rfl) rfl⟩
  | transferHook L a amount =>
      have hok : TransferHook.transferHook now L a amount st = .ok st' := h
      cases transferHook_state hok
      intro k e he
      obtain ⟨haddr, hlisted⟩ := hs.entries k e he
      exact ⟨haddr, hlisted.other rfl (fun _ => rfl) rfl⟩
  | fallback data =>
      have hok : TransferHook.fallback data st = .ok st' := h
      cases fallback_state hok
      intro k e he
      obtain ⟨haddr, hlisted⟩ := hs.entries k e he
      exact ⟨haddr, hlisted.other rfl (fun _ => rfl) rfl⟩

theorem Reaches.kept (h : Reaches ts st) : Kept ts st := by
  refine Run.history (I := Kept) ⟨?_, ?_⟩ ?_ h
  · intro config hconfig
    cases hconfig
  · intro k e he
    cases he
  · intro _ _ _ _ _ hs hstep
    exact hs.step hstep

/-- Whoever may transfer is on the whitelist by the calls made. -/
theorem Kept.listed {now : Int64} {w : K} (hs : Kept ts st) (h : Whitelisted now st w) :
    ∃ expiry, Listed w ts (fun _ => true) expiry ∧ now.toInt < expiry := by
  obtain ⟨e, he, hkyc, haml, htravel, hexpiry⟩ := h
  obtain ⟨haddr, hlisted⟩ := hs.entries _ _ he
  have hflags : e.flag = fun _ => true := by
    funext f
    cases f with
    | kycCompliant => exact hkyc
    | amlClear => exact haml
    | travelRuleCompliant => exact htravel
  rw [whitelistKey_inj haddr]
  rw [hflags] at hlisted
  exact ⟨_, hlisted, Int64.lt_iff_toInt_lt.mp hexpiry⟩

/-- A transfer `transfer_hook` accepts is one the authority's calls allow: transfers were last
switched on, and each owner that is not exempt was added, not removed since, last passed on all
three counts, and last given days that are not over. -/
theorem transfer_provenance {now : Int64} {L : Ledger K} {a : Transfer K} {amount : UInt64}
    (h : Reaches ts st) (hok : transferHook now L a amount st = .ok st') :
    (∀ t ∈ ts, ∀ k, t.label.call.authority = some k →
      ∃ config, t.pre.config = some config ∧ config.authority = k) ∧
    LastWrote ts (fun t => t.label.call.allows) true ∧
    ∃ source destination, L.account a.sourceToken = some source ∧
      L.account a.destinationToken = some destination ∧
      (source.owner ≠ a.mint →
        ∃ expiry, Listed source.owner ts (fun _ => true) expiry ∧ now.toInt < expiry) ∧
      (destination.owner ≠ a.mint → destination.owner ≠ Addresses.default →
        ∃ expiry, Listed destination.owner ts (fun _ => true) expiry ∧ now.toInt < expiry) := by
  have hkept := h.kept
  obtain ⟨source, hsource, destination, hdestination⟩ : ∃ source,
      L.account a.sourceToken = some source ∧ ∃ destination,
        L.account a.destinationToken = some destination := by
    simp only [transferHook, bind_eq_ok, orFail_eq_ok] at hok
    obtain ⟨source, hsource, destination, hdestination, -⟩ := hok
    exact ⟨source, hsource, destination, hdestination⟩
  have henforced := transferHook_enforces hsource hdestination hok
  refine ⟨?_, ?_, source, destination, hsource, hdestination, ?_, ?_⟩
  · intro t ht k hk
    exact exec_signed (h.of_mem ht).2 hk
  · obtain ⟨config, hconfig, hallow⟩ := henforced.allowed
    rw [← hallow]
    exact hkept.allows config hconfig
  · intro hne
    exact hkept.listed (henforced.source hne)
  · intro hne hdefault
    exact hkept.listed (henforced.destination hne hdefault)

end Kept

/-! ### Two wallets on the whitelist -/

/-- The state after an instruction, if it succeeds. -/
def Action.apply [DecidableEq K] [Addresses K] [Deployment K] (st : State K) (act : Action K) :
    Option (State K) :=
  match act.call.exec act.now st with
  | .ok st' => some st'
  | .error _ => none

theorem Step.of_apply [DecidableEq K] [Addresses K] [Deployment K] {st st' : State K}
    {act : Action K} (h : act.apply st = some st') : Step st act st' := by
  unfold Action.apply at h
  split at h
  · next hexec =>
      cases h
      exact hexec
  · cases h

/-- A wallet added for a day, compliant in all three respects. -/
def listing (wallet : FreeKey) : Action FreeKey :=
  ⟨0, .addToWhitelist
    { config := complianceKey, entry := whitelistKey wallet, wallet, payer := .num 20,
      authority := .num 20 }
    { kycCompliant := true, amlClear := true, travelRuleCompliant := true, expiryDays := 1 }⟩

/-- The owners of `pair`, added one after the other. -/
def listings : List (Action FreeKey) :=
  [⟨0, .initializeCompliance { config := complianceKey, payer := .num 20 }
      { authority := .num 20, complianceOracle := .num 20 }⟩,
    listing (.num 7), listing (.num 8)]

def betweenPair : Transfer FreeKey :=
  { sourceToken := .num 5, mint := .num 9, destinationToken := .num 6, owner := .num 7,
    extraAccountMetas := extraAccountMetasKey (.num 9), complianceConfig := complianceKey,
    sourceWhitelist := some (whitelistKey (.num 7)),
    destinationWhitelist := some (whitelistKey (.num 8)) }

theorem transfer_provenance_listings :
    ∃ expiry, Listed (.num 7) (play Action.apply State.genesis listings) (fun _ => true) expiry ∧
      10 < expiry := by
  have hrun : Reaches (play Action.apply State.genesis listings)
      (final Action.apply State.genesis listings) := by
    refine play_run (P := fun _ => True) ?_ (fun _ _ => trivial) State.genesis
    intro st act st' hs _
    exact Step.of_apply hs
  obtain ⟨st', hok⟩ := ok_of_isOk (show (transferHook 10 pair betweenPair 1
    (final Action.apply State.genesis listings)).isOk = true from rfl)
  obtain ⟨-, -, source, -, hsource, -, hlisted, -⟩ := transfer_provenance hrun hok
  cases pair_source.symm.trans hsource
  exact hlisted (by decide)

end TransferHook
