/-
# `Oragami.MultiAssetVault.Events` — the books kept by the events alone

The four instructions that use a vault each emit an event, and no other does.  An
observer who was told the NAV an asset was registered at and then reads nothing
but events can keep the vault's figures: `Event.audit` is what it does with one,
and refuses any whose numbers do not follow from the ones before.

Whatever happens, it refuses none, and has the figures the program has
(`events_audited`): every change of a NAV or a total is told, each once, in the
order it was made, and every event quotes the NAV of its time.
-/
import Oragami.MultiAssetVault.Accounting
import Oragami.MultiAssetVault.Scenario

namespace MultiAssetVault

open Anchor Addresses Lts

variable {K : Type}

/-! ## The observer -/

/-- What is told of a vault. -/
structure Figures where
  navPriceBps : Nat
  totalDeposits : Nat
  totalSupply : Nat
deriving DecidableEq

def AssetVault.figures (v : AssetVault K) : Figures where
  navPriceBps := v.navPriceBps.toNat
  totalDeposits := v.totalDeposits.toNat
  totalSupply := v.totalSupply.toNat

/-- The asset an event is about. -/
def Event.assetMint : Event K → K
  | depositMade _ m _ _ _ _ => m
  | redeemMade _ m _ _ _ _ => m
  | navUpdated m _ _ _ => m
  | transferMade m _ _ _ _ _ => m

/-- The figures after an event, where its own numbers are the right ones. -/
def Event.audit (f : Figures) : Event K → Option Figures
  | depositMade _ _ amount shares nav _ =>
      if nav.toNat = f.navPriceBps ∧ shares.toNat = amount.toNat * 10000 / f.navPriceBps then
        some { f with
          totalDeposits := f.totalDeposits + amount.toNat
          totalSupply := f.totalSupply + shares.toNat }
      else none
  | redeemMade _ _ shares amount nav _ =>
      if nav.toNat = f.navPriceBps ∧ shares.toNat ≤ f.totalSupply ∧
          amount.toNat = shares.toNat * f.navPriceBps / 10000 then
        some { f with
          totalDeposits := f.totalDeposits - amount.toNat
          totalSupply := f.totalSupply - shares.toNat }
      else none
  | navUpdated _ old new _ =>
      if old.toNat = f.navPriceBps ∧ 0 < new.toNat ∧
          f.navPriceBps - f.navPriceBps * 5000 / 10000 ≤ new.toNat ∧
          new.toNat ≤ f.navPriceBps + f.navPriceBps * 5000 / 10000 then
        some { f with navPriceBps := new.toNat }
      else none
  | transferMade _ _ _ _ nav _ => if nav.toNat = f.navPriceBps then some f else none

/-- The figures of an asset after a log, if every event about it is right. -/
def audit [DecidableEq K] (assetMint : K) (f : Figures) (log : List (Event K)) : Option Figures :=
  (log.filter (·.assetMint = assetMint)).foldlM Event.audit f

section Audit

variable [DecidableEq K] {m : K} {f f' : Figures} {log : List (Event K)} {e : Event K}

/-- An event about another asset is passed over, -/
theorem audit_other (h : audit m f log = some f') (hne : e.assetMint ≠ m) :
    audit m f (log ++ [e]) = some f' := by
  have hskip : List.filter (fun e => decide (e.assetMint = m)) [e] = [] := by simp [hne]
  rw [audit, List.filter_append, hskip, List.append_nil]
  exact h

/-- and one about this one is taken up. -/
theorem audit_own {f'' : Figures} (h : audit m f log = some f') (hm : e.assetMint = m)
    (he : e.audit f' = some f'') : audit m f (log ++ [e]) = some f'' := by
  have hkeep : List.filter (fun e => decide (e.assetMint = m)) [e] = [e] := by simp [hm]
  rw [audit] at h
  rw [audit, List.filter_append, hkeep, List.foldlM_append, h]
  simp [he]

theorem audit_silent (h : ∀ e ∈ log, e.assetMint ≠ m) : audit m f log = some f := by
  have hnone : log.filter (fun e => decide (e.assetMint = m)) = [] := by
    rw [List.filter_eq_nil_iff]
    intro e he
    simp [h e he]
  rw [audit, hnone]
  rfl

end Audit

/-! ## What an instruction tells -/

variable [DecidableEq K] [Addresses K] [Deployment K] [TokenProgram K]

/-- What is told of a vault, and by which name. -/
def AssetVault.said (v : AssetVault K) : K × Figures := (v.assetMint, v.figures)

/-- An asset is registered; or nothing is told and no figure changes; or one vault is written to and
the event accounts for what was written. -/
inductive Tells (s s' : State K) : Call K → Option (Event K) → Prop
  | opened {a p f} : Registered a p s s' f → Tells s s' (.registerAsset a p) none
  | silent {c} : (∀ k, (s'.vaults k).map (·.said) = (s.vaults k).map (·.said)) → Tells s s' c none
  | told {c e k v v'} : s.vaults k = some v → s'.vaults = Function.update s.vaults k (some v') →
      v'.assetMint = v.assetMint → e.assetMint = v.assetMint →
      e.audit v.figures = some v'.figures → Tells s s' c (some e)

section Tells

variable {now : Int64} {view : View K} {s s' : State K} {ev : Option (Event K)} {c : Call K}

theorem deposit_tells {a : Deposit K} {amount : UInt64}
    (h : deposit now view a amount s = .ok (s', ev)) : Tells s s' (.deposit a amount) ev := by
  simp only [deposit, bind_eq_ok, orFail_eq_ok, loadVault_eq_ok, sharesFor_eq_ok,
    Checked.add_eq_some, pure_eq_ok, Prod.mk.injEq] at h
  obtain ⟨v, ⟨hv, -⟩, _, -, _, -, _, -, _, -, _, -, _, -, _, -, tr, -, h⟩ := h
  obtain ⟨_, -, _, -, _, -, _, -, _, -, cred, -, _, -, rules, -, h⟩ := h
  obtain ⟨shares, ⟨-, -, hshares⟩, _, -, L, -, L', -, deposits, hdeposits, supply, hsupply, rfl,
    rfl⟩ := h
  refine .told hv rfl rfl rfl ?_
  simp only [Event.audit, AssetVault.figures, hshares, and_self, if_true, hdeposits, hsupply]

theorem redeem_tells {a : Redeem K} {shares : UInt64} (h : redeem now a shares s = .ok (s', ev)) :
    Tells s s' (.redeem a shares) ev := by
  simp only [redeem, bind_eq_ok, orFail_eq_ok, loadVault_eq_ok, payoutFor_eq_ok,
    Checked.sub_eq_some, pure_eq_ok, Prod.mk.injEq] at h
  obtain ⟨v, ⟨hv, -⟩, _, -, _, -, _, -, _, -, _, -, _, -, _, -, _, -, _, -, h⟩ := h
  obtain ⟨amount, ⟨-, hamount⟩, _, -, L, -, L', -, supply, hsupply, rfl, rfl⟩ := h
  refine .told hv rfl rfl rfl ?_
  have hle : shares.toNat ≤ v.totalSupply.toNat := by omega
  have hleft : supply.toNat = v.totalSupply.toNat - shares.toNat := by omega
  simp only [Event.audit, AssetVault.figures, hle, hamount, true_and, if_true, hleft,
    Checked.toNat_satSub]

omit [TokenProgram K] in
theorem setNav_tells {a : AdminOnly K} {nav : UInt64} (h : setNav now a nav s = .ok (s', ev)) :
    Tells s s' (.setNav a nav) ev := by
  simp only [setNav, maxChange, bind_eq_ok, orFail_eq_ok, loadVault_eq_ok, require_eq_ok,
    Checked.mul_eq_some, Checked.div_eq_some, pure_eq_ok, Prod.mk.injEq] at h
  obtain ⟨f, -, v, ⟨hv, -⟩, _, -, _, hpos, change, ⟨x, hx, -, hchange⟩, _, ⟨hlow, hhigh⟩, rfl,
    rfl⟩ := h
  refine .told hv rfl rfl rfl ?_
  have hmax : maxNavChangeBps.toNat = 5000 := rfl
  have hden : navBpsDenominator.toNat = 10000 := rfl
  rw [hx, hmax, hden] at hchange
  rw [UInt64.le_iff_toNat_le, Checked.toNat_satSub, hchange] at hlow
  rw [UInt64.le_iff_toNat_le, Checked.toNat_satAdd, hchange] at hhigh
  have hpos' : 0 < nav.toNat := hpos
  have hupper : nav.toNat ≤ v.navPriceBps.toNat + v.navPriceBps.toNat * 5000 / 10000 :=
    hhigh.trans (Nat.min_le_left ..)
  simp only [Event.audit, AssetVault.figures, hpos', hlow, hupper, and_self, if_true]

theorem transferShares_tells {a : TransferShares K} {amount : UInt64}
    (h : transferShares now view a amount s = .ok (s', ev)) :
    Tells s s' (.transferShares a amount) ev := by
  simp only [transferShares, bind_eq_ok, loadVault_eq_ok, pure_eq_ok, Prod.mk.injEq] at h
  obtain ⟨v, ⟨hv, -⟩, _, -, _, -, _, -, _, -, _, -, _, -, _, -, h⟩ := h
  obtain ⟨_, -, _, -, _, -, _, -, _, -, _, -, L, -, rfl, rfl⟩ := h
  have hsame : s.vaults = Function.update s.vaults a.assetVault (some v) := by
    rw [← hv, Function.update_eq_self]
  refine .told hv hsame rfl rfl ?_
  simp only [Event.audit, AssetVault.figures, if_true]

omit [TokenProgram K] in
theorem pauseVault_tells {a : AdminOnly K} {paused : Bool}
    (h : pauseVault a paused s = .ok (s', ev)) : Tells s s' (.pauseVault a paused) ev := by
  simp only [pauseVault, bind_eq_ok, loadVault_eq_ok, pure_eq_ok, Prod.mk.injEq] at h
  obtain ⟨f, -, v, ⟨hv, -⟩, _, -, rfl, rfl⟩ := h
  refine .silent ?_
  intro k
  show (Function.update s.vaults a.assetVault (some { v with paused }) k).map _ = _
  by_cases hk : k = a.assetVault
  · subst hk
    rw [Function.update_self, hv]
    rfl
  · rw [Function.update_of_ne hk]

/-- What a successful instruction tells. -/
theorem exec_tells (h : c.exec now view s = .ok (s', ev)) : Tells s s' c ev := by
  cases c with
  | registerAsset a p =>
      obtain ⟨f, hreg⟩ := registerAsset_spec h
      simp only [Call.exec, registerAsset, bind_eq_ok, pure_eq_ok, Prod.mk.injEq] at h
      obtain ⟨_, -, _, -, _, -, _, -, _, -, _, -, _, -, _, -, _, -, _, -, _, -, _, -, _, -, _, -, -,
        rfl⟩ := h
      exact .opened hreg
  | setNav a nav => exact setNav_tells h
  | pauseVault a paused => exact pauseVault_tells h
  | deposit a amount => exact deposit_tells h
  | redeem a shares => exact redeem_tells h
  | transferShares a amount => exact transferShares_tells h
  | initializeFactory a feeBps =>
      simp only [Call.exec, initializeFactory, bind_eq_ok, pure_eq_ok, Prod.mk.injEq] at h
      obtain ⟨_, -, _, -, rfl, rfl⟩ := h
      exact .silent fun _ => rfl
  | issueCredential a p =>
      simp only [Call.exec, issueCredential, bind_eq_ok, pure_eq_ok, Prod.mk.injEq] at h
      obtain ⟨_, -, _, -, _, -, _, -, _, -, rfl, rfl⟩ := h
      exact .silent fun _ => rfl
  | revokeCredential a =>
      simp only [Call.exec, revokeCredential, bind_eq_ok, pure_eq_ok, Prod.mk.injEq] at h
      obtain ⟨_, -, _, -, _, -, _, -, _, -, rfl, rfl⟩ := h
      exact .silent fun _ => rfl
  | initTravelRule a amount nonceHash =>
      simp only [Call.exec, initTravelRule, bind_eq_ok, pure_eq_ok, Prod.mk.injEq] at h
      obtain ⟨_, -, _, -, _, -, rfl, rfl⟩ := h
      exact .silent fun _ => rfl

end Tells

/-! ## Runs -/

section Runs

variable {ledger : Ledger K} {ts : List (Transition (State K) (Action K))} {s s' : State K}
  {act : Action K} {k : K} {v : AssetVault K}

/-- The event of a transition. -/
def emitted (t : Transition (State K) (Action K)) : Option (Event K) :=
  match t.label with
  | .program now view c => (c.exec now view t.pre).toOption.bind (·.2)
  | .token _ => none

/-- The events of a run, oldest first. -/
def log (ts : List (Transition (State K) (Action K))) : List (Event K) := ts.filterMap emitted

theorem log_snoc (t : Transition (State K) (Action K)) :
    log (ts ++ [t]) = log ts ++ (emitted t).toList := by
  rw [log, List.filterMap_append, ← log]
  cases h : emitted t <;> simp [h]

theorem log_silent (ts : List (Transition (State K) (Action K)))
    {t : Transition (State K) (Action K)} (h : emitted t = none) :
    log (ts ++ [t]) = log ts := by
  rw [log_snoc, h, Option.toList_none, List.append_nil]

/-- A step tells what its instruction tells; a direct call to the token program tells nothing. -/
theorem Step.tells (h : Step s act s') :
    (∃ now view c, act = .program now view c ∧ Tells s s' c (emitted ⟨s, act, s'⟩)) ∨
      (emitted ⟨s, act, s'⟩ = none ∧ s'.vaults = s.vaults) := by
  cases h with
  | @program _ now view c ev _ hexec =>
      refine .inl ⟨now, view, c, rfl, ?_⟩
      have hev : emitted ⟨s, .program now view c, s'⟩ = ev := by
        simp only [emitted, hexec]
        rfl
      rw [hev]
      exact exec_tells hexec
  | token _ _ => exact .inr ⟨rfl, rfl⟩

/-- The registration of the asset of the vault at `k`, at a NAV of `nav`. -/
def Registers (k assetMint : K) (nav : Nat) (t : Transition (State K) (Action K)) : Prop :=
  ∃ now view a p, t.label = .program now view (.registerAsset a p) ∧ a.assetVault = k ∧
    a.assetMint = assetMint ∧ p.navPriceBps.toNat = nav

/-- The events of a run, and what they come to. -/
structure Observed (ts : List (Transition (State K) (Action K))) (s : State K) : Prop where
  known : ∀ e ∈ log ts, s.vaults (assetVaultKey e.assetMint) ≠ none
  audited : ∀ k v, s.vaults k = some v → ∃ nav, (∃ t ∈ ts, Registers k v.assetMint nav t) ∧
    audit v.assetMint ⟨nav, 0, 0⟩ (log ts) = some v.figures

/-- Where nothing is told, nothing is to be learnt. -/
theorem Observed.silent (ho : Observed ts s) (hev : emitted ⟨s, act, s'⟩ = none)
    (hsame : ∀ k, (s'.vaults k).map (·.said) = (s.vaults k).map (·.said)) :
    Observed (ts ++ [⟨s, act, s'⟩]) s' := by
  have hlog := log_silent ts hev
  constructor
  · intro e he hnone
    rw [hlog] at he
    have h := hsame (assetVaultKey e.assetMint)
    rw [hnone, Option.map_none] at h
    exact ho.known e he (Option.map_eq_none_iff.mp h.symm)
  · intro k v' hv'
    have h := hsame k
    rw [hv', Option.map_some] at h
    obtain ⟨v, hv, hsaid⟩ := Option.map_eq_some_iff.mp h.symm
    obtain ⟨hmint, hfigures⟩ := Prod.ext_iff.mp hsaid
    obtain ⟨nav, ⟨t, ht, hreg⟩, haudit⟩ := ho.audited k v hv
    have hmint' : v.assetMint = v'.assetMint := hmint
    have hfigures' : v.figures = v'.figures := hfigures
    rw [hlog, ← hmint', ← hfigures']
    exact ⟨nav, ⟨t, List.mem_append_left _ ht, hreg⟩, haudit⟩

/-- A vault just registered starts with an empty log. -/
theorem Observed.opened {now : Int64} {view : View K} {a : RegisterAsset K}
    {p : RegisterAssetParams} {f : Factory K} (ho : Observed ts s) (hreg : Registered a p s s' f)
    (hev : emitted ⟨s, .program now view (.registerAsset a p), s'⟩ = none) :
    Observed (ts ++ [⟨s, .program now view (.registerAsset a p), s'⟩]) s' := by
  have hlog := log_silent ts hev
  have hvaults : s'.vaults = Function.update s.vaults a.assetVault (some (newVault a p)) :=
    congrArg (fun s : State K => s.vaults) hreg.state
  constructor
  · intro e he hnone
    rw [hlog] at he
    rw [hvaults] at hnone
    exact ho.known e he (update_none hnone).2
  · intro k v hv
    rw [hlog]
    rw [hvaults] at hv
    rcases update_some hv with ⟨rfl, rfl⟩ | ⟨-, hv⟩
    · have hlast : Registers a.assetVault (newVault a p).assetMint p.navPriceBps.toNat
          ⟨s, .program now view (.registerAsset a p), s'⟩ := ⟨now, view, a, p, rfl, rfl, rfl, rfl⟩
      refine ⟨_, ⟨_, List.mem_append_right _ (List.mem_singleton_self _), hlast⟩, audit_silent ?_⟩
      intro e he hmint
      -- an event about the asset would be of a vault that was there before
      have hmint' : e.assetMint = a.assetMint := hmint
      refine ho.known e he ?_
      rw [hmint', ← hreg.assetVault]
      exact hreg.fresh
    · obtain ⟨nav, ⟨t, ht, hr⟩, haudit⟩ := ho.audited k v hv
      exact ⟨nav, ⟨t, List.mem_append_left _ ht, hr⟩, haudit⟩

/-- An event is taken up by the vault it is about, and passed over by all others. -/
theorem Observed.told {e : Event K} {v' : AssetVault K} (hg : Guarded s) (ho : Observed ts s)
    (hev : emitted ⟨s, act, s'⟩ = some e) (hv : s.vaults k = some v)
    (hvaults : s'.vaults = Function.update s.vaults k (some v'))
    (hmint : v'.assetMint = v.assetMint) (hem : e.assetMint = v.assetMint)
    (he : e.audit v.figures = some v'.figures) :
    Observed (ts ++ [⟨s, act, s'⟩]) s' := by
  have hlog : log (ts ++ [⟨s, act, s'⟩]) = log ts ++ [e] := by
    rw [log_snoc, hev, Option.toList_some]
  constructor
  · intro e' he' hnone
    rw [hvaults] at hnone
    obtain ⟨hne, hnone⟩ := update_none hnone
    rw [hlog] at he'
    rcases List.mem_append.mp he' with he' | he'
    · exact ho.known e' he' hnone
    · rw [List.mem_singleton.mp he', hem] at hne
      exact hne (hg k v hv).key.symm
  · intro j w hw
    rw [hlog]
    rw [hvaults] at hw
    rcases update_some hw with ⟨rfl, rfl⟩ | ⟨hj, hw⟩
    · obtain ⟨nav, ⟨t, ht, hreg⟩, haudit⟩ := ho.audited j v hv
      rw [hmint]
      exact ⟨nav, ⟨t, List.mem_append_left _ ht, hreg⟩, audit_own haudit hem he⟩
    · obtain ⟨nav, ⟨t, ht, hreg⟩, haudit⟩ := ho.audited j w hw
      have hother : e.assetMint ≠ w.assetMint := by
        intro heq
        exact hj (by rw [(hg j w hw).key, (hg k v hv).key, ← heq, hem])
      exact ⟨nav, ⟨t, List.mem_append_left _ ht, hreg⟩, audit_other haudit hother⟩

theorem Observed.step (hg : Guarded s) (ho : Observed ts s) (h : Step s act s') :
    Observed (ts ++ [⟨s, act, s'⟩]) s' := by
  rcases h.tells with ⟨now, view, c, rfl, htells⟩ | ⟨hev, hvaults⟩
  · generalize hev : emitted ⟨s, Action.program now view c, s'⟩ = ev at htells
    cases htells with
    | opened hreg => exact ho.opened hreg hev
    | silent hsame => exact ho.silent hev hsame
    | told hv hvaults hmint hem he => exact ho.told hg hev hv hvaults hmint hem he
  · refine ho.silent hev ?_
    intro k
    rw [hvaults]

theorem Reaches.observed (h : Reaches ledger ts s) : Observed ts s := by
  refine Run.history (I := Observed) ⟨?_, ?_⟩ ?_ h
  · intro e he
    cases he
  · intro k v hv
    cases hv
  · intro us s act s' hrun ho hstep
    have hreach : Reaches ledger us s := hrun
    exact ho.step hreach.guarded hstep

/-- The events of any run about an asset, read from the NAV it was registered at and nothing
deposited, are all right, each by the figures the ones before came to; and they come to the figures
of its vault. -/
theorem events_audited (h : Reaches ledger ts s) (hv : s.vaults k = some v) :
    ∃ nav, (∃ t ∈ ts, Registers k v.assetMint nav t) ∧
      audit v.assetMint ⟨nav, 0, 0⟩ (log ts) = some v.figures :=
  h.observed.audited k v hv

/-- The vault over USDC after the nested run, in which the other vault has events of its own. -/
theorem events_audited_nested :
    ∃ v ∈ (final (.genesis Cluster.ledger) Cluster.nested).vaults (assetVaultKey Cluster.usdc),
      ∃ nav, audit v.assetMint ⟨nav, 0, 0⟩
        (log (play (.genesis Cluster.ledger) Cluster.nested)) = some v.figures := by
  obtain ⟨v, hv⟩ := Option.isSome_iff_exists.mp
    (show ((final (.genesis Cluster.ledger) Cluster.nested).vaults
      (assetVaultKey Cluster.usdc)).isSome by decide +kernel)
  obtain ⟨nav, -, haudit⟩ := events_audited (Cluster.reaches_final (by decide)) hv
  exact ⟨v, hv, nav, haudit⟩

end Runs

end MultiAssetVault
