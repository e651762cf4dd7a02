/-
# `Oragami.OragamiVault.Configuration` — who writes what besides the books

Three instructions write the settings of the vault, two its mandate, two its
strategy accounts, one the reserve attestation; every other one leaves them as
they were.  `Call.settings`, `Call.limits`, `Call.strategy` and `Call.attestation`
say what each leaves, `exec_written` that it does.

`initialize_vault` checks that the deposit limits are in order and not that the
allocation is a share; `update_config` checks the allocation it sets and not the
limits.  Neither checks what the other does, and a run keeps the settings sound
exactly when its callers do (`settings_sound`).
-/
import Oragami.OragamiVault.Scenario

namespace OragamiVault

open Anchor Addresses Lts

variable {K : Type}

/-! ## Settings -/

/-- What the authority sets. -/
structure Settings where
  paused : Bool
  minDeposit : UInt64
  maxDeposit : UInt64
  usxAllocationBps : UInt16
  apyBps : UInt16
  secondaryMarketEnabled : Bool

def VaultState.settings (vs : VaultState K) : Settings where
  paused := vs.paused
  minDeposit := vs.minDeposit
  maxDeposit := vs.maxDeposit
  usxAllocationBps := vs.usxAllocationBps
  apyBps := vs.apyBps
  secondaryMarketEnabled := vs.secondaryMarketEnabled

def State.settings (s : State K) : Option Settings := s.vaultState.map (·.settings)

theorem settings_of_some {s : State K} {vs : VaultState K} (hvs : s.vaultState = some vs) :
    s.settings = some vs.settings := by
  rw [State.settings, hvs, Option.map_some]

def InitializeVaultParams.settings (p : InitializeVaultParams K) : Settings where
  paused := false
  minDeposit := p.minDeposit
  maxDeposit := p.maxDeposit
  usxAllocationBps := p.usxAllocationBps
  apyBps := p.apyBps
  secondaryMarketEnabled := p.secondaryMarketEnabled

def Settings.update (c : Settings) (p : UpdateConfigParams) : Settings where
  paused := c.paused
  minDeposit := p.minDeposit.getD c.minDeposit
  maxDeposit := p.maxDeposit.getD c.maxDeposit
  usxAllocationBps := p.usxAllocationBps.getD c.usxAllocationBps
  apyBps := p.apyBps.getD c.apyBps
  secondaryMarketEnabled := p.secondaryMarketEnabled.getD c.secondaryMarketEnabled

/-- The settings an instruction leaves. -/
def Call.settings (before : Option Settings) : Call K → Option Settings
  | .initializeVault _ p => some p.settings
  | .setPause _ paused => before.map fun c => { c with paused }
  | .updateConfig _ p => before.map (·.update p)
  | _ => before

/-- The limits of a mandate, and whether the liquidity band is enforced. -/
structure Limits where
  minLiquidityBufferBps : UInt16
  maxUsxAllocationBps : UInt16
  liquidityEnforcementActive : Bool

def VaultMandate.limits (m : VaultMandate K) : Limits where
  minLiquidityBufferBps := m.minLiquidityBufferBps
  maxUsxAllocationBps := m.maxUsxAllocationBps
  liquidityEnforcementActive := m.liquidityEnforcementActive

def State.limits (s : State K) : Option Limits := s.vaultMandate.map (·.limits)

theorem limits_of_some {s : State K} {m : VaultMandate K} (hm : s.vaultMandate = some m) :
    s.limits = some m.limits := by
  rw [State.limits, hm, Option.map_some]

def InitializeVaultMandateParams.limits (p : InitializeVaultMandateParams) : Limits where
  minLiquidityBufferBps := p.minLiquidityBufferBps
  maxUsxAllocationBps := p.maxUsxAllocationBps
  liquidityEnforcementActive := p.liquidityEnforcementActive

/-- The limits an instruction leaves. -/
def Call.limits (before : Option Limits) : Call K → Option Limits
  | .initializeVaultMandate _ p => some p.limits
  | .setMandateLiquidityEnforcement _ active =>
      before.map fun m => { m with liquidityEnforcementActive := active }
  | _ => before

/-- Settings and limits after an instruction are what it leaves of those before. -/
structure Configured (s : State K) (c : Call K) (s' : State K) : Prop where
  settings : s'.settings = c.settings s.settings
  limits : s'.limits = c.limits s.limits

/-! ## Strategy accounts and attestation -/

/-- What `register_usx_accounts` stores. -/
def VaultState.strategy (vs : VaultState K) : RegisterUsxAccountsParams K where
  usxMint := vs.usxMint
  eusxMint := vs.eusxMint
  vaultUsxAccount := vs.vaultUsxAccount
  vaultEusxAccount := vs.vaultEusxAccount

def State.strategy (s : State K) : Option (RegisterUsxAccountsParams K) :=
  s.vaultState.map (·.strategy)

theorem strategy_of_some {s : State K} {vs : VaultState K} (hvs : s.vaultState = some vs) :
    s.strategy = some vs.strategy := by
  rw [State.strategy, hvs, Option.map_some]

/-- No strategy account yet. -/
def unregistered [Addresses K] : RegisterUsxAccountsParams K where
  usxMint := Addresses.default
  eusxMint := Addresses.default
  vaultUsxAccount := Addresses.default
  vaultEusxAccount := Addresses.default

/-- The strategy accounts an instruction leaves. -/
def Call.strategy [Addresses K] (before : Option (RegisterUsxAccountsParams K)) :
    Call K → Option (RegisterUsxAccountsParams K)
  | .initializeVault _ _ => some unregistered
  | .registerUsxAccounts _ p => some p
  | _ => before

/-- The attestation an instruction leaves. -/
def Call.attestation [Addresses K] [Deployment K] (now : Int64)
    (before : Option (ReserveAttestation K)) : Call K → Option (ReserveAttestation K)
  | .postReserveAttestation a p => some (a.attestation now p)
  | _ => before

section Exec

variable [DecidableEq K] [Addresses K] [Deployment K] [TokenProgram K] {now : Int64}
  {s s' : State K} {ev : Option (Event K)} {c : Call K}

/-- What an instruction leaves of all four. -/
structure Written (now : Int64) (s : State K) (c : Call K) (s' : State K) : Prop
    extends Configured s c s' where
  strategy : s'.strategy = c.strategy s.strategy
  attestation : s'.reserveAttestation = c.attestation now s.reserveAttestation

/-- `initialize_vault` runs once, and checks the order of the deposit limits. -/
theorem initializeVault_settings {a : InitializeVault K} {p : InitializeVaultParams K}
    (h : initializeVault now a p s = .ok (s', ev)) :
    s.vaultState = none ∧ p.minDeposit ≤ p.maxDeposit ∧ s'.settings = some p.settings ∧
      s'.limits = s.limits := by
  simp only [initializeVault, bind_eq_ok, init_eq_ok, require_eq_ok, pure_eq_ok,
    Prod.mk.injEq] at h
  obtain ⟨_, _, _, _, _, _, _, hfresh, _, _, _, _, _, _, _, _, _, hle, rfl, -⟩ := h
  exact ⟨hfresh, hle, rfl, rfl⟩

theorem initializeVault_strategy {a : InitializeVault K} {p : InitializeVaultParams K}
    (h : initializeVault now a p s = .ok (s', ev)) :
    s'.strategy = some unregistered ∧ s'.reserveAttestation = s.reserveAttestation := by
  simp only [initializeVault, bind_eq_ok, pure_eq_ok, Prod.mk.injEq] at h
  obtain ⟨_, _, _, _, _, _, _, _, _, _, _, _, _, _, _, _, _, _, rfl, -⟩ := h
  exact ⟨rfl, rfl⟩

theorem exec_written (h : c.exec now s = .ok (s', ev)) : Written now s c s' := by
  cases c with
  | initializeVault a p =>
      obtain ⟨-, -, hsettings, hlimits⟩ := initializeVault_settings h
      obtain ⟨hstrategy, hatt⟩ := initializeVault_strategy h
      exact ⟨⟨hsettings, hlimits⟩, hstrategy, hatt⟩
  | initializeRwaAssetRegistry a p =>
      obtain ⟨reg, -, rfl⟩ := initializeRwaAssetRegistry_spec h
      exact ⟨⟨rfl, rfl⟩, rfl, rfl⟩
  | initializeVaultMandate a p =>
      obtain ⟨-, -, m, rfl, hmin, hmax, hactive⟩ := initializeVaultMandate_spec h
      refine ⟨⟨rfl, ?_⟩, rfl, rfl⟩
      rw [Call.limits, limits_of_some rfl, VaultMandate.limits, hmin, hmax, hactive]
      rfl
  | updateRwaAssetRegistry a p =>
      obtain ⟨reg, -, rfl⟩ := updateRwaAssetRegistry_spec h
      exact ⟨⟨rfl, rfl⟩, rfl, rfl⟩
  | setMandateLiquidityEnforcement a active =>
      obtain ⟨m, hm, rfl⟩ := setMandateLiquidityEnforcement_spec h
      refine ⟨⟨rfl, ?_⟩, rfl, rfl⟩
      rw [limits_of_some hm]
      rfl
  | setNav a nav =>
      obtain ⟨vs, registry, hvs, rfl⟩ := setNav_spec h
      exact ⟨⟨(settings_of_some hvs).symm, rfl⟩, (strategy_of_some hvs).symm, rfl⟩
  | issueCredential a p =>
      obtain ⟨vs, cred, hw, -⟩ := issueCredential_spec h
      rw [hw.state]
      exact ⟨⟨rfl, rfl⟩, rfl, rfl⟩
  | revokeCredential a =>
      obtain ⟨vs, cred, hw, -⟩ := revokeCredential_spec h
      rw [hw.state]
      exact ⟨⟨rfl, rfl⟩, rfl, rfl⟩
  | deposit a amount =>
      obtain ⟨vs, cred, shares, L, hd⟩ := deposit_spec h
      obtain ⟨-, hvs, -⟩ := loadVaultState_eq_ok.mp hd.vaultState
      obtain ⟨deposits, supply, -, -, hs'⟩ := hd.totals
      obtain ⟨-, -, hmandate, hatt⟩ := hd.rest
      refine ⟨⟨?_, ?_⟩, ?_, hatt⟩
      · exact (settings_of_some hs').trans (settings_of_some hvs).symm
      · show s'.vaultMandate.map _ = s.vaultMandate.map _
        rw [hmandate]
      · exact (strategy_of_some hs').trans (strategy_of_some hvs).symm
  | initTravelRule a p =>
      obtain ⟨-, -, -, tr, -, -, -, rfl⟩ := initTravelRule_spec h
      exact ⟨⟨rfl, rfl⟩, rfl, rfl⟩
  | redeem a x =>
      obtain ⟨vs, usdc, supply, L, L', hr, hs⟩ := redeem_eq_ok.mp h
      obtain ⟨-, hvs, -⟩ := loadVaultState_eq_ok.mp hr.vaultState
      cases hs
      exact ⟨⟨(settings_of_some hvs).symm, rfl⟩, (strategy_of_some hvs).symm, rfl⟩
  | convertToTradeable a x =>
      obtain ⟨vs, L, L', hc, hs⟩ := convertToTradeable_eq_ok.mp h
      cases hs
      exact ⟨⟨rfl, rfl⟩, rfl, rfl⟩
  | redeemTradeable a x mode =>
      cases mode with
      | true =>
          obtain ⟨vs, L, L', hu, hm, hs⟩ := rewrap_eq_ok.mp h
          cases hs
          exact ⟨⟨rfl, rfl⟩, rfl, rfl⟩
      | false =>
          obtain ⟨vs, usdc, deposits, supply, L, L', hu, hp, hs⟩ := payOut_eq_ok.mp h
          obtain ⟨-, hvs, -⟩ := loadVaultState_eq_ok.mp hu.vaultState
          cases hs
          exact ⟨⟨(settings_of_some hvs).symm, rfl⟩, (strategy_of_some hvs).symm, rfl⟩
  | processYield a =>
      obtain ⟨-, vs, pending, claim, hp⟩ := processYield_spec h
      rw [hp.state]
      have hvs := hp.vaultState
      exact ⟨⟨(settings_of_some hvs).symm, rfl⟩, (strategy_of_some hvs).symm, rfl⟩
  | registerUsxAccounts a p =>
      obtain ⟨vs, hvs, rfl⟩ := registerUsxAccounts_spec h
      exact ⟨⟨(settings_of_some hvs).symm, rfl⟩, rfl, rfl⟩
  | distributeYield a =>
      obtain ⟨vs, hvs, ⟨-, rfl, -⟩ | ⟨-, rfl, -⟩⟩ := distributeYield_spec h
      · exact ⟨⟨rfl, rfl⟩, rfl, rfl⟩
      · exact ⟨⟨(settings_of_some hvs).symm, rfl⟩, (strategy_of_some hvs).symm, rfl⟩
  | setPause a paused =>
      obtain ⟨vs, hvs, rfl⟩ := setPause_spec h
      refine ⟨⟨?_, rfl⟩, (strategy_of_some hvs).symm, rfl⟩
      rw [settings_of_some hvs]
      rfl
  | updateConfig a p =>
      obtain ⟨vs, hvs, rfl, -⟩ := updateConfig_spec h
      refine ⟨⟨?_, rfl⟩, (strategy_of_some hvs).symm, rfl⟩
      rw [settings_of_some hvs]
      rfl
  | syncYield a =>
      obtain ⟨vs, hvs, rfl⟩ := syncYield_spec h
      exact ⟨⟨(settings_of_some hvs).symm, rfl⟩, (strategy_of_some hvs).symm, rfl⟩
  | postReserveAttestation a p =>
      obtain ⟨vs, reg, -, -, -, -, rfl⟩ := postReserveAttestation_posted h
      exact ⟨⟨rfl, rfl⟩, rfl, rfl⟩
  | verifyProofOfReserve a =>
      cases verifyProofOfReserve_state h
      exact ⟨⟨rfl, rfl⟩, rfl, rfl⟩
  | assertLiquidityAllocation a =>
      cases assertLiquidityAllocation_state h
      exact ⟨⟨rfl, rfl⟩, rfl, rfl⟩

theorem exec_configured (h : c.exec now s = .ok (s', ev)) : Configured s c s' :=
  (exec_written h).toConfigured

end Exec

/-! ## Sound settings -/

/-- The deposit limits are in order and the allocation is a share. -/
def Settings.Sound (c : Settings) : Prop :=
  c.minDeposit ≤ c.maxDeposit ∧ c.usxAllocationBps ≤ 10000

/-- What a call has to keep to for the settings it writes to be sound: the half its own
checks leave out. -/
def Call.KeepsSound (before : Option Settings) : Call K → Prop
  | .initializeVault _ p => p.usxAllocationBps ≤ 10000
  | .updateConfig _ p => ∀ c, before = some c →
      p.minDeposit.getD c.minDeposit ≤ p.maxDeposit.getD c.maxDeposit
  | _ => True

def Action.KeepsSound (before : Option Settings) : Action K → Prop
  | .program _ c => c.KeepsSound before
  | .token _ => True

def State.Sound (s : State K) : Prop := ∀ vs, s.vaultState = some vs → vs.settings.Sound

theorem State.sound_iff {s : State K} : s.Sound ↔ ∀ c, s.settings = some c → c.Sound := by
  constructor
  · intro hs c hc
    obtain ⟨vs, hvs, rfl⟩ := Option.map_eq_some_iff.mp hc
    exact hs vs hvs
  · intro hs vs hvs
    exact hs _ (settings_of_some hvs)

section Sound

variable [DecidableEq K] [Addresses K] [Deployment K] [TokenProgram K] {ledger : Ledger K}
  {ts : List (Transition (State K) (Action K))} {s s' : State K}

theorem exec_sound_iff {now : Int64} {c : Call K} {ev : Option (Event K)} (hs : s.Sound)
    (h : c.exec now s = .ok (s', ev)) : s'.Sound ↔ c.KeepsSound s.settings := by
  rw [State.sound_iff] at hs ⊢
  rw [(exec_configured h).settings]
  cases c with
  | initializeVault a p =>
      obtain ⟨-, hle, -, -⟩ := initializeVault_settings h
      constructor
      · intro hsound
        exact (hsound _ rfl).2
      · rintro hshare c ⟨⟩
        exact ⟨hle, hshare⟩
  | setPause a paused =>
      refine iff_of_true ?_ trivial
      intro c hc
      obtain ⟨c', hc', rfl⟩ := Option.map_eq_some_iff.mp hc
      exact hs c' hc'
  | updateConfig a p =>
      obtain ⟨vs, -, -, hchecks⟩ := updateConfig_spec h
      constructor
      · intro hsound c hc
        have hupdated := hsound (c.update p) (by rw [hc]; rfl)
        exact hupdated.1
      · intro hkeeps c hc
        obtain ⟨c', hc', rfl⟩ := Option.map_eq_some_iff.mp hc
        refine ⟨hkeeps c' hc', ?_⟩
        simp only [Settings.update]
        cases hb : p.usxAllocationBps with
        | none => exact (hs c' hc').2
        | some b => exact (hchecks b hb).1
  | _ => exact iff_of_true hs trivial

theorem step_sound_iff {act : Action K} (hs : s.Sound) (h : Step s act s') :
    s'.Sound ↔ act.KeepsSound s.settings := by
  cases h with
  | program _ hexec => exact exec_sound_iff hs hexec
  | token _ _ => exact iff_of_true hs trivial

/-- The settings are sound in every state of a run exactly when every `initialize_vault` in it
sets an allocation that is a share and every `update_config` leaves the deposit limits in
order. -/
theorem settings_sound (h : Reaches ledger ts s) :
    (∀ t ∈ ts, t.post.Sound) ↔ ∀ t ∈ ts, t.label.KeepsSound t.pre.settings := by
  refine (Run.kept_iff (I := State.Sound) ?_ ?_ h).1
  · intro vs hvs
    cases hvs
  · intro _ _ _ _ _ hs hstep
    exact step_sound_iff hs hstep

end Sound

/-! ### Two runs -/

namespace Cluster

/-- New deposit limits, both at once. -/
def limits : List (Action FreeKey) :=
  [opening, .program 0 (configure none { unset with minDeposit := some 5, maxDeposit := some 10 })]

/-- A minimum raised past the maximum. -/
def overLimit : List (Action FreeKey) :=
  [.program 0 (.initializeVault
    { vaultState := vaultStateKey, cvaultMint := cvaultMintKey, tokenAccount := vaultTokenKey,
      depositMint := usdc, payer := admin, tokenProgram := TokenProgram.id }
    { treasury := admin, authority := admin, operator := admin, minDeposit := 1, maxDeposit := 10,
      usxAllocationBps := 20000, apyBps := 0, cvaultTradeMint := tradeMint,
      secondaryMarketEnabled := true }),
    .program 0 (configure none { unset with minDeposit := some 11 })]

end Cluster

open Cluster in
theorem settings_sound_limits : ∃ ts, Reaches ledger ts (final (.genesis ledger) limits) ∧
    ∀ t ∈ ts, t.post.Sound := by
  have h : Reaches ledger _ (final (.genesis ledger) limits) := reaches_final (by decide)
  refine ⟨_, h, (settings_sound h).mpr ?_⟩
  intro t ht
  have hlabel := label_mem_of_play ht
  simp only [limits, List.mem_cons, List.not_mem_nil, or_false] at hlabel
  rcases hlabel with h | h <;> rw [h]
  · exact (by decide : (0 : UInt16) ≤ 10000)
  · intro c _
    exact (by decide : (5 : UInt64) ≤ 10)

open Cluster in
/-- Deposit limits no amount meets, and twice the deposits in the strategy. -/
theorem settings_unsound :
    ∃ ts s vs, Reaches ledger ts s ∧ s.vaultState = some vs ∧ vs.maxDeposit < vs.minDeposit ∧
      10000 < vs.usxAllocationBps := by
  obtain ⟨vs, hvs, hfields⟩ := Option.map_eq_some_iff.mp
    (show (final (.genesis ledger) overLimit).vaultState.map
      (fun vs => (vs.minDeposit, vs.maxDeposit, vs.usxAllocationBps)) = some (11, 10, 20000) from rfl)
  simp only [Prod.mk.injEq] at hfields
  obtain ⟨hmin, hmax, halloc⟩ := hfields
  refine ⟨_, _, vs, reaches_final (show overLimit.all _ = true by decide), hvs, ?_, ?_⟩
  · rw [hmin, hmax]
    decide
  · rw [halloc]
    decide

end OragamiVault
