/-
# `Oragami.OragamiVault.Mandate` — the cap on the allocation and the liquidity band

The mandate caps the part of the deposits that may go to the strategy.  Only
`update_config` looks at it, and only where the caller passes the mandate
account, which is optional; `initialize_vault_mandate` does not look at the
allocation in force.  Whether the cap holds is up to the two callers
(`cap_kept`).

`assert_liquidity_allocation` asks that the USDC held be at most the deposits
less the strategy's part.  No instruction sends USDC to the strategy and custody
never falls below the deposits, so under an allocation the assertion cannot
succeed (`band_unsatisfiable`).
-/
import Oragami.OragamiVault.Configuration
import Oragami.OragamiVault.Solvency

namespace OragamiVault

open Anchor Addresses Lts

variable {K : Type}

/-! ## The cap -/

/-- Allocation within the mandate, where there is one. -/
def State.Capped (s : State K) : Prop :=
  ∀ vs m, s.vaultState = some vs → s.vaultMandate = some m →
    vs.usxAllocationBps ≤ m.maxUsxAllocationBps

/-- What a call has to keep to for the cap to hold: a mandate starts out above the
allocation in force, and a new allocation under a mandate comes with the mandate account
or stays within the cap anyway. -/
def Call.KeepsCap (s : State K) : Call K → Prop
  | .initializeVaultMandate _ p =>
      ∀ vs, s.vaultState = some vs → vs.usxAllocationBps ≤ p.maxUsxAllocationBps
  | .updateConfig a p => ∀ b m, p.usxAllocationBps = some b → s.vaultMandate = some m →
      a.vaultMandate = none → b ≤ m.maxUsxAllocationBps
  | _ => True

def Action.KeepsCap (s : State K) : Action K → Prop
  | .program _ c => c.KeepsCap s
  | .token _ => True

theorem State.capped_iff {s : State K} : s.Capped ↔ ∀ c l, s.settings = some c →
    s.limits = some l → c.usxAllocationBps ≤ l.maxUsxAllocationBps := by
  constructor
  · intro hs c l hc hl
    obtain ⟨vs, hvs, rfl⟩ := Option.map_eq_some_iff.mp hc
    obtain ⟨m, hm, rfl⟩ := Option.map_eq_some_iff.mp hl
    exact hs vs m hvs hm
  · intro hs vs m hvs hm
    exact hs _ _ (settings_of_some hvs) (limits_of_some hm)

/-- There is a vault under every mandate, whose buffer and cap are parts of one whole. -/
def State.Mandated (s : State K) : Prop :=
  ∀ l, s.limits = some l →
    s.settings ≠ none ∧ l.minLiquidityBufferBps.toNat + l.maxUsxAllocationBps.toNat ≤ 10000

section Cap

variable [DecidableEq K] [Addresses K] [Deployment K] [TokenProgram K] {ledger : Ledger K}
  {ts : List (Transition (State K) (Action K))} {s s' : State K}

theorem exec_mandated {now : Int64} {c : Call K} {ev : Option (Event K)} (hs : s.Mandated)
    (h : c.exec now s = .ok (s', ev)) : s'.Mandated := by
  have hc := exec_configured h
  unfold State.Mandated
  rw [hc.settings, hc.limits]
  cases c with
  | initializeVault a p =>
      intro l hl
      exact ⟨Option.some_ne_none _, (hs l hl).2⟩
  | initializeVaultMandate a p =>
      obtain ⟨⟨vs, hvs⟩, hsum, -⟩ := initializeVaultMandate_spec h
      rintro l ⟨⟩
      refine ⟨?_, hsum⟩
      show s.settings ≠ none
      rw [settings_of_some hvs]
      exact Option.some_ne_none _
  | setMandateLiquidityEnforcement a active =>
      intro l hl
      obtain ⟨l', hl', rfl⟩ := Option.map_eq_some_iff.mp hl
      exact hs l' hl'
  | setPause a paused =>
      intro l hl
      refine ⟨?_, (hs l hl).2⟩
      exact fun hnone => (hs l hl).1 (Option.map_eq_none_iff.mp hnone)
  | updateConfig a p =>
      intro l hl
      refine ⟨?_, (hs l hl).2⟩
      exact fun hnone => (hs l hl).1 (Option.map_eq_none_iff.mp hnone)
  | _ => exact hs

theorem Reaches.mandated (h : Reaches ledger ts s) : s.Mandated := by
  refine h.invariant ?_ ?_
  · intro l hl
    cases hl
  · intro s act s' hs hstep
    cases hstep with
    | program _ hexec => exact exec_mandated hs hexec
    | token _ _ => exact hs

theorem exec_capped_iff {now : Int64} {c : Call K} {ev : Option (Event K)} (hm : s.Mandated)
    (hs : s.Capped) (h : c.exec now s = .ok (s', ev)) : s'.Capped ↔ c.KeepsCap s := by
  have hc := exec_configured h
  rw [State.capped_iff] at hs ⊢
  rw [hc.settings, hc.limits]
  cases c with
  | initializeVault a p =>
      -- there is no mandate before there is a vault
      refine iff_of_true ?_ trivial
      intro c l _ hl
      obtain ⟨hfresh, -⟩ := initializeVault_settings h
      refine absurd ?_ (hm l hl).1
      rw [State.settings, hfresh, Option.map_none]
  | initializeVaultMandate a p =>
      constructor
      · intro hcap vs hvs
        exact hcap _ _ (settings_of_some hvs) rfl
      · rintro hkeeps c l hc ⟨⟩
        obtain ⟨vs, hvs, rfl⟩ := Option.map_eq_some_iff.mp hc
        exact hkeeps vs hvs
  | setMandateLiquidityEnforcement a active =>
      refine iff_of_true ?_ trivial
      intro c l hc hl
      obtain ⟨l', hl', rfl⟩ := Option.map_eq_some_iff.mp hl
      exact hs c l' hc hl'
  | setPause a paused =>
      refine iff_of_true ?_ trivial
      intro c l hc hl
      obtain ⟨c', hc', rfl⟩ := Option.map_eq_some_iff.mp hc
      exact hs c' l hc' hl
  | updateConfig a p =>
      obtain ⟨vs, hvs, -, hchecks⟩ := updateConfig_spec h
      constructor
      · intro hcap b m hb hm _
        have hupdate : (vs.settings.update p).usxAllocationBps = b := by
          simp only [Settings.update, hb, Option.getD_some]
        rw [← hupdate]
        refine hcap (vs.settings.update p) m.limits ?_ (limits_of_some hm)
        rw [settings_of_some hvs]
        rfl
      · intro hkeeps c l hc hl
        obtain ⟨c', hc', rfl⟩ := Option.map_eq_some_iff.mp hc
        obtain ⟨m, hm, rfl⟩ := Option.map_eq_some_iff.mp hl
        simp only [Settings.update]
        cases hb : p.usxAllocationBps with
        | none => exact hs c' _ hc' (limits_of_some hm)
        | some b =>
            cases hpassed : a.vaultMandate with
            | none => exact hkeeps b m hb hm hpassed
            | some k =>
                obtain ⟨m', hm', hle⟩ := (hchecks b hb).2 k hpassed
                cases hm.symm.trans hm'
                exact hle
  | _ => exact iff_of_true hs trivial

theorem step_capped_iff {act : Action K} (hm : s.Mandated) (hs : s.Capped) (h : Step s act s') :
    s'.Capped ↔ act.KeepsCap s := by
  cases h with
  | program _ hexec => exact exec_capped_iff hm hs hexec
  | token _ _ => exact iff_of_true hs trivial

/-- Under the cap the ends of the liquidity band are in order, whatever the deposits. -/
theorem band_of_capped {minBps maxBps alloc : UInt16} (hsum : minBps.toNat + maxBps.toNat ≤ 10000)
    (hcap : alloc ≤ maxBps) (totalDeposits : UInt64) :
    totalDeposits.toNat * minBps.toNat / 10000 ≤
      totalDeposits.toNat * (10000 - alloc.toNat) / 10000 := by
  rw [UInt16.le_iff_toNat_le] at hcap
  refine Nat.div_le_div_right (Nat.mul_le_mul_left _ ?_)
  omega

/-- The allocation is within the mandate, and the liquidity band not empty, in every state of
a run exactly when every mandate in it starts out above the allocation and every new
allocation under one is within its cap or comes with its account. -/
theorem cap_kept (h : Reaches ledger ts s) :
    (∀ t ∈ ts, ∀ vs m, t.post.vaultState = some vs → t.post.vaultMandate = some m →
        vs.usxAllocationBps ≤ m.maxUsxAllocationBps ∧ ∀ totalDeposits : UInt64,
          totalDeposits.toNat * m.minLiquidityBufferBps.toNat / 10000 ≤
            totalDeposits.toNat * (10000 - vs.usxAllocationBps.toNat) / 10000) ↔
      ∀ t ∈ ts, t.label.KeepsCap t.pre := by
  have hiff : (∀ t ∈ ts, t.post.Capped) ↔ ∀ t ∈ ts, t.label.KeepsCap t.pre := by
    refine (Run.kept_iff (I := State.Capped) ?_ ?_ h).1
    · intro vs m hvs
      cases hvs
    · intro _ _ _ _ hrun hs hstep
      exact step_capped_iff (Reaches.mandated hrun) hs hstep
  rw [← hiff]
  constructor
  · intro hband t ht vs m hvs hm
    exact (hband t ht vs m hvs hm).1
  · intro hcapped t ht vs m hvs hm
    have hcap := hcapped t ht vs m hvs hm
    have hsum : m.minLiquidityBufferBps.toNat + m.maxUsxAllocationBps.toNat ≤ 10000 := by
      obtain ⟨⟨before, hbefore⟩, hstep⟩ := h.of_mem ht
      have hpost : Reaches ledger (before ++ [t]) t.post := .snoc hbefore hstep
      exact (hpost.mandated _ (limits_of_some hm)).2
    exact ⟨hcap, band_of_capped hsum hcap⟩

end Cap

/-! ### A mandate of full liquidity -/

namespace Cluster

/-- All deposits are to stay liquid. -/
def liquidMandate : Action FreeKey :=
  .program 0 (.initializeVaultMandate
    { vaultState := vaultStateKey, vaultMandate := vaultMandateKey, authority := admin }
    { minLiquidityBufferBps := 10000, maxUsxAllocationBps := 0, minCollateralRatioBps := 10000,
      allowedAssetTypes := .replicate 8 0, leverageAllowed := false,
      liquidityEnforcementActive := true })

/-- Half of the deposits for the strategy. -/
def allocateHalf : Action FreeKey :=
  .program 0 (configure none { unset with usxAllocationBps := some 5000 })

def openState : State FreeKey := final (.genesis ledger) [opening]

def liquidState : State FreeKey := final openState [liquidMandate]

end Cluster

open Cluster in
theorem cap_kept_liquid : ∃ vs m, liquidState.vaultState = some vs ∧
    liquidState.vaultMandate = some m ∧ vs.usxAllocationBps ≤ m.maxUsxAllocationBps := by
  have hrun : Reaches ledger
      [⟨.genesis ledger, opening, openState⟩, ⟨openState, liquidMandate, liquidState⟩] liquidState :=
    reaches_final (show [opening, liquidMandate].all _ = true by decide)
  have hkeeps : ∀ t ∈ [⟨.genesis ledger, opening, openState⟩,
      (⟨openState, liquidMandate, liquidState⟩ : Transition (State FreeKey) (Action FreeKey))],
      t.label.KeepsCap t.pre := by
    intro t ht
    simp only [List.mem_cons, List.not_mem_nil, or_false] at ht
    rcases ht with rfl | rfl
    · trivial
    · intro vs hvs
      have halloc : openState.vaultState.map (·.usxAllocationBps) = some 0 := rfl
      rw [show openState.vaultState = some vs from hvs, Option.map_some] at halloc
      rw [Option.some.inj halloc]
      decide
  obtain ⟨vs, hvs⟩ := Option.isSome_iff_exists.mp
    (show liquidState.vaultState.isSome = true from rfl)
  obtain ⟨m, hm⟩ := Option.isSome_iff_exists.mp
    (show liquidState.vaultMandate.isSome = true from rfl)
  have hkept := (cap_kept hrun).mpr hkeeps _ (List.mem_cons_of_mem _ List.mem_cons_self)
  exact ⟨vs, m, hvs, hm, (hkept vs m hvs hm).1⟩

open Cluster in
/-- The mandate account left out, half of the deposits go to the strategy against the
mandate, and no amount of USDC is in the band. -/
theorem cap_exceeded :
    ∃ ts s vs m, Reaches ledger ts s ∧ s.vaultState = some vs ∧ s.vaultMandate = some m ∧
      m.maxUsxAllocationBps < vs.usxAllocationBps ∧ ∃ totalDeposits : UInt64,
        totalDeposits.toNat * (10000 - vs.usxAllocationBps.toNat) / 10000 <
          totalDeposits.toNat * m.minLiquidityBufferBps.toNat / 10000 := by
  obtain ⟨vs, hvs, halloc⟩ := Option.map_eq_some_iff.mp
    (show (final (.genesis ledger) [opening, liquidMandate, allocateHalf]).vaultState.map
      (·.usxAllocationBps) = some 5000 from rfl)
  obtain ⟨m, hm, hlimits⟩ := Option.map_eq_some_iff.mp
    (show (final (.genesis ledger) [opening, liquidMandate, allocateHalf]).vaultMandate.map
      (fun m => (m.minLiquidityBufferBps, m.maxUsxAllocationBps)) = some (10000, 0) from rfl)
  obtain ⟨hmin, hmax⟩ := Prod.mk.inj hlimits
  refine ⟨_, _, vs, m, reaches_final (by decide), hvs, hm, ?_, 2, ?_⟩
  · rw [halloc, hmax]
    decide
  · rw [halloc, hmin]
    decide

/-! ## The band -/

section Band

/-- A part of a positive whole is less than it. -/
theorem part_lt {n alloc : Nat} (hn : 0 < n) (halloc : 1 ≤ alloc) :
    n * (10000 - alloc) / 10000 < n := by
  rw [Nat.div_lt_iff_lt_mul (by decide)]
  exact Nat.mul_lt_mul_of_pos_left (by omega) hn

variable [DecidableEq K] [Addresses K] [Deployment K] [TokenProgram K] {ledger : Ledger K}
  {ts : List (Transition (State K) (Action K))} {s : State K} {vs : VaultState K}
  {m : VaultMandate K}

/-- With the band enforced, an allocation set and something deposited, the vault always holds
more USDC than the band admits, and the assertion fails for whoever makes it. -/
theorem band_unsatisfiable (h : Reaches ledger ts s) (hvs : s.vaultState = some vs)
    (hm : s.vaultMandate = some m) (hactive : m.liquidityEnforcementActive = true)
    (halloc : 1 ≤ vs.usxAllocationBps) (hdeposits : 0 < vs.totalDeposits) :
    vs.totalDeposits.toNat * (10000 - vs.usxAllocationBps.toNat) / 10000 <
        s.ledger.amount vs.vaultTokenAccount ∧
      ∀ a, ∃ e, assertLiquidityAllocation a s = .error e := by
  have hidle : vs.totalDeposits.toNat * (10000 - vs.usxAllocationBps.toNat) / 10000 <
      s.ledger.amount vs.vaultTokenAccount := by
    rw [UInt16.le_iff_toNat_le] at halloc
    rw [UInt64.lt_iff_toNat_lt] at hdeposits
    rw [(h.guarded vs hvs).vaultTokenAccount]
    exact Nat.lt_of_lt_of_le (part_lt hdeposits halloc) (h.covered hvs)
  refine ⟨hidle, ?_⟩
  intro a
  cases hassert : assertLiquidityAllocation a s with
  | error e => exact ⟨e, rfl⟩
  | ok out =>
      obtain ⟨vs', m', acc, hvs', hm', hacc, hband⟩ := assertLiquidityAllocation_eq_ok hassert
      cases hvs.symm.trans hvs'
      cases hm.symm.trans hm'
      have hle := hband hactive
      rw [Ledger.amount, hacc] at hidle
      exact absurd hle (Nat.not_le.mpr hidle)

end Band

namespace Cluster

/-- A thousand deposited, half of it for the strategy, and the band enforced. -/
def banded : List (Action FreeKey) :=
  [opening, liquidMandate, credential, openCvault, allocateHalf, deposit 1000]

def bandAccounts : AssertLiquidityAllocation FreeKey :=
  { vaultState := vaultStateKey, vaultMandate := vaultMandateKey, vaultTokenAccount := vaultTokenKey }

end Cluster

open Cluster in
theorem band_unsatisfiable_half :
    ∃ e, assertLiquidityAllocation bandAccounts (final (.genesis ledger) banded) = .error e := by
  obtain ⟨vs, hvs, hfields⟩ := Option.map_eq_some_iff.mp
    (show (final (.genesis ledger) banded).vaultState.map
      (fun vs => (vs.usxAllocationBps, vs.totalDeposits)) = some (5000, 1000) from rfl)
  obtain ⟨halloc, hdeposits⟩ := Prod.mk.inj hfields
  obtain ⟨m, hm, hactive⟩ := Option.map_eq_some_iff.mp
    (show (final (.genesis ledger) banded).vaultMandate.map (·.liquidityEnforcementActive) =
      some true from rfl)
  refine (band_unsatisfiable (reaches_final (show banded.all _ = true by decide)) hvs hm hactive ?_ ?_).2 _
  · rw [halloc]
    decide
  · rw [hdeposits]
    decide

end OragamiVault
