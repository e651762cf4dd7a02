/-
# `Oragami.OragamiVault.History` — a cluster with its history

Services see the cluster between their own calls, and others act on it meanwhile.
`Timeline` is its state with every transition that led there.  A list of actions can be
executed on it whatever it holds: what is refused leaves no trace.
-/
import Oragami.OragamiVault.Accounting
import Oragami.OragamiVault.Yield

namespace OragamiVault

open Lts

variable {K : Type}

/-- A state of the cluster and what was executed, oldest first. -/
structure Timeline (K : Type) where
  state : State K
  history : List (Transition (State K) (Action K))

/-- The NAV on the chain, where there is a vault. -/
def Timeline.nav (c : Timeline K) : Option UInt64 := c.state.vaultState.map (·.navPriceBps)

theorem Timeline.nav_eq_some {c : Timeline K} {n : UInt64} :
    c.nav = some n ↔ ∃ vs, c.state.vaultState = some vs ∧ vs.navPriceBps = n :=
  Option.map_eq_some_iff

def Action.isSetNav : Action K → Bool
  | .program _ (.setNav _ _) => true
  | _ => false

variable [DecidableEq K] [Addresses K] [Deployment K] [TokenProgram K]

def Timeline.execute (c : Timeline K) (act : Action K) : Timeline K :=
  match act.apply c.state with
  | some s => ⟨s, c.history ++ [⟨c.state, act, s⟩]⟩
  | none => c

def Timeline.executeAll (c : Timeline K) (acts : List (Action K)) : Timeline K :=
  acts.foldl Timeline.execute c

variable {c : Timeline K} {act : Action K} {acts : List (Action K)}

theorem execute_some {s : State K} (h : act.apply c.state = some s) :
    c.execute act = ⟨s, c.history ++ [⟨c.state, act, s⟩]⟩ := by
  simp only [Timeline.execute, h]

theorem execute_none (h : act.apply c.state = none) : c.execute act = c := by
  simp only [Timeline.execute, h]

/-- A property kept by every action executed is kept by a list of them. -/
theorem executeAll_kept {P : Timeline K → Prop} {G : Action K → Prop}
    (hstep : ∀ {c act}, P c → G act → P (c.execute act)) (hc : P c) (hacts : ∀ act ∈ acts, G act) :
    P (c.executeAll acts) := by
  induction acts generalizing c with
  | nil => exact hc
  | cons act acts ih =>
      refine ih (hstep hc (hacts act List.mem_cons_self)) ?_
      intro act' hact'
      exact hacts act' (List.mem_cons_of_mem act hact')

/-- Nothing but `set_nav` moves the NAV of a vault. -/
theorem apply_nav {s s' : State K} {vs : VaultState K} (h : act.apply s = some s')
    (hvs : s.vaultState = some vs) (hact : act.isSetNav = false) :
    ∃ vs', s'.vaultState = some vs' ∧ vs'.navPriceBps = vs.navPriceBps := by
  cases act with
  | token call =>
      obtain ⟨L, -, rfl⟩ := Option.map_eq_some_iff.mp h
      exact ⟨vs, hvs, rfl⟩
  | program now call =>
      simp only [Action.apply] at h
      split at h
      · next s₁ ev hexec =>
          cases h
          have heffect := exec_effect hexec
          obtain ⟨vs', hvs'⟩ := effect_vaultState heffect hvs
          refine ⟨vs', hvs', ?_⟩
          rcases effect_price heffect with hprice | ⟨a, nav, _, rfl, -⟩
          · rw [State.book_of hvs, State.book_of hvs'] at hprice
            exact UInt64.toNat_inj.mp hprice
          · exact absurd hact (by simp [Action.isSetNav])
      · cases h

theorem execute_nav {n : UInt64} (h : c.nav = some n) (hact : act.isSetNav = false) :
    (c.execute act).nav = some n := by
  cases happly : act.apply c.state with
  | none => rwa [execute_none happly]
  | some s =>
      obtain ⟨vs, hvs, rfl⟩ := Timeline.nav_eq_some.mp h
      obtain ⟨vs', hvs', hnav⟩ := apply_nav happly hvs hact
      rw [execute_some happly]
      exact Timeline.nav_eq_some.mpr ⟨vs', hvs', hnav⟩

/-! ## Yield -/

/-- The instructions that move pending yield or the time of the last claim. -/
def Action.isYield : Action K → Bool
  | .program _ (.processYield _) => true
  | .program _ (.distributeYield _) => true
  | .program _ (.syncYield _) => true
  | _ => false

omit [DecidableEq K] [Addresses K] [Deployment K] [TokenProgram K] in
theorem accrual_congr {s s' : State K} {vs vs' : VaultState K} (hvs : s.vaultState = some vs)
    (hvs' : s'.vaultState = some vs') (hpending : vs'.pendingYield = vs.pendingYield)
    (hclaim : vs'.lastYieldClaim = vs.lastYieldClaim) : s'.accrual = s.accrual := by
  rw [accrual_of_some hvs, accrual_of_some hvs', hpending, hclaim]

/-- No other instruction touches the yield of a vault. -/
theorem exec_accrual {now : Int64} {call : Call K} {s s' : State K} {vs : VaultState K}
    {ev : Option (Event K)} (h : call.exec now s = .ok (s', ev)) (hvs : s.vaultState = some vs)
    (hcall : (Action.program now call).isYield = false) : s'.accrual = s.accrual := by
  cases call with
  | initializeVault a p =>
      obtain ⟨vs', hi⟩ := initializeVault_spec h
      cases hvs.symm.trans hi.fresh
  | initializeRwaAssetRegistry a p =>
      obtain ⟨reg, -, rfl⟩ := initializeRwaAssetRegistry_spec h
      rfl
  | initializeVaultMandate a p =>
      obtain ⟨-, -, m, rfl, -⟩ := initializeVaultMandate_spec h
      rfl
  | updateRwaAssetRegistry a p =>
      obtain ⟨reg, -, rfl⟩ := updateRwaAssetRegistry_spec h
      rfl
  | setMandateLiquidityEnforcement a active =>
      obtain ⟨m, -, rfl⟩ := setMandateLiquidityEnforcement_spec h
      rfl
  | setNav a nav =>
      obtain ⟨vs', registry, hvs', rfl⟩ := setNav_spec h
      exact accrual_congr hvs' rfl rfl rfl
  | issueCredential a p =>
      obtain ⟨_, cred, hw, -⟩ := issueCredential_spec h
      rw [hw.state]
      rfl
  | revokeCredential a =>
      obtain ⟨_, cred, hw, -⟩ := revokeCredential_spec h
      rw [hw.state]
      rfl
  | deposit a amount =>
      obtain ⟨_, cred, shares, L, hd⟩ := deposit_spec h
      obtain ⟨-, hvs', -⟩ := loadVaultState_eq_ok.mp hd.vaultState
      obtain ⟨deposits, supply, -, -, hs'⟩ := hd.totals
      exact accrual_congr hvs' hs' rfl rfl
  | initTravelRule a p =>
      obtain ⟨-, -, -, tr, -, -, -, rfl⟩ := initTravelRule_spec h
      rfl
  | redeem a x =>
      obtain ⟨_, usdc, supply, L, L', hr, hs⟩ := redeem_eq_ok.mp h
      obtain ⟨-, hvs', -⟩ := loadVaultState_eq_ok.mp hr.vaultState
      cases hs
      exact accrual_congr hvs' rfl rfl rfl
  | convertToTradeable a x =>
      obtain ⟨_, L, L', hc, hs⟩ := convertToTradeable_eq_ok.mp h
      cases hs
      rfl
  | redeemTradeable a x mode =>
      cases mode with
      | true =>
          obtain ⟨_, L, L', hu, hm, hs⟩ := rewrap_eq_ok.mp h
          cases hs
          rfl
      | false =>
          obtain ⟨_, usdc, deposits, supply, L, L', hu, hp, hs⟩ := payOut_eq_ok.mp h
          obtain ⟨-, hvs', -⟩ := loadVaultState_eq_ok.mp hu.vaultState
          cases hs
          exact accrual_congr hvs' rfl rfl rfl
  | processYield a => cases hcall
  | registerUsxAccounts a p =>
      obtain ⟨vs', hvs', rfl⟩ := registerUsxAccounts_spec h
      exact accrual_congr hvs' rfl rfl rfl
  | distributeYield a => cases hcall
  | setPause a paused =>
      obtain ⟨vs', hvs', rfl⟩ := setPause_spec h
      exact accrual_congr hvs' rfl rfl rfl
  | updateConfig a p =>
      obtain ⟨vs', hvs', rfl, -⟩ := updateConfig_spec h
      exact accrual_congr hvs' rfl rfl rfl
  | syncYield a => cases hcall
  | postReserveAttestation a p =>
      obtain ⟨vs', reg, -, -, -, -, rfl⟩ := postReserveAttestation_posted h
      rfl
  | verifyProofOfReserve a =>
      cases verifyProofOfReserve_state h
      rfl
  | assertLiquidityAllocation a =>
      cases assertLiquidityAllocation_state h
      rfl

theorem apply_accrual {s s' : State K} {vs : VaultState K} (h : act.apply s = some s')
    (hvs : s.vaultState = some vs) (hact : act.isYield = false) :
    (∃ vs', s'.vaultState = some vs') ∧ s'.accrual = s.accrual := by
  cases act with
  | token call =>
      obtain ⟨L, -, rfl⟩ := Option.map_eq_some_iff.mp h
      exact ⟨⟨vs, hvs⟩, rfl⟩
  | program now call =>
      simp only [Action.apply] at h
      split at h
      · next s₁ ev hexec =>
          cases h
          exact ⟨effect_vaultState (exec_effect hexec) hvs, exec_accrual hexec hvs hact⟩
      · cases h

/-- The yield account of the vault there is. -/
def Timeline.HasAccrual (x : Accrual.Account) (c : Timeline K) : Prop :=
  (∃ vs, c.state.vaultState = some vs) ∧ c.state.accrual = x

theorem executeAll_accrual {x : Accrual.Account} (h : c.HasAccrual x)
    (hacts : ∀ act ∈ acts, act.isYield = false) : (c.executeAll acts).HasAccrual x := by
  refine executeAll_kept (P := Timeline.HasAccrual x) (G := fun act => act.isYield = false) ?_ h hacts
  intro c act hc hact
  obtain ⟨⟨vs, hvs⟩, hx⟩ := hc
  cases happly : act.apply c.state with
  | none =>
      rw [execute_none happly]
      exact ⟨⟨vs, hvs⟩, hx⟩
  | some s =>
      obtain ⟨hvs', hx'⟩ := apply_accrual happly hvs hact
      rw [execute_some happly]
      exact ⟨hvs', hx'.trans hx⟩

omit [DecidableEq K] [Addresses K] [Deployment K] [TokenProgram K] in
/-- What one transition accrues. -/
def accruedBy (t : Transition (State K) (Action K)) : Int :=
  match t.label with
  | .program _ (.processYield _) => t.post.accrual.pending - t.pre.accrual.pending
  | _ => 0

omit [DecidableEq K] [Addresses K] [Deployment K] [TokenProgram K] in
/-- The yield accrued in a history. -/
def Timeline.accrued (c : Timeline K) : Int := (c.history.map accruedBy).sum

def Action.isProcessYield : Action K → Bool
  | .program _ (.processYield _) => true
  | _ => false

/-- Nothing but `process_yield` accrues any. -/
theorem execute_accrued (hact : act.isProcessYield = false) :
    (c.execute act).accrued = c.accrued := by
  cases happly : act.apply c.state with
  | none => rw [execute_none happly]
  | some s =>
      have hnone : accruedBy ⟨c.state, act, s⟩ = 0 := by
        unfold accruedBy
        split
        · next hlabel => rw [show act = _ from hlabel] at hact; cases hact
        · rfl
      rw [execute_some happly]
      simp [Timeline.accrued, hnone]

theorem executeAll_accrued (hacts : ∀ act ∈ acts, act.isProcessYield = false) :
    (c.executeAll acts).accrued = c.accrued :=
  executeAll_kept (P := fun c' => c'.accrued = c.accrued) (G := fun act => act.isProcessYield = false)
    (fun hc hact => (execute_accrued hact).trans hc) rfl hacts

end OragamiVault
