/-
# `Oragami.OragamiVault.Pause` — what a pause stops

Deposit, redemption, conversion and the exits from the tradeable token are the
instructions that call the token program, besides `initialize_vault`, which runs
before there is anything to pause.  Each of them asks that the vault not be
paused; no other one writes tokens or totals.  So from a `set_pause(true)` on,
until a `set_pause(false)`, the program leaves the token ledger and the totals
alone (`pause_freezes`).
-/
import Oragami.OragamiVault.Configuration

namespace OragamiVault

open Anchor Lts

variable {K : Type} [DecidableEq K] [Addresses K] [Deployment K] [TokenProgram K]

section Exec

variable {now : Int64} {s s' : State K} {ev : Option (Event K)} {vs : VaultState K} {c : Call K}

/-- Paused, the vault has `vs`'s totals. -/
def Frozen (vs : VaultState K) (s : State K) : Prop :=
  ∃ vs', s.vaultState = some vs' ∧ vs'.paused = true ∧
    vs'.totalDeposits = vs.totalDeposits ∧ vs'.totalSupply = vs.totalSupply

/-- Under a pause no instruction that goes through touches tokens or totals. -/
theorem exec_frozen (hs : Frozen vs s) (h : c.exec now s = .ok (s', ev)) :
    s'.ledger = s.ledger ∧ ∃ vs', s'.vaultState = some vs' ∧
      vs'.totalDeposits = vs.totalDeposits ∧ vs'.totalSupply = vs.totalSupply := by
  obtain ⟨w, hw, hpaused, hdeposits, hsupply⟩ := hs
  have running : ∀ {a : K} {v : VaultState K}, s.loadVaultState a = .ok v → v.paused ≠ false := by
    intro a v hv
    obtain ⟨-, hstored, -⟩ := loadVaultState_eq_ok.mp hv
    cases hw.symm.trans hstored
    rw [hpaused]
    decide
  cases exec_effect h with
  | quiet hq =>
      obtain ⟨w', hw', hsame⟩ := hq.stored hw
      exact ⟨hq.ledger, w', hw', hsame.totalDeposits.trans hdeposits,
        hsame.totalSupply.trans hsupply⟩
  | init hi => cases hw.symm.trans hi.fresh
  | setNav hvs =>
      cases hw.symm.trans hvs
      exact ⟨rfl, _, rfl, hdeposits, hsupply⟩
  | issue hcred =>
      rw [hcred.state]
      exact ⟨rfl, w, hw, hdeposits, hsupply⟩
  | revoke hcred =>
      rw [hcred.state]
      exact ⟨rfl, w, hw, hdeposits, hsupply⟩
  | record => exact ⟨rfl, w, hw, hdeposits, hsupply⟩
  | deposit =>
      obtain ⟨v, hv, hrunning⟩ := deposit_unpaused h
      cases hw.symm.trans hv
      cases hpaused.symm.trans hrunning
  | redeem hr => exact absurd hr.unpaused (running hr.vaultState)
  | convert hc => exact absurd hc.unpaused (running hc.vaultState)
  | rewrap hu => exact absurd hu.unpaused (running hu.vaultState)
  | payOut hu => exact absurd hu.unpaused (running hu.vaultState)

/-- Nothing but `set_pause(false)` ends a pause. -/
theorem exec_paused {w w' : VaultState K} (hw : s.vaultState = some w) (hpaused : w.paused = true)
    (h : c.exec now s = .ok (s', ev)) (hw' : s'.vaultState = some w') :
    w'.paused = true ∨ ∃ a, c = .setPause a false := by
  have hsettings := (exec_configured h).settings
  rw [settings_of_some hw, settings_of_some hw'] at hsettings
  cases c with
  | initializeVault a p => cases hw.symm.trans (initializeVault_settings h).1
  | setPause a paused =>
      have hset : w'.paused = paused := congrArg Settings.paused (Option.some.inj hsettings)
      cases paused with
      | true => exact .inl hset
      | false => exact .inr ⟨a, rfl⟩
  | _ => exact .inl ((congrArg Settings.paused (Option.some.inj hsettings)).trans hpaused)

end Exec

/-! ## Segments -/

section Segment

variable {ledger : Ledger K} {before segment : List (Transition (State K) (Action K))}
  {t : Transition (State K) (Action K)} {s s' : State K} {vs : VaultState K} {act : Action K}

theorem step_frozen (hs : Frozen vs s) (h : Step s act s')
    (hact : ∀ now a, act ≠ .program now (.setPause a false)) : Frozen vs s' := by
  cases h with
  | token _ _ => exact hs
  | @program _ now c ev _ hexec =>
      obtain ⟨-, vs', hvs', hdeposits, hsupply⟩ := exec_frozen hs hexec
      obtain ⟨w, hw, hpaused, -, -⟩ := hs
      rcases exec_paused hw hpaused hexec hvs' with hstill | ⟨a, rfl⟩
      · exact ⟨vs', hvs', hstill, hdeposits, hsupply⟩
      · exact absurd rfl (hact _ a)

/-- From a `set_pause(true)` to the next `set_pause(false)`: no instruction changes the token
ledger, and the totals stay what they were. -/
theorem pause_freezes {now : Int64} {a : SetPause K}
    (h : Reaches ledger (before ++ t :: segment) s) (hpause : t.label = .program now (.setPause a true))
    (hsegment : ∀ u ∈ segment, ∀ now a, u.label ≠ .program now (.setPause a false)) :
    ∃ vs, t.post.vaultState = some vs ∧ ∀ u ∈ segment,
      (∀ now c, u.label = .program now c → u.post.ledger = u.pre.ledger) ∧
        ∃ vs', u.post.vaultState = some vs' ∧ vs'.totalDeposits = vs.totalDeposits ∧
          vs'.totalSupply = vs.totalSupply := by
  obtain ⟨-, hstep, hrun⟩ := Run.split h
  obtain ⟨vs, hvs, hpaused⟩ : ∃ vs, t.post.vaultState = some vs ∧ vs.paused = true := by
    rw [hpause] at hstep
    generalize t.post = post at hstep ⊢
    cases hstep with
    | program _ hexec =>
        obtain ⟨vs, -, rfl⟩ := setPause_spec hexec
        exact ⟨_, rfl, rfl⟩
  obtain ⟨-, hfrozen⟩ := hrun.kept (I := Frozen vs)
    (G := fun u => ∀ now a, u.label ≠ .program now (.setPause a false))
    ⟨vs, hvs, hpaused, rfl, rfl⟩ (fun hs hu hlabel => step_frozen hs hu hlabel) hsegment
  refine ⟨vs, hvs, ?_⟩
  intro u hu
  obtain ⟨hpre, vs', hvs', -, htotals⟩ := hfrozen u hu
  refine ⟨?_, vs', hvs', htotals⟩
  intro now c hlabel
  have hlast := (hrun.of_mem hu).2
  rw [hlabel] at hlast
  generalize u.post = post at hlast ⊢
  cases hlast with
  | program _ hexec => exact (exec_frozen hpre hexec).1

end Segment

/-! ### A pause -/

namespace Cluster

def pause : Action FreeKey :=
  .program 0 (.setPause { vaultState := vaultStateKey, authority := admin } true)

def depositing : List (Action FreeKey) := setUp ++ [deposit 1000]

def depositedState : State FreeKey := final (.genesis ledger) depositing

def pausedState : State FreeKey := final depositedState [pause]

/-- Under the pause the NAV is raised, a deposit refused, and USDC sent to the vault. -/
def afterPause : List (Action FreeKey) := [setNav 11000, deposit 500, donate 5]

end Cluster

open Cluster in
theorem pause_freezes_deposited :
    ∃ vs, pausedState.vaultState = some vs ∧ ∀ u ∈ play pausedState afterPause,
      (∀ now c, u.label = .program now c → u.post.ledger = u.pre.ledger) ∧
        ∃ vs', u.post.vaultState = some vs' ∧ vs'.totalDeposits = vs.totalDeposits ∧
          vs'.totalSupply = vs.totalSupply := by
  have h : Reaches ledger (play (.genesis ledger) depositing ++
      ⟨depositedState, pause, pausedState⟩ :: play pausedState afterPause)
      (final pausedState afterPause) :=
    reaches_final (show (depositing ++ pause :: afterPause).all _ = true by decide)
  refine pause_freezes h rfl ?_
  intro u hu now a
  have hlabel := label_mem_of_play hu
  simp only [afterPause, List.mem_cons, List.not_mem_nil, or_false] at hlabel
  rcases hlabel with h | h | h <;> rw [h] <;> exact fun hcontra => by cases hcontra

end OragamiVault
