/-
# `Oragami.Backend.DepositsService` — the preflight of the yield vault and its program

`preflight` looks at the status of the credential, at `paused` and at the NAV, and where
the credential cannot be read it takes the word of the database.  The program asks
more: the limits, the expiry, the wallet, that the numbers fit and something is minted
(`Accepted`).  So an answer that a wallet may deposit is right just in the states that
happen to meet the rest (`preflight_sound_iff`).  The estimate is always right.
-/
import Oragami.Backend.World
import Oragami.OragamiVault.Guards
import Oragami.OragamiVault.Scenario

namespace Backend

open Idl Anchor OragamiVault

variable {K : Type}

/-! ## `preflight` -/

/-- The text of an integer is that integer, and `none` a text of none. -/
structure PreflightDto (K : Type) where
  wallet : Option K
  usdcAmount : Option Int

structure DepositPreflight where
  canDeposit : Bool
  reason : Option String
  requiresTravelRule : Bool
  credentialStatus : String
  currentNav : Int
  estimatedCvault : Int

/-- The text of a status byte read. -/
def onchainStatus : Option Int → String
  | some st => if st = 1 then "active" else "onchain_" ++ toString st
  | none => "onchain_NaN"

/-- The answer about an amount, from what was found. -/
def depositAnswer (amount : Int) (credentialStatus : String) (paused : Bool) (navBps : Int) :
    DepositPreflight where
  canDeposit := credentialStatus = "active" ∧ paused = false
  reason :=
    if paused = true then some "Vault is paused"
    else if credentialStatus = "active" then none
    else some "Credential is not active on-chain"
  requiresTravelRule := 1000000000 ≤ amount
  credentialStatus
  currentNav := Js.number navBps
  estimatedCvault := (amount * 10000).tdiv navBps

/-- What the database says of the credential. -/
def databaseStatus (net : Network) (db : Database K) (wallet : K) : Except (Exception K) String :=
  if net.institution then
    .ok (((db.institutions wallet).map (·.credentialStatus)).getD "not_found")
  else .error .uncaught

variable [Addresses K] [Deployment K]

/-- What is read of the credential, or else the row of the database. -/
def preflightStatus (net : Network) (world : World K) (walletPk : K) :
    Except (Exception K) String :=
  match readCredential net world.chain walletPk with
  | some c => .ok (onchainStatus (c.num .status))
  | none => databaseStatus net world.db walletPk

def preflight (net : Network) (world : World K) (dto : PreflightDto K) :
    Except (Exception K) DepositPreflight := do
  let amount ← orThrow dto.usdcAmount
  let walletPk ← orThrow dto.wallet
  let credentialStatus ← preflightStatus net world walletPk
  let vault ← orThrow (readVaultState net world.chain)
  let navBps := (vault.num .navPriceBps).getD 0
  if navBps ≤ 0 then .error (.badRequest "Vault NAV is zero or unreadable")
  else pure (depositAnswer amount credentialStatus (vault.truthy .paused) navBps)

/-! ## Soundness -/

/-- The preflight takes the credential for active: it read an active one, or it read none and
the database has it so. -/
inductive TakenForActive (net : Network) (world : World K) (w : K) : Prop
  | read {c} : net.credential = true → world.chain.credentials (credentialKey w) = some c →
      c.status = credentialStatusActive → TakenForActive net world w
  | recorded {row} : (net.credential = true → world.chain.credentials (credentialKey w) = none) →
      net.institution = true → world.db.institutions w = some row →
      row.credentialStatus = "active" → TakenForActive net world w

theorem onchainStatus_active {st : Int} : onchainStatus (some st) = "active" ↔ st = 1 := by
  rw [onchainStatus]
  split
  · next h => exact ⟨fun _ => h, fun _ => rfl⟩
  · next h =>
      refine ⟨fun heq => ?_, fun heq => absurd heq h⟩
      have hchars := congrArg String.toList heq
      rw [String.toList_append] at hchars
      exact absurd (List.cons.inj hchars).1 (by decide)

omit [Addresses K] [Deployment K] in
theorem databaseStatus_active {net : Network} {db : Database K} {w : K} :
    databaseStatus net db w = .ok "active" ↔
      net.institution = true ∧ ∃ row, db.institutions w = some row ∧
        row.credentialStatus = "active" := by
  rw [databaseStatus]
  cases net.institution with
  | false => exact ⟨nofun, nofun⟩
  | true =>
      cases hrow : db.institutions w with
      | none =>
          refine ⟨fun h => ?_, nofun⟩
          exact absurd (Except.ok.inj h) (show "not_found" ≠ "active" by decide)
      | some row =>
          constructor
          · intro h
            exact ⟨rfl, row, rfl, Except.ok.inj h⟩
          · rintro ⟨-, row', hrow', hactive⟩
            cases hrow'
            exact congrArg Except.ok hactive

theorem preflightStatus_active {net : Network} {world : World K} {w : K} :
    preflightStatus net world w = .ok "active" ↔ TakenForActive net world w := by
  rw [preflightStatus, readCredential_eq]
  cases hread : net.credential with
  | false =>
      refine databaseStatus_active.trans ⟨?_, ?_⟩
      · rintro ⟨hinst, row, hrow, hactive⟩
        exact .recorded (fun h => absurd (hread.symm.trans h) (by decide)) hinst hrow hactive
      · intro h
        cases h with
        | read htrue => exact absurd (hread.symm.trans htrue) (by decide)
        | recorded _ hinst hrow hactive => exact ⟨hinst, _, hrow, hactive⟩
  | true =>
      cases hc : world.chain.credentials (credentialKey w) with
      | none =>
          refine databaseStatus_active.trans ⟨?_, ?_⟩
          · rintro ⟨hinst, row, hrow, hactive⟩
            exact .recorded (fun _ => hc) hinst hrow hactive
          · intro h
            cases h with
            | read _ hc' => cases hc.symm.trans hc'
            | recorded _ hinst hrow hactive => exact ⟨hinst, _, hrow, hactive⟩
      | some c =>
          have hbyte : (c.status.toNat : Int) = 1 ↔ c.status = credentialStatusActive :=
            byte_eq_iff (y := 1)
          show Except.ok (onchainStatus (some (c.status.toNat : Int))) = _ ↔ _
          rw [Except.ok.injEq, onchainStatus_active, hbyte]
          constructor
          · exact .read hread hc
          · intro h
            cases h with
            | read _ hc' hactive =>
                cases hc.symm.trans hc'
                exact hactive
            | recorded hnone => cases hc.symm.trans (hnone hread)

/-- A preflight that is answered read the vault, and its NAV is not zero. -/
theorem preflight_eq_ok {net : Network} {world : World K} {w : K} {amount : Int}
    {r : DepositPreflight} :
    preflight net world ⟨some w, some amount⟩ = .ok r ↔
      ∃ status vs, preflightStatus net world w = .ok status ∧ net.vaultState = true ∧
        world.chain.vaultState = some vs ∧ vs.navPriceBps ≠ 0 ∧
        r = depositAnswer amount status vs.paused vs.navPriceBps.toNat := by
  simp only [preflight, bind_eq_ok, orThrow_eq_ok, readVaultState_eq]
  constructor
  · rintro ⟨_, ha, _, hw, status, hstatus, vault, hvault, h⟩
    cases ha
    cases hw
    split at hvault
    · next hread =>
        obtain ⟨vs, hvs, rfl⟩ := Option.map_eq_some_iff.mp hvault
        split at h
        · cases h
        · next hnav =>
            refine ⟨status, vs, hstatus, hread, hvs, fun hzero => hnav ?_,
              (pure_eq_ok.mp h).symm⟩
            show (vs.navPriceBps.toNat : Int) ≤ 0
            rw [hzero]
            decide
    · cases hvault
  · rintro ⟨status, vs, hstatus, hread, hvs, hnav, rfl⟩
    refine ⟨amount, rfl, w, rfl, status, hstatus, _, by rw [if_pos hread, hvs]; rfl, ?_⟩
    rw [if_neg]
    · rfl
    · show ¬ (vs.navPriceBps.toNat : Int) ≤ 0
      intro hle
      exact hnav (UInt64.toNat_inj.mp (show vs.navPriceBps.toNat = 0 by omega))

variable [DecidableEq K] [TokenProgram K]

/-- Whatever it is answered, the estimate is what a deposit buys. -/
theorem estimatedCvault_eq {net : Network} {world : World K} {w : K} {amount : UInt64}
    {now : Int64} {r : DepositPreflight} {a : Deposit K} {s' : State K} {ev : Option (Event K)}
    (hr : preflight net world ⟨some w, some (amount.toNat : Int)⟩ = .ok r) (ha : a.payer = w)
    (h : deposit now a amount world.chain = .ok (s', ev)) :
    ∃ shares : UInt64, ev = some (.depositMade w amount shares now) ∧
      r.estimatedCvault = shares.toNat := by
  obtain ⟨status, vs, -, -, hvs, -, rfl⟩ := preflight_eq_ok.mp hr
  obtain ⟨vs', tr, rules, shares, L, L', td, ts, haccounts, -, hguards, -, -, -, -, -, hout⟩ :=
    deposit_eq_ok.mp h
  obtain ⟨-, hvs', -⟩ := loadVaultState_eq_ok.mp haccounts.vaultState
  cases hvs.symm.trans hvs'
  obtain ⟨-, -, -, -, hshares, -⟩ := depositGuards_eq_ok.mp hguards
  obtain ⟨-, -, hq⟩ := sharesFor_eq_ok.mp hshares
  refine ⟨shares, by rw [(Prod.mk.inj hout).2, ha], ?_⟩
  show ((amount.toNat * 10000 : Nat) : Int).tdiv (vs.navPriceBps.toNat : Int) = _
  rw [hq]
  rfl

omit [Addresses K] [Deployment K] [DecidableEq K] [TokenProgram K] in
theorem depositAnswer_canDeposit {amount navBps : Int} {status : String} {paused : Bool} :
    (depositAnswer amount status paused navBps).canDeposit = true ↔
      status = "active" ∧ paused = false :=
  decide_eq_true_iff

/-- An answer that `w` may deposit means that the program's guards let the deposit through, for
every amount and time, if and only if every unpaused vault with a NAV in front of a credential
taken for active meets what the preflight does not look at. -/
theorem preflight_sound_iff (net : Network) (world : World K) (w : K) (amount : UInt64)
    (now : Int64) :
    (∀ r, preflight net world ⟨some w, some (amount.toNat : Int)⟩ = .ok r →
      (r.canDeposit = true → ∃ vs shares, world.chain.vaultState = some vs ∧
        depositGuards now w amount vs (world.chain.credentials (credentialKey w)) = .ok shares) ∧
      ∀ a s' ev, a.payer = w → deposit now a amount world.chain = .ok (s', ev) →
        ∃ shares : UInt64, ev = some (.depositMade w amount shares now) ∧
          r.estimatedCvault = shares.toNat) ↔
    ∀ vs, net.vaultState = true → world.chain.vaultState = some vs → vs.paused = false →
      vs.navPriceBps ≠ 0 → TakenForActive net world w →
        ∃ cred, world.chain.credentials (credentialKey w) = some cred ∧
          Accepted now w amount vs cred := by
  constructor
  · intro h vs hread hvs hpaused hnav htaken
    obtain ⟨hsound, -⟩ := h _ (preflight_eq_ok.mpr
      ⟨_, vs, preflightStatus_active.mpr htaken, hread, hvs, hnav, rfl⟩)
    obtain ⟨vs', shares, hvs', hguards⟩ :=
      hsound (depositAnswer_canDeposit.mpr ⟨rfl, hpaused⟩)
    cases hvs.symm.trans hvs'
    exact depositGuards_iff.mp ⟨shares, hguards⟩
  · intro h r hr
    refine ⟨fun hcan => ?_, fun a s' ev ha hdeposit => estimatedCvault_eq hr ha hdeposit⟩
    obtain ⟨status, vs, hstatus, hread, hvs, hnav, rfl⟩ := preflight_eq_ok.mp hr
    obtain ⟨rfl, hpaused⟩ := depositAnswer_canDeposit.mp hcan
    obtain ⟨shares, hguards⟩ := depositGuards_iff.mpr
      (h vs hread hvs hpaused hnav (preflightStatus_active.mp hstatus))
    exact ⟨vs, shares, hvs, hguards⟩

/-! ## A credential expired -/

namespace Cluster

open OragamiVault.Cluster

def credentialed : State FreeKey := final (.genesis OragamiVault.Cluster.ledger) [opening, credential]

set_option maxRecDepth 5000 in
theorem credentialed_credential :
    ∃ c, credentialed.credentials (credentialKey alice) = some c ∧ c.expiresAt = 1000 ∧
      c.status = credentialStatusActive := by
  obtain ⟨c, hc, heq⟩ := Option.map_eq_some_iff.mp
    (show (credentialed.credentials (credentialKey alice)).map (fun c => (c.expiresAt, c.status)) =
      some (1000, credentialStatusActive) from rfl)
  simp only [Prod.mk.injEq] at heq
  exact ⟨c, hc, heq⟩

set_option maxRecDepth 5000 in
theorem credentialed_vault :
    ∃ vs, credentialed.vaultState = some vs ∧ vs.paused = false ∧ vs.navPriceBps = 10000 := by
  obtain ⟨vs, hvs, heq⟩ := Option.map_eq_some_iff.mp
    (show credentialed.vaultState.map (fun vs => (vs.paused, vs.navPriceBps)) =
      some (false, 10000) from rfl)
  simp only [Prod.mk.injEq] at heq
  exact ⟨vs, hvs, heq⟩

end Cluster

open OragamiVault.Cluster (alice) in
/-- Alice's credential is good until 1000.  At 2000 the preflight still admits her, with all
reads answered; the program does not. -/
theorem preflight_not_sound :
    ∃ ts s net r, Reaches OragamiVault.Cluster.ledger ts s ∧
      preflight net ⟨s, ⟨fun _ => none, []⟩⟩ ⟨some alice, some 100⟩ = .ok r ∧
      r.canDeposit = true ∧
      ¬ ∃ vs shares, s.vaultState = some vs ∧
        depositGuards 2000 alice 100 vs (s.credentials (credentialKey alice)) = .ok shares := by
  obtain ⟨c, hc, hexpires, hactive⟩ := Cluster.credentialed_credential
  obtain ⟨vs, hvs, hpaused, hnav⟩ := Cluster.credentialed_vault
  refine ⟨_, Cluster.credentialed, ⟨2000, true, none, true, true, true, true⟩, _,
    OragamiVault.Cluster.reaches_final (by decide), preflight_eq_ok.mpr ⟨_, vs,
      preflightStatus_active.mpr (.read rfl hc hactive), rfl, hvs, ?_, rfl⟩,
    depositAnswer_canDeposit.mpr ⟨rfl, hpaused⟩, ?_⟩
  · rw [hnav]
    decide
  · rintro ⟨vs', shares, -, hguards⟩
    obtain ⟨c', hc', haccepted⟩ := depositGuards_iff.mp ⟨shares, hguards⟩
    cases hc.symm.trans hc'
    have hlt := haccepted.unexpired
    rw [hexpires] at hlt
    exact absurd hlt (by decide)

end Backend
