/-
# `Oragami.OragamiVault.Scenario` — playing a list of actions

A transaction that fails changes nothing, so any list of actions can be played
from any state: the refused ones drop out and the rest is a run (`play_run`).
This makes runs out of data, which is how the closed runs of the later modules
are given.

The cluster those runs play on is at the end: one investor, with USDC, and a
tradeable mint the vault issues.
-/
import Oragami.OragamiVault.Step

namespace OragamiVault

open Lts

section Play

variable {K : Type}

/-- Who has to sign for an action. -/
def Action.signer : Action K → Option K
  | .program _ c => c.signer
  | .token c => some c.signer

variable [DecidableEq K] [Addresses K] [Deployment K] [TokenProgram K]

/-- The state after an action, if it is accepted. -/
def Action.apply (s : State K) : Action K → Option (State K)
  | .program now c =>
      match c.exec now s with
      | .ok (s', _) => some s'
      | .error _ => none
  | .token c => (c.run s.ledger).map fun L => { s with ledger := L }

theorem Step.of_apply {s s' : State K} {act : Action K} (h : act.apply s = some s')
    (hsig : ∀ k ∈ act.signer, ¬ Owned k) : Step s act s' := by
  cases act with
  | program now c =>
      simp only [Action.apply] at h
      split at h
      · next heq =>
          cases h
          exact .program hsig heq
      · cases h
  | token c =>
      obtain ⟨L, hL, rfl⟩ := Option.map_eq_some_iff.mp h
      exact .token (hsig _ rfl) hL

/-- The accepted actions of a list, each where it was played. -/
abbrev play (s : State K) (acts : List (Action K)) : List (Transition (State K) (Action K)) :=
  Lts.play Action.apply s acts

/-- Where playing a list of actions ends. -/
abbrev final (s : State K) (acts : List (Action K)) : State K := Lts.final Action.apply s acts

theorem play_run {acts : List (Action K)} (hsig : ∀ act ∈ acts, ∀ k ∈ act.signer, ¬ Owned k)
    (s : State K) : Run Step s (play s acts) (final s acts) :=
  Lts.play_run (P := fun act => ∀ k ∈ act.signer, ¬ Owned k) Step.of_apply hsig s

end Play

/-! ## A small cluster -/

namespace Cluster

/-- Numbered keys sign; derived ones do not. -/
def numbered (act : Action FreeKey) : Bool :=
  match act.signer with
  | some (.num _) => true
  | some _ => false
  | none => true

theorem run_final {acts : List (Action FreeKey)} (h : acts.all numbered = true)
    (s : State FreeKey) : Run Step s (play s acts) (final s acts) := by
  refine play_run ?_ _
  intro act hact k hk
  have hs := List.all_eq_true.mp h act hact
  simp only [numbered, Option.mem_def.mp hk] at hs
  split at hs
  · exact Option.some.inj ‹_› ▸ FreeKey.not_derivedBy_num
  · cases hs
  · cases ‹some _ = none›

theorem reaches_final {ledger : Ledger FreeKey} {acts : List (Action FreeKey)}
    (h : acts.all numbered = true) :
    Reaches ledger (play (.genesis ledger) acts) (final (.genesis ledger) acts) :=
  run_final h _

def usdc : FreeKey := .num 10
def tradeMint : FreeKey := .num 11
def admin : FreeKey := .num 20
def alice : FreeKey := .num 21
def aliceUsdc : FreeKey := .num 31
def aliceCvault : FreeKey := .num 32
def aliceTrade : FreeKey := .num 33

/-- USDC is there, some of it Alice's; the tradeable mint is the vault's to issue. -/
def ledger : Ledger FreeKey where
  account k :=
    if k = aliceUsdc then some ⟨.token, usdc, alice, 1000000, none, 0, false⟩
    else if k = aliceTrade then some ⟨.token, tradeMint, alice, 0, none, 0, false⟩
    else none
  mint k :=
    if k = usdc then some ⟨.token, some admin, 1000000⟩
    else if k = tradeMint then some ⟨.token, some vaultStateKey, 0⟩
    else none

def opening : Action FreeKey :=
  .program 0 (.initializeVault
    { vaultState := vaultStateKey, cvaultMint := cvaultMintKey, tokenAccount := vaultTokenKey,
      depositMint := usdc, payer := admin, tokenProgram := TokenProgram.id }
    { treasury := admin, authority := admin, operator := admin, minDeposit := 1,
      maxDeposit := 1000000000000, usxAllocationBps := 0, apyBps := 0,
      cvaultTradeMint := tradeMint, secondaryMarketEnabled := true })

def registry : Action FreeKey :=
  .program 0 (.initializeRwaAssetRegistry
    { vaultState := vaultStateKey, rwaAssetRegistry := rwaAssetRegistryKey, authority := admin }
    { assetId := .replicate 16 0, isin := .replicate 12 0, commodityCode := .replicate 8 0,
      custodian := admin, linkHash := .replicate 32 0 })

/-- A mandate asking for full collateral. -/
def mandate : Action FreeKey :=
  .program 0 (.initializeVaultMandate
    { vaultState := vaultStateKey, vaultMandate := vaultMandateKey, authority := admin }
    { minLiquidityBufferBps := 0, maxUsxAllocationBps := 0, minCollateralRatioBps := 10000,
      allowedAssetTypes := .replicate 8 0, leverageAllowed := false,
      liquidityEnforcementActive := false })

def attestation : Action FreeKey :=
  .program 0 (.postReserveAttestation
    { vaultState := vaultStateKey, rwaAssetRegistry := rwaAssetRegistryKey,
      reserveAttestation := reserveAttestationKey, operator := admin }
    { attestationHash := .replicate 32 0, goldUnitsHeld := 0, usdcValueBps := 0 })

def credential : Action FreeKey :=
  .program 0 (.issueCredential
    { credential := credentialKey alice, vaultState := vaultStateKey, authority := admin }
    { wallet := alice, institutionName := .replicate 64 0, jurisdiction := .replicate 4 0,
      tier := 1, kycLevel := 1, amlCoverage := 1, attestationHash := .replicate 32 0,
      issuedAt := 0, expiresAt := 1000 })

def openCvault : Action FreeKey := .token (.openAccount cvaultMintKey alice aliceCvault)

def deposit (amount : UInt64) : Action FreeKey :=
  .program 0 (.deposit
    { vaultState := vaultStateKey, cvaultMint := cvaultMintKey, vaultTokenAccount := vaultTokenKey,
      payerDepositAccount := aliceUsdc, payerCvaultAccount := aliceCvault,
      investorCredential := credentialKey alice, travelRuleData := none, payer := alice,
      tokenProgram := TokenProgram.id } amount)

def setNav (nav : UInt64) : Action FreeKey :=
  .program 0 (.setNav
    { vaultState := vaultStateKey, rwaAssetRegistry := rwaAssetRegistryKey, operator := admin } nav)

/-- USDC sent to the vault's token account directly. -/
def donate (amount : UInt64) : Action FreeKey :=
  .token (.transfer aliceUsdc vaultTokenKey alice amount)

def convertAccounts : ConvertToTradeable FreeKey :=
  { vaultState := vaultStateKey, cvaultMint := cvaultMintKey, cvaultTradeMint := tradeMint,
    userCvaultAccount := aliceCvault, userCvaultTradeAccount := aliceTrade, user := alice,
    tokenProgram := TokenProgram.id }

def unwrapAccounts : RedeemTradeable FreeKey :=
  { vaultState := vaultStateKey, cvaultTradeMint := tradeMint, cvaultMint := cvaultMintKey,
    vaultTokenAccount := vaultTokenKey, userCvaultTradeAccount := aliceTrade,
    userCvaultAccount := aliceCvault, userDestination := aliceUsdc, authority := alice,
    tokenProgram := TokenProgram.id }

def convert (amount : UInt64) : Action FreeKey :=
  .program 0 (.convertToTradeable convertAccounts amount)

/-- A configuration update by the authority, with or without the mandate account. -/
def configure (vaultMandate : Option FreeKey) (p : UpdateConfigParams) : Call FreeKey :=
  .updateConfig { vaultState := vaultStateKey, authority := admin, vaultMandate } p

/-- An update that sets nothing. -/
def unset : UpdateConfigParams :=
  { minDeposit := none, maxDeposit := none, usxAllocationBps := none, apyBps := none,
    secondaryMarketEnabled := none }

def reserveAccounts : VerifyProofOfReserve FreeKey :=
  { vaultState := vaultStateKey, vaultMandate := vaultMandateKey,
    rwaAssetRegistry := rwaAssetRegistryKey, reserveAttestation := reserveAttestationKey,
    vaultTokenAccount := vaultTokenKey, vaultUsxTokenAccount := none,
    vaultEusxTokenAccount := none }

/-- The vault is open, watched over, and Alice may deposit. -/
def setUp : List (Action FreeKey) :=
  [opening, registry, mandate, attestation, credential, openCvault]

end Cluster

end OragamiVault
