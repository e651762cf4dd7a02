/-
# `Oragami.MultiAssetVault.Scenario` — runs of multi-asset-vault from lists of actions

Lists of actions are played as for oragami-vault: the refused ones drop out.

The cluster of the closed runs has two vaults, the second over the shares of the
first, and one wallet with a credential.
-/
import Oragami.MultiAssetVault.Step

namespace MultiAssetVault

open Lts

section Play

variable {K : Type}

/-- Who has to sign for an action. -/
def Action.signer : Action K → K
  | .program _ _ c => c.signer
  | .token c => c.signer

variable [DecidableEq K] [Addresses K] [Deployment K] [TokenProgram K]

/-- The state after an action, if it is accepted. -/
def Action.apply (s : State K) : Action K → Option (State K)
  | .program now view c =>
      match c.exec now view s with
      | .ok (s', _) => some s'
      | .error _ => none
  | .token c => (c.run s.ledger).map fun L => { s with ledger := L }

theorem Step.of_apply {s s' : State K} {act : Action K} (h : act.apply s = some s')
    (hsig : ¬ Owned act.signer) : Step s act s' := by
  cases act with
  | program now view c =>
      simp only [Action.apply] at h
      split at h
      · next heq =>
          cases h
          exact .program hsig heq
      · cases h
  | token c =>
      obtain ⟨L, hL, rfl⟩ := Option.map_eq_some_iff.mp h
      exact .token hsig hL

/-- The accepted actions of a list, each where it was played. -/
abbrev play (s : State K) (acts : List (Action K)) : List (Transition (State K) (Action K)) :=
  Lts.play Action.apply s acts

/-- Where playing a list of actions ends. -/
abbrev final (s : State K) (acts : List (Action K)) : State K := Lts.final Action.apply s acts

end Play

namespace Cluster

/-- Numbered keys sign; derived ones do not. -/
def numbered (act : Action FreeKey) : Bool :=
  match act.signer with
  | .num _ => true
  | _ => false

theorem run_final {acts : List (Action FreeKey)} (h : acts.all numbered = true)
    (s : State FreeKey) : Run Step s (play s acts) (final s acts) := by
  refine Lts.play_run (P := fun act => ¬ Owned act.signer) Step.of_apply ?_ _
  intro act hact
  have hs := List.all_eq_true.mp h act hact
  simp only [numbered] at hs
  split at hs
  · next heq => exact heq ▸ FreeKey.not_derivedBy_num
  · cases hs

theorem reaches_final {ledger : Ledger FreeKey} {acts : List (Action FreeKey)}
    (h : acts.all numbered = true) :
    Reaches ledger (play (.genesis ledger) acts) (final (.genesis ledger) acts) :=
  run_final h _

def usdc : FreeKey := .num 10
def admin : FreeKey := .num 20
def alice : FreeKey := .num 21
def aliceUsdc : FreeKey := .num 31
def aliceShares : FreeKey := .num 35
def aliceSpare : FreeKey := .num 36
def aliceOuter : FreeKey := .num 37

/-- The asset of the outer vault: shares of the USDC vault. -/
def shares : FreeKey := shareMintKey usdc

/-- USDC is there, some of it Alice's. -/
def ledger : Ledger FreeKey where
  account k := if k = aliceUsdc then some ⟨.token, usdc, alice, 1000000, none, 0, false⟩ else none
  mint k := if k = usdc then some ⟨.token, some admin, 1000000⟩ else none

def credential : ComplianceCredential FreeKey where
  bump := 255
  wallet := alice
  institutionName := .replicate 64 0
  jurisdiction := .replicate 4 0
  tier := 1
  kycLevel := 1
  amlCoverage := 1
  attestationHash := .replicate 32 0
  issuedAt := 0
  expiresAt := 1000
  status := credentialActive

/-- Alice's credential is the one account other programs hold. -/
def view : View FreeKey := fun k =>
  if k = gateCredentialKey alice then
    some ⟨oragamiVaultProgramId, Borsh.serialize credentialDiscriminator credential⟩
  else none

def factory : Action FreeKey := .program 0 view (.initializeFactory ⟨factoryKey, admin⟩ 0)

def register (assetMint : FreeKey) (navPriceBps : UInt64) : Action FreeKey :=
  .program 0 view (.registerAsset
    { factory := factoryKey, assetVault := assetVaultKey assetMint,
      shareMint := shareMintKey assetMint, vaultTokenAccount := vaultTokenKey assetMint,
      assetMint, authority := admin, tokenProgram := TokenProgram.id }
    { ticker := .replicate 8 0, navPriceBps, minDeposit := 1, maxDeposit := 1000000,
      travelRuleRequired := false })

def openAccount (mint account : FreeKey) : Action FreeKey := .token (.openAccount mint alice account)

def deposit (assetMint source destination : FreeKey) (amount : UInt64) : Action FreeKey :=
  .program 0 view (.deposit
    { assetVault := assetVaultKey assetMint, shareMint := shareMintKey assetMint,
      vaultTokenAccount := vaultTokenKey assetMint, depositorAssetAccount := source,
      depositorShareAccount := destination, credential := gateCredentialKey alice,
      travelRuleData := none, depositor := alice, tokenProgram := TokenProgram.id } amount)

def redeem (assetMint source destination : FreeKey) (amount : UInt64) : Action FreeKey :=
  .program 0 view (.redeem
    { assetVault := assetVaultKey assetMint, shareMint := shareMintKey assetMint,
      vaultTokenAccount := vaultTokenKey assetMint, redeemerShareAccount := source,
      redeemerAssetAccount := destination, redeemer := alice, tokenProgram := TokenProgram.id }
    amount)

def transferShares (assetMint source destination : FreeKey) (amount : UInt64) : Action FreeKey :=
  .program 0 view (.transferShares
    { assetVault := assetVaultKey assetMint, senderShareAccount := source,
      receiverShareAccount := destination, senderCredential := gateCredentialKey alice,
      receiverCredential := gateCredentialKey alice, sender := alice,
      tokenProgram := TokenProgram.id } amount)

def setNav (assetMint : FreeKey) (navPriceBps : UInt64) : Action FreeKey :=
  .program 0 view (.setNav ⟨factoryKey, assetVaultKey assetMint, admin⟩ navPriceBps)

/-- Tokens sent to a vault's account directly. -/
def donate (assetMint source : FreeKey) (amount : UInt64) : Action FreeKey :=
  .token (.transfer source (vaultTokenKey assetMint) alice amount)

/-- Two vaults, one over the shares of the other, and accounts for the shares of both. -/
def setUp : List (Action FreeKey) :=
  [factory, register usdc 10000, register shares 20000, openAccount shares aliceShares,
    openAccount shares aliceSpare, openAccount (shareMintKey shares) aliceOuter]

/-- Everything a holder can do, with the NAV of both vaults moving in between. -/
def nested : List (Action FreeKey) :=
  setUp ++ [deposit usdc aliceUsdc aliceShares 1000, deposit shares aliceShares aliceOuter 400,
    setNav usdc 9000, donate shares aliceShares 7, setNav shares 15000,
    transferShares usdc aliceShares aliceSpare 100, redeem shares aliceOuter aliceShares 50,
    redeem usdc aliceShares aliceUsdc 30]

end Cluster

end MultiAssetVault
