/-
# `Oragami.Chain.Scenario` — runs of the chain from lists of actions

As for oragami-vault alone, a list of actions is played and the refused ones drop
out.  The chain of the closed runs is the cluster of oragami-vault, with one asset
registered in multi-asset-vault whose vault asks for Travel Rule records.
-/
import Oragami.Chain.Step
import Oragami.OragamiVault.Scenario

namespace Chain

open Lts

section Play

variable {K : Type}

/-- Who has to sign for an action. -/
def Action.signer : Action K → Option K
  | .vault _ c => c.signer
  | .multi _ c => some c.signer
  | .token c => some c.signer

variable [DecidableEq K] [Addresses K] [Deployment K] [TokenProgram K]

/-- The state after an action, if it is accepted. -/
def Action.apply (s : Chain K) : Action K → Option (Chain K)
  | .vault now c =>
      match c.exec now s.vaultSide with
      | .ok (v, _) => some (s.setVaultSide v)
      | .error _ => none
  | .multi now c =>
      match c.exec now s.view s.multiSide with
      | .ok (m, _) => some (s.setMultiSide m)
      | .error _ => none
  | .token c => (c.run s.ledger).map fun L => { s with ledger := L }

theorem Step.of_apply {s s' : Chain K} {act : Action K} (h : act.apply s = some s')
    (hsig : ∀ k ∈ act.signer, ¬ Owned k) : Step s act s' := by
  cases act with
  | vault now c =>
      simp only [Action.apply] at h
      split at h
      · next heq =>
          cases h
          exact .vault hsig heq
      · cases h
  | multi now c =>
      simp only [Action.apply] at h
      split at h
      · next heq =>
          cases h
          exact .multi (hsig _ rfl) heq
      · cases h
  | token c =>
      obtain ⟨L, hL, rfl⟩ := Option.map_eq_some_iff.mp h
      exact .token (hsig _ rfl) hL

/-- The accepted actions of a list, each where it was played. -/
abbrev play (s : Chain K) (acts : List (Action K)) : List (Transition (Chain K) (Action K)) :=
  Lts.play Action.apply s acts

/-- Where playing a list of actions ends. -/
abbrev final (s : Chain K) (acts : List (Action K)) : Chain K := Lts.final Action.apply s acts

end Play

namespace Cluster

open OragamiVault.Cluster (usdc tradeMint admin alice aliceUsdc aliceCvault aliceTrade)

/-- Numbered keys sign; derived ones do not. -/
def numbered (act : Action FreeKey) : Bool :=
  match act.signer with
  | some (.num _) => true
  | some _ => false
  | none => true

theorem not_owned_num {n : Nat} : ¬ Owned (FreeKey.num n) := by
  rintro (h | h)
  · exact FreeKey.not_derivedBy_num h
  · exact FreeKey.not_derivedBy_num h

theorem run_final {acts : List (Action FreeKey)} (h : acts.all numbered = true)
    (s : Chain FreeKey) : Run Step s (play s acts) (final s acts) := by
  refine Lts.play_run (P := fun act => ∀ k ∈ act.signer, ¬ Owned k) Step.of_apply ?_ _
  intro act hact k hk
  have hs := List.all_eq_true.mp h act hact
  simp only [numbered, Option.mem_def.mp hk] at hs
  split at hs
  · exact Option.some.inj ‹_› ▸ not_owned_num
  · cases hs
  · cases ‹some _ = none›

theorem reaches_final {ledger : Ledger FreeKey} {acts : List (Action FreeKey)}
    (h : acts.all numbered = true) :
    Reaches ledger (play (genesis ledger) acts) (final (genesis ledger) acts) :=
  run_final h _

def aliceShares : FreeKey := .num 35

/-- The cluster of oragami-vault, with enough USDC for large deposits. -/
def ledger : Ledger FreeKey where
  account k :=
    if k = aliceUsdc then some ⟨.token, usdc, alice, 9000000000, none, 0, false⟩
    else if k = aliceTrade then some ⟨.token, tradeMint, alice, 0, none, 0, false⟩
    else none
  mint k :=
    if k = usdc then some ⟨.token, some admin, 9000000000⟩
    else if k = tradeMint then some ⟨.token, some OragamiVault.vaultStateKey, 0⟩
    else none

/-- An action of the cluster of oragami-vault. -/
def lift : OragamiVault.Action FreeKey → Action FreeKey
  | .program now c => .vault now c
  | .token c => .token c

def factory : Action FreeKey :=
  .multi 0 (.initializeFactory ⟨MultiAssetVault.factoryKey, admin⟩ 0)

def register : Action FreeKey :=
  .multi 0 (.registerAsset
    { factory := MultiAssetVault.factoryKey, assetVault := MultiAssetVault.assetVaultKey usdc,
      shareMint := MultiAssetVault.shareMintKey usdc,
      vaultTokenAccount := MultiAssetVault.vaultTokenKey usdc, assetMint := usdc,
      authority := admin, tokenProgram := TokenProgram.id }
    { ticker := .replicate 8 0, navPriceBps := 10000, minDeposit := 1,
      maxDeposit := 1000000000000, travelRuleRequired := true })

def openShares : Action FreeKey :=
  .token (.openAccount (MultiAssetVault.shareMintKey usdc) alice aliceShares)

def nonce : Vector UInt8 32 := .replicate 32 7

/-- Alice announces a large deposit to either program. -/
def announceVault (amount : UInt64) : Action FreeKey :=
  .vault 0 (.initTravelRule
    { travelRuleData := OragamiVault.travelRuleKey alice nonce, payer := alice }
    { originatorName := .replicate 64 0, originatorAccount := .replicate 34 0,
      beneficiaryName := .replicate 64 0, complianceHash := .replicate 32 0, amount,
      nonceHash := nonce })

def announceMulti (amount : UInt64) : Action FreeKey :=
  .multi 0 (.initTravelRule
    { travelRuleData := MultiAssetVault.travelRuleKey alice nonce, payer := alice } amount nonce)

def depositVault (amount : UInt64) : Action FreeKey :=
  .vault 0 (.deposit
    { vaultState := OragamiVault.vaultStateKey, cvaultMint := OragamiVault.cvaultMintKey,
      vaultTokenAccount := OragamiVault.vaultTokenKey, payerDepositAccount := aliceUsdc,
      payerCvaultAccount := aliceCvault, investorCredential := OragamiVault.credentialKey alice,
      travelRuleData := some (OragamiVault.travelRuleKey alice nonce), payer := alice,
      tokenProgram := TokenProgram.id } amount)

def depositMulti (amount : UInt64) : Action FreeKey :=
  .multi 0 (.deposit
    { assetVault := MultiAssetVault.assetVaultKey usdc,
      shareMint := MultiAssetVault.shareMintKey usdc,
      vaultTokenAccount := MultiAssetVault.vaultTokenKey usdc, depositorAssetAccount := aliceUsdc,
      depositorShareAccount := aliceShares, credential := OragamiVault.credentialKey alice,
      travelRuleData := some (MultiAssetVault.travelRuleKey alice nonce), depositor := alice,
      tokenProgram := TokenProgram.id } amount)

def bob : FreeKey := .num 22
def bobShares : FreeKey := .num 38

/-- Bob, who has no credential, opens an account for shares. -/
def openBob : Action FreeKey :=
  .token (.openAccount (MultiAssetVault.shareMintKey usdc) bob bobShares)

/-- multi-asset-vault issues Alice a credential of its own, -/
def issueHere : Action FreeKey :=
  .multi 0 (.issueCredential
    { factory := MultiAssetVault.factoryKey, credential := MultiAssetVault.ownCredentialKey alice,
      wallet := alice, authority := admin }
    { institutionName := .replicate 64 0, jurisdiction := .replicate 4 0, tier := 1, kycLevel := 1,
      amlCoverage := 1, expiresAt := 1000 })

/-- and revokes it. -/
def revokeHere : Action FreeKey :=
  .multi 0 (.revokeCredential
    { factory := MultiAssetVault.factoryKey, credential := MultiAssetVault.ownCredentialKey alice,
      authority := admin })

def aliceSpare : FreeKey := .num 39

/-- A second account for Alice's shares. -/
def openSpare : Action FreeKey :=
  .token (.openAccount (MultiAssetVault.shareMintKey usdc) alice aliceSpare)

/-- A vault over the shares of the first. -/
def registerOver : Action FreeKey :=
  .multi 0 (.registerAsset
    { factory := MultiAssetVault.factoryKey,
      assetVault := MultiAssetVault.assetVaultKey (MultiAssetVault.shareMintKey usdc),
      shareMint := MultiAssetVault.shareMintKey (MultiAssetVault.shareMintKey usdc),
      vaultTokenAccount := MultiAssetVault.vaultTokenKey (MultiAssetVault.shareMintKey usdc),
      assetMint := MultiAssetVault.shareMintKey usdc, authority := admin,
      tokenProgram := TokenProgram.id }
    { ticker := .replicate 8 0, navPriceBps := 10000, minDeposit := 1,
      maxDeposit := 1000000000000, travelRuleRequired := false })

/-- Alice deposits too little for the Travel Rule, for shares in `destination`. -/
def depositInto (destination : FreeKey) (amount : UInt64) : Action FreeKey :=
  .multi 0 (.deposit
    { assetVault := MultiAssetVault.assetVaultKey usdc,
      shareMint := MultiAssetVault.shareMintKey usdc,
      vaultTokenAccount := MultiAssetVault.vaultTokenKey usdc, depositorAssetAccount := aliceUsdc,
      depositorShareAccount := destination, credential := OragamiVault.credentialKey alice,
      travelRuleData := none, depositor := alice, tokenProgram := TokenProgram.id } amount)

/-- The accounts of a transfer Alice signs, between accounts of any owner and Alice. -/
def toAlice (source : FreeKey) : MultiAssetVault.TransferShares FreeKey :=
  { assetVault := MultiAssetVault.assetVaultKey usdc, senderShareAccount := source,
    receiverShareAccount := aliceShares, senderCredential := OragamiVault.credentialKey alice,
    receiverCredential := OragamiVault.credentialKey alice, sender := alice,
    tokenProgram := TokenProgram.id }

/-- Both programs are open, and Alice may deposit with either. -/
def setUp : List (Action FreeKey) :=
  OragamiVault.Cluster.setUp.map lift ++ [factory, register, openShares]

/-- She announces and makes a large deposit with each. -/
def twoDeposits : List (Action FreeKey) :=
  setUp ++ [announceVault 2000000000, announceMulti 3000000000, depositMulti 3000000000,
    depositVault 2000000000]

theorem twoDeposits_reaches :
    Reaches ledger (play (genesis ledger) twoDeposits) (final (genesis ledger) twoDeposits) :=
  reaches_final (by decide)

/-- The last two actions are played, so they are accepted. -/
theorem twoDeposits_played :
    (play (genesis ledger) twoDeposits)[11]?.map (·.label) = some (depositMulti 3000000000) ∧
      (play (genesis ledger) twoDeposits)[12]?.map (·.label) = some (depositVault 2000000000) :=
  ⟨rfl, rfl⟩

end Cluster

end Chain
