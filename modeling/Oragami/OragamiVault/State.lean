/-
# `Oragami.OragamiVault.State` — accounts, constants and errors of oragami-vault

The accounts the program owns, with the fields the source declares, and the
state of a cluster as far as the program can see it: its own accounts and the
token ledger.  Accounts that exist once, at a fixed address, are options;
credentials and Travel Rule records are found by address.

The loaders at the end are the account constraints the instruction contexts
share.
-/
import Oragami.Deployment
import Oragami.Lib.Anchor
import Oragami.Lib.Checked

namespace OragamiVault

/-! ## Seeds and constants -/

def cvaultMintSeed : String := "cvault_mint"
def vaultStateSeed : String := "vault_state"
def vaultTokenSeed : String := "vault_token_account"
def complianceCredentialSeed : String := "credential"
def travelRuleSeed : String := "travel_rule"
def rwaAssetRegistrySeed : String := "rwa_asset_registry"
def vaultMandateSeed : String := "vault_mandate"
def reserveAttestationSeed : String := "reserve_attestation"

/-- Oldest attestation proof of reserve accepts, in seconds. -/
def maxAttestationAgeSecs : Int64 := 86400

/-- NAV is quoted in these parts of one USDC. -/
def navBpsDenominator : UInt64 := 10000

/-- Deposits from this amount on need a Travel Rule record. -/
def travelRuleThreshold : UInt64 := 1000000000

def secondsInDay : UInt64 := 24 * 60 * 60

def credentialStatusActive : UInt8 := 1
def credentialStatusRevoked : UInt8 := 3

/-! ## Errors and events -/

inductive ErrorCode where
  | vaultPaused
  | depositTooSmall
  | depositTooLarge
  | insufficientVaultFunds
  | overflow
  | invalidAllocation
  | secondaryMarketDisabled
  | complianceCheckFailed
  | invalidNav
  | navChangeTooLarge
  | invalidCredential
  | credentialExpired
  | travelRuleRequired
  | invalidTravelRule
  | operatorNotAuthorized
  | invalidRegistry
  | invalidMandate
  | mandateBreached
  | proofOfReserveFailed
  | liquidityAllocationBreached
  | invalidVaultTokenAccount
  | attestationStale
  | attestationHashMismatch
deriving DecidableEq

/-- What an instruction computes. -/
abbrev Ix := Except (Failure ErrorCode)

inductive Event (K : Type) where
  | yieldDistributed (usdcYield : UInt64) (timestamp : Int64)
  | navUpdated (navPriceBps : UInt64) (timestamp : Int64) (assetId : Vector UInt8 16)
  | proofOfReserveOk (vault : K) (totalAssets totalDeposits : UInt64)
      (minCollateralRatioBps : UInt16) (goldUnitsHeld : UInt64) (attestedAt : Int64)
  | reserveAttested (vault : K) (attestationHash : Vector UInt8 32)
      (goldUnitsHeld usdcValueBps : UInt64) (attestedAt : Int64)
  | depositMade (payer : K) (usdcAmount cvaultAmount : UInt64) (timestamp : Int64)

/-! ## Accounts -/

/-- Central vault state, one account at `vaultStateKey`. -/
structure VaultState (K : Type) where
  bump : UInt8
  cvaultMint : K
  cvaultTradeMint : K
  vaultTokenAccount : K
  treasury : K
  authority : K
  minDeposit : UInt64
  maxDeposit : UInt64
  usxAllocationBps : UInt16
  apyBps : UInt16
  paused : Bool
  totalDeposits : UInt64
  totalSupply : UInt64
  lastYieldClaim : Int64
  pendingYield : UInt64
  secondaryMarketEnabled : Bool
  navPriceBps : UInt64
  usxMint : K
  eusxMint : K
  vaultUsxAccount : K
  vaultEusxAccount : K
  operator : K

structure ReserveAttestation (K : Type) where
  bump : UInt8
  vault : K
  attestationHash : Vector UInt8 32
  goldUnitsHeld : UInt64
  usdcValueBps : UInt64
  attestedAt : Int64
  attestedBy : K

structure RwaAssetRegistry (K : Type) where
  bump : UInt8
  vault : K
  assetId : Vector UInt8 16
  isin : Vector UInt8 12
  commodityCode : Vector UInt8 8
  custodian : K
  linkHash : Vector UInt8 32
  lastVerifiedAt : Int64

structure VaultMandate (K : Type) where
  bump : UInt8
  vault : K
  minLiquidityBufferBps : UInt16
  maxUsxAllocationBps : UInt16
  minCollateralRatioBps : UInt16
  allowedAssetTypes : Vector UInt8 8
  leverageAllowed : Bool
  liquidityEnforcementActive : Bool

/-- Soulbound compliance credential of one wallet. -/
structure ComplianceCredential (K : Type) where
  bump : UInt8
  wallet : K
  institutionName : Vector UInt8 64
  jurisdiction : Vector UInt8 4
  tier : UInt8
  kycLevel : UInt8
  amlCoverage : UInt8
  attestationHash : Vector UInt8 32
  issuedAt : Int64
  expiresAt : Int64
  status : UInt8

/-- Travel Rule record of one large deposit. -/
structure TravelRuleData (K : Type) where
  bump : UInt8
  payer : K
  originatorName : Vector UInt8 64
  originatorAccount : Vector UInt8 34
  beneficiaryName : Vector UInt8 64
  complianceHash : Vector UInt8 32
  amount : UInt64
  submittedAt : Int64
  consumed : Bool

/-- The accounts oragami-vault owns. -/
structure Accounts (K : Type) where
  vaultState : Option (VaultState K)
  rwaAssetRegistry : Option (RwaAssetRegistry K)
  vaultMandate : Option (VaultMandate K)
  reserveAttestation : Option (ReserveAttestation K)
  credentials : K → Option (ComplianceCredential K)
  travelRules : K → Option (TravelRuleData K)

/-- The accounts of the program and the token ledger. -/
structure State (K : Type) extends Accounts K where
  ledger : Ledger K

/-- The cluster before `initialize_vault`: any token accounts, none of the program's. -/
def State.genesis {K : Type} (ledger : Ledger K) : State K where
  vaultState := none
  rwaAssetRegistry := none
  vaultMandate := none
  reserveAttestation := none
  credentials _ := none
  travelRules _ := none
  ledger

/-- What a successful instruction leaves behind. -/
abbrev Outcome (K : Type) := State K × Option (Event K)

/-! ## Addresses -/

section Addresses

open Addresses

variable {K : Type} [Addresses K] [Deployment K]

def programId : K := Deployment.oragamiVault

def vaultStateKey : K := find programId [.text vaultStateSeed]

def cvaultMintKey : K := find programId [.text cvaultMintSeed]

def vaultTokenKey : K := find programId [.text vaultTokenSeed]

def credentialKey (wallet : K) : K :=
  find programId [.text complianceCredentialSeed, .key wallet]

def travelRuleKey (payer : K) (nonceHash : Vector UInt8 32) : K :=
  find programId [.text travelRuleSeed, .key payer, .digest nonceHash]

def rwaAssetRegistryKey : K := find programId [.text rwaAssetRegistrySeed, .key vaultStateKey]

def vaultMandateKey : K := find programId [.text vaultMandateSeed, .key vaultStateKey]

def reserveAttestationKey : K :=
  find programId [.text reserveAttestationSeed, .key vaultStateKey]

/-- An address only oragami-vault signs for. -/
def Owned (k : K) : Prop := DerivedBy programId k

theorem owned_vaultStateKey : Owned (vaultStateKey : K) := derivedBy_find _ _

end Addresses

/-! ## Authority and operator -/

section Auth

variable {K : Type} [DecidableEq K] [Addresses K]

/-- The operator, or the authority where none is set. -/
def operatorPubkey (vs : VaultState K) : K :=
  if vs.operator = Addresses.default then vs.authority else vs.operator

def requireOperator (vs : VaultState K) (signer : K) : Ix Unit :=
  Anchor.require (operatorPubkey vs = signer) .operatorNotAuthorized

end Auth

/-! ## Loading accounts -/

section Load

open Anchor Addresses

variable {K : Type} [DecidableEq K] [Addresses K] [Deployment K]

/-- The vault state: the only account of its type lives at `vaultStateKey`. -/
def State.loadVaultState (s : State K) (k : K) : Ix (VaultState K) := do
  let vs ← orFail (if k = vaultStateKey then s.vaultState else none)
    (.anchor .accountNotInitialized)
  seeds k (derive programId [.text vaultStateSeed] vs.bump)
  pure vs

/-- An account derived from the vault's: `seed` and the vault's key give its address, and
it names the vault in its own `vault` field. -/
def loadOfVault {α : Type} (k : K) (stored : Option α) (seed : String) (bump : α → UInt8)
    (vault : α → K) (e : ErrorCode) : Ix α := do
  let x ← orFail (if k = find programId [.text seed, .key vaultStateKey] then stored else none)
    (.anchor .accountNotInitialized)
  seeds k (derive programId [.text seed, .key vaultStateKey] (bump x))
  require (vault x = vaultStateKey) e
  pure x

def State.loadRegistry (s : State K) (k : K) : Ix (RwaAssetRegistry K) :=
  loadOfVault k s.rwaAssetRegistry rwaAssetRegistrySeed (·.bump) (·.vault) .invalidRegistry

def State.loadMandate (s : State K) (k : K) : Ix (VaultMandate K) :=
  loadOfVault k s.vaultMandate vaultMandateSeed (·.bump) (·.vault) .invalidMandate

def State.loadAttestation (s : State K) (k : K) : Ix (ReserveAttestation K) :=
  loadOfVault k s.reserveAttestation reserveAttestationSeed (·.bump) (·.vault) .invalidMandate

variable {s : State K} {k : K}

theorem loadVaultState_eq_ok {vs : VaultState K} :
    s.loadVaultState k = .ok vs ↔
      k = vaultStateKey ∧ s.vaultState = some vs ∧
        k = derive programId [.text vaultStateSeed] vs.bump := by
  simp only [State.loadVaultState, bind_eq_ok, orFail_eq_ok, seeds_eq_ok, pure_eq_ok]
  constructor
  · rintro ⟨vs', hvs, _, hk, rfl⟩
    split at hvs
    · next h => exact ⟨h, hvs, hk⟩
    · cases hvs
  · rintro ⟨h, hvs, hk⟩
    exact ⟨vs, by rw [if_pos h, hvs], (), hk, rfl⟩

theorem loadVaultState_ne_code {e : ErrorCode} : s.loadVaultState k ≠ .error (.code e) := by
  simp only [State.loadVaultState, bind_eq_error, orFail_eq_error, seeds, ensure_eq_error,
    pure_ne_error, reduceCtorEq, and_false, exists_false, or_self, not_false_eq_true, ne_eq]

theorem loadOfVault_stored {α : Type} {stored : Option α} {seed : String} {bump : α → UInt8}
    {vault : α → K} {e : ErrorCode} {x : α}
    (h : loadOfVault k stored seed bump vault e = .ok x) : stored = some x := by
  simp only [loadOfVault, bind_eq_ok, orFail_eq_ok, pure_eq_ok] at h
  obtain ⟨x', hx, _, -, _, -, rfl⟩ := h
  split at hx
  · exact hx
  · cases hx

theorem loadOfVault_code {α : Type} {stored : Option α} {seed : String} {bump : α → UInt8}
    {vault : α → K} {e e' : ErrorCode}
    (h : loadOfVault k stored seed bump vault e = .error (.code e')) : e = e' := by
  simp only [loadOfVault, bind_eq_error, orFail_eq_error, seeds_ne_code, require_eq_error,
    pure_ne_error, Failure.code.injEq, reduceCtorEq, and_false, false_or, or_false,
    exists_false] at h
  obtain ⟨_, _, _, _, _, he⟩ := h
  exact he

end Load

end OragamiVault
