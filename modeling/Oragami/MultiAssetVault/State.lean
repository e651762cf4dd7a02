/-
# `Oragami.MultiAssetVault.State` — accounts, constants and errors of multi-asset-vault

One factory, and for each asset a vault with a share mint and a token account of
its own, all found by the asset's mint.  Credentials and Travel Rule records are
found by address, as in oragami-vault.

The program also reads accounts it does not own: `View` is what it sees of them,
an owner and the raw data.  The credentials its gates ask for are such accounts.
-/
import Oragami.Deployment
import Oragami.Lib.Anchor
import Oragami.Lib.Borsh
import Oragami.Lib.Checked

namespace MultiAssetVault

/-! ## Seeds and constants -/

def factorySeed : String := "factory"
def assetVaultSeed : String := "vault"
def shareMintSeed : String := "share_mint"
def vaultTokenSeed : String := "vault_token"
def credentialSeed : String := "credential"
def travelRuleSeed : String := "travel_rule"

/-- NAV is quoted in these parts of one asset token. -/
def navBpsDenominator : UInt64 := 10000

/-- Most one `set_nav` may move the NAV, in basis points of it. -/
def maxNavChangeBps : UInt64 := 5000

/-- Deposits from this amount on need a Travel Rule record, where the vault asks for them. -/
def travelRuleThreshold : UInt64 := 1000000000

def credentialActive : UInt8 := 1
def credentialRevoked : UInt8 := 3

def maxAssets : Nat := 16

/-- The first eight bytes of the hash of `account:ComplianceCredential`. -/
def credentialDiscriminator : Vector UInt8 8 := #v[211, 133, 119, 195, 6, 38, 240, 69]

/-! ## Errors and events -/

inductive VaultError where
  | assetAlreadyRegistered
  | factoryFull
  | vaultPaused
  | depositTooSmall
  | depositTooLarge
  | insufficientVaultFunds
  | invalidNav
  | navChangeTooLarge
  | credentialNotActive
  | credentialExpired
  | credentialWalletMismatch
  | credentialAlreadyRevoked
  | overflow
  | zeroShares
  | receiverCredentialNotActive
  | receiverCredentialExpired
  | wrongShareMint
  | wrongCredentialProgram
  | invalidCredentialPda
  | travelRuleRequired
  | invalidTravelRule
  | travelRuleAlreadyConsumed
deriving DecidableEq

/-- What an instruction computes. -/
abbrev Mx := Except (Failure VaultError)

inductive Event (K : Type) where
  | depositMade (depositor assetMint : K) (assetAmount sharesMinted navBps : UInt64)
      (timestamp : Int64)
  | redeemMade (redeemer assetMint : K) (sharesBurned assetAmountReturned navBps : UInt64)
      (timestamp : Int64)
  | navUpdated (assetMint : K) (oldNavBps newNavBps : UInt64) (timestamp : Int64)
  | transferMade (assetMint sender receiver : K) (shareAmount navBps : UInt64)
      (timestamp : Int64)

/-! ## Accounts -/

/-- The factory, one account at `factoryKey`. -/
structure Factory (K : Type) where
  bump : UInt8
  authority : K
  feeBps : UInt16
  registeredAssets : List K

/-- The vault of one asset. -/
structure AssetVault (K : Type) where
  bump : UInt8
  assetMint : K
  shareMint : K
  vaultTokenAccount : K
  navPriceBps : UInt64
  totalDeposits : UInt64
  totalSupply : UInt64
  minDeposit : UInt64
  maxDeposit : UInt64
  ticker : Vector UInt8 8
  travelRuleRequired : Bool
  paused : Bool

/-- Travel Rule record of one large deposit. -/
structure TravelRuleData (K : Type) where
  bump : UInt8
  payer : K
  amount : UInt64
  submittedAt : Int64
  consumed : Bool

/-- Credential of one wallet.  The gates read oragami-vault's accounts as this type. -/
structure ComplianceCredential (K : Type) where
  bump : UInt8
  wallet : K
  institutionName : Vector UInt8 64
  jurisdiction : Vector UInt8 4
  tier : UInt8
  kycLevel : UInt8
  amlCoverage : UInt8
  attestationHash : Vector UInt8 32
  issuedAt : Int64
  expiresAt : Int64
  status : UInt8

instance {K : Type} : Borsh K (ComplianceCredential K) :=
  Borsh.via
    (fun c => (c.bump, c.wallet, c.institutionName, c.jurisdiction, c.tier, c.kycLevel,
      c.amlCoverage, c.attestationHash, c.issuedAt, c.expiresAt, c.status))
    (fun (b, w, n, j, t, l, c, h, i, e, s) => ⟨b, w, n, j, t, l, c, h, i, e, s⟩) fun _ => rfl

/-- The accounts multi-asset-vault owns. -/
structure Accounts (K : Type) where
  factory : Option (Factory K)
  vaults : K → Option (AssetVault K)
  credentials : K → Option (ComplianceCredential K)
  travelRules : K → Option (TravelRuleData K)

def Accounts.genesis {K : Type} : Accounts K :=
  ⟨none, fun _ => none, fun _ => none, fun _ => none⟩

/-- The accounts of the program and the token ledger. -/
structure State (K : Type) extends Accounts K where
  ledger : Ledger K

/-- What a successful instruction leaves behind. -/
abbrev Outcome (K : Type) := State K × Option (Event K)

/-- An account of another program. -/
structure RawAccount (K : Type) where
  owner : K
  data : List (Cell K)

/-- The accounts of other programs, by address. -/
abbrev View (K : Type) := K → Option (RawAccount K)

/-! ## Addresses -/

section Addresses

open Addresses

variable {K : Type} [Addresses K] [Deployment K]

def programId : K := Deployment.multiAssetVault

/-- `ORAGAMI_VAULT_PROGRAM_ID`. -/
def oragamiVaultProgramId : K := Deployment.oragamiVault

def factoryKey : K := find programId [.text factorySeed]

def assetVaultKey (assetMint : K) : K := find programId [.text assetVaultSeed, .key assetMint]

def shareMintKey (assetMint : K) : K := find programId [.text shareMintSeed, .key assetMint]

def vaultTokenKey (assetMint : K) : K := find programId [.text vaultTokenSeed, .key assetMint]

/-- Where this program keeps the credentials it issues. -/
def ownCredentialKey (wallet : K) : K := find programId [.text credentialSeed, .key wallet]

/-- Where its gates look for them. -/
def gateCredentialKey (wallet : K) : K :=
  find oragamiVaultProgramId [.text credentialSeed, .key wallet]

def travelRuleKey (payer : K) (nonceHash : Vector UInt8 32) : K :=
  find programId [.text travelRuleSeed, .key payer, .digest nonceHash]

/-- An address only multi-asset-vault signs for. -/
def Owned (k : K) : Prop := DerivedBy programId k

theorem owned_assetVaultKey (assetMint : K) : Owned (assetVaultKey assetMint) :=
  derivedBy_find _ _

end Addresses

/-! ## Loading accounts -/

section Load

open Anchor Addresses

variable {K : Type} [DecidableEq K] [Addresses K] [Deployment K]

/-- The factory: the only account of its type lives at `factoryKey`. -/
def State.loadFactory (s : State K) (k : K) : Mx (Factory K) := do
  let f ← orFail (if k = factoryKey then s.factory else none) (.anchor .accountNotInitialized)
  seeds k (derive programId [.text factorySeed] f.bump)
  pure f

/-- `has_one = authority`. -/
def hasOneAuthority (f : Factory K) (authority : K) : Mx Unit :=
  ensure (f.authority = authority) (.anchor .constraintHasOne)

/-- A vault, at the address its own asset mint and bump derive. -/
def State.loadVault (s : State K) (k : K) : Mx (AssetVault K) := do
  let v ← orFail (s.vaults k) (.anchor .accountNotInitialized)
  seeds k (derive programId [.text assetVaultSeed, .key v.assetMint] v.bump)
  pure v

variable {s : State K} {k : K}

theorem loadFactory_eq_ok {f : Factory K} :
    s.loadFactory k = .ok f ↔
      k = factoryKey ∧ s.factory = some f ∧ k = derive programId [.text factorySeed] f.bump := by
  simp only [State.loadFactory, bind_eq_ok, orFail_eq_ok, seeds_eq_ok, pure_eq_ok]
  constructor
  · rintro ⟨f', hf, _, hk, rfl⟩
    split at hf
    · next h => exact ⟨h, hf, hk⟩
    · cases hf
  · rintro ⟨h, hf, hk⟩
    exact ⟨f, by rw [if_pos h, hf], (), hk, rfl⟩

omit [Addresses K] [Deployment K] in
theorem hasOneAuthority_eq_ok {f : Factory K} {authority : K} {u : Unit} :
    hasOneAuthority f authority = .ok u ↔ f.authority = authority :=
  ensure_eq_ok

theorem loadVault_eq_ok {v : AssetVault K} :
    s.loadVault k = .ok v ↔
      s.vaults k = some v ∧ k = derive programId [.text assetVaultSeed, .key v.assetMint] v.bump := by
  simp only [State.loadVault, bind_eq_ok, orFail_eq_ok, seeds_eq_ok, pure_eq_ok]
  constructor
  · rintro ⟨v', hv, _, hk, rfl⟩
    exact ⟨hv, hk⟩
  · rintro ⟨hv, hk⟩
    exact ⟨v, hv, (), hk, rfl⟩

theorem loadVault_ne_code {e : VaultError} : s.loadVault k ≠ .error (.code e) := by
  simp only [State.loadVault, bind_eq_error, orFail_eq_error, seeds_ne_code, pure_ne_error,
    reduceCtorEq, and_false, exists_false, or_self, not_false_eq_true, ne_eq]

end Load

end MultiAssetVault
