/-
# `Oragami.Backend.MultiAssetVaultService` — what the custody backend says of a vault and a wallet

The service fetches a vault or a credential, and describes it.  `ofChain` fetches
through `multi_asset_vault.idl.json`, as the service does; `stored` is a client that
would read every field as it is stored.

The text of a key or of an integer is that key or integer, and `none` the text of
neither.  Each method takes the time as `Date.now()` has it, in milliseconds.
-/
import Oragami.Backend.Client
import Oragami.Lib.Js

namespace Backend

open Idl

variable {K : Type}

/-- How `(Number(bps) / 10_000).toFixed(4)` prints. -/
class BpsText where
  toFixed : Int → String

/-! ## Fetching -/

/-- `program.account`: a record, or nothing where `fetch` throws. -/
structure MultiAssetVaultProgram (K : Type) where
  assetVault : K → Option (Record K AssetVaultField)
  complianceCredential : K → Option (Record K CredentialField)

namespace MultiAssetVaultProgram

/-- The accounts of the chain, through the service's IDL. -/
def ofChain (s : Chain K) : MultiAssetVaultProgram K where
  assetVault k := (s.multi.vaults k).bind fun v =>
    MultiAssetVaultIdl.assetVault.decode (accountData assetVaultDiscriminator (assetVaultStored v))
  complianceCredential k := (s.vault.credentials k).bind fun c =>
    MultiAssetVaultIdl.complianceCredential.decode
      (accountData MultiAssetVault.credentialDiscriminator (credentialStored c))

/-- The accounts of the chain, each field as it is stored. -/
def stored (s : Chain K) : MultiAssetVaultProgram K where
  assetVault k := (s.multi.vaults k).map fun v => record (assetVaultStored v).values
  complianceCredential k := (s.vault.credentials k).map fun c => record (credentialStored c).values

end MultiAssetVaultProgram

/-! ## Vaults -/

structure AssetVaultInfo (K : Type) where
  assetMint : Option K
  shareMint : Option K
  vaultTokenAccount : Option K
  ticker : String
  navPriceBps : Int
  navDisplay : String
  totalDeposits : Int
  totalSupply : Int
  minDeposit : Int
  maxDeposit : Int
  travelRuleRequired : Bool
  paused : Bool

def tickerFromBytes (bytes : List UInt8) : String :=
  String.ofList (Js.trim (Js.dropNuls (Js.decodeUtf8 bytes)))

def navToDisplay [BpsText] (navBps : Int) : String := "$" ++ BpsText.toFixed navBps

def formatVault [BpsText] (raw : Record K AssetVaultField) : AssetVaultInfo K :=
  let navBps := (raw.num .navPriceBps).getD 10000
  { assetMint := raw.key .assetMint
    shareMint := raw.key .shareMint
    vaultTokenAccount := raw.key .vaultTokenAccount
    ticker := tickerFromBytes ((raw.bytes .ticker).getD [])
    navPriceBps := navBps
    navDisplay := navToDisplay navBps
    totalDeposits := (raw.num .totalDeposits).getD 0
    totalSupply := (raw.num .totalSupply).getD 0
    minDeposit := (raw.num .minDeposit).getD 0
    maxDeposit := (raw.num .maxDeposit).getD 0
    travelRuleRequired := raw.truthy .travelRuleRequired
    paused := raw.truthy .paused }

variable [Addresses K] [Deployment K]

def deriveVaultPda (assetMint : K) : K := MultiAssetVault.assetVaultKey assetMint

/-- Where oragami-vault keeps the credential of a wallet. -/
def deriveCredentialPda (wallet : K) : K := MultiAssetVault.gateCredentialKey wallet

def getVaultByMint [BpsText] (program : MultiAssetVaultProgram K) (assetMintStr : Option K) :
    Except (Exception K) (AssetVaultInfo K) :=
  match assetMintStr with
  | none => .error (.badRequest "Invalid asset mint address")
  | some assetMint =>
      match program.assetVault (deriveVaultPda assetMint) with
      | some raw => .ok (formatVault raw)
      | none => .error (.vaultNotFound assetMint)

/-! ## Credentials -/

inductive CredentialStatus where
  | revoked
  | expired
  | active
  | pending
  | notFound
deriving DecidableEq

def CredentialStatus.text : CredentialStatus → String
  | revoked => "revoked"
  | expired => "expired"
  | active => "active"
  | pending => "pending"
  | notFound => "not_found"

/-- What the answer has of a credential that was found. -/
structure CredentialDetails where
  tier : Int
  kycLevel : Int
  amlCoverage : Int
  jurisdiction : String
  issuedAt : Js.IsoString
  expiresAt : Js.IsoString

structure CredentialCheck (K : Type) where
  wallet : K
  credentialPda : K
  status : CredentialStatus
  details : Option CredentialDetails
  canDeposit : Bool

/-- The status shown for a credential. -/
def statusShown (status expiresAt now : Int) : CredentialStatus :=
  if status = 3 then .revoked
  else if expiresAt < now then .expired
  else if status = 1 then .active
  else .pending

/-- The answer for a credential found; nothing where a date is out of range. -/
def describeCredential (dateNow : Int) (wallet : K) (raw : Record K CredentialField) :
    Option (CredentialCheck K) := do
  let now := dateNow / 1000
  let expiresAt := Js.number ((raw.num .expiresAt).getD 0)
  let status := (raw.num .status).getD 0
  let isActive := status = 1 ∧ now < expiresAt
  let issued ← Js.isoSeconds (Js.number ((raw.num .issuedAt).getD 0))
  let expires ← Js.isoSeconds expiresAt
  pure {
    wallet
    credentialPda := deriveCredentialPda wallet
    status := statusShown status expiresAt now
    details := some {
      tier := (raw.num .tier).getD 0
      kycLevel := (raw.num .kycLevel).getD 0
      amlCoverage := (raw.num .amlCoverage).getD 0
      jurisdiction := String.ofList (Js.dropNuls (Js.decodeUtf8 ((raw.bytes .jurisdiction).getD [])))
      issuedAt := issued
      expiresAt := expires }
    canDeposit := isActive }

/-- The answer where fetching or describing threw. -/
def credentialNotFound (wallet : K) : CredentialCheck K where
  wallet
  credentialPda := deriveCredentialPda wallet
  status := .notFound
  details := none
  canDeposit := false

def verifyCredential (program : MultiAssetVaultProgram K) (dateNow : Int) (walletStr : Option K) :
    Except (Exception K) (CredentialCheck K) :=
  match walletStr with
  | none => .error (.badRequest "Invalid wallet address")
  | some wallet =>
      .ok (((program.complianceCredential (deriveCredentialPda wallet)).bind
        (describeCredential dateNow wallet)).getD (credentialNotFound wallet))

/-! ## Preflight -/

/-- What the answer repeats of the vault. -/
structure PreflightVault where
  ticker : String
  navPriceBps : Int
  navDisplay : String
  paused : Bool
  travelRuleRequired : Bool

structure PreflightResult where
  canDeposit : Bool
  reason : Option String
  requiresTravelRule : Bool
  credentialStatus : CredentialStatus
  vault : PreflightVault
  estimatedShares : Int

/-- Division of `BigInt`s, which throws on zero. -/
def bigDiv (a b : Int) : Option Int := if b = 0 then none else some (a.tdiv b)

/-- The answer about an amount, from what was found and the shares estimated. -/
def preflightAnswer (cred : CredentialCheck K) (vault : AssetVaultInfo K)
    (amountBn estimatedShares : Int) : PreflightResult where
  canDeposit := cred.canDeposit = true ∧ vault.paused = false ∧ vault.minDeposit ≤ amountBn ∧
    amountBn ≤ vault.maxDeposit
  reason :=
    if cred.canDeposit = false then some ("Credential " ++ cred.status.text)
    else if vault.paused = true then some "Vault is paused"
    else if amountBn < vault.minDeposit then some "Below minimum deposit"
    else if vault.maxDeposit < amountBn then some "Exceeds maximum deposit"
    else none
  requiresTravelRule := vault.travelRuleRequired = true ∧ 1000000000 ≤ amountBn
  credentialStatus := cred.status
  vault := {
    ticker := vault.ticker
    navPriceBps := vault.navPriceBps
    navDisplay := vault.navDisplay
    paused := vault.paused
    travelRuleRequired := vault.travelRuleRequired }
  estimatedShares

def preflightDeposit [BpsText] (program : MultiAssetVaultProgram K) (dateNow : Int)
    (walletStr assetMintStr : Option K) (amount : Option Int) :
    Except (Exception K) PreflightResult := do
  let cred ← verifyCredential program dateNow walletStr
  let vault ← getVaultByMint program assetMintStr
  let amountBn ← orThrow amount
  let estimatedShares ← orThrow (bigDiv (amountBn * 10000) vault.navPriceBps)
  pure (preflightAnswer cred vault amountBn estimatedShares)

theorem bigDiv_eq_some {a b q : Int} : bigDiv a b = some q ↔ b ≠ 0 ∧ a.tdiv b = q := by
  unfold bigDiv
  split <;> simp_all

/-- A preflight that is answered found the vault, and its NAV is not zero. -/
theorem preflightDeposit_eq_ok [BpsText] {program : MultiAssetVaultProgram K} {dateNow : Int}
    {wallet assetMint : K} {amount : Int} {r : PreflightResult} :
    preflightDeposit program dateNow (some wallet) (some assetMint) (some amount) = .ok r ↔
      ∃ cred vault, verifyCredential program dateNow (some wallet) = .ok cred ∧
        getVaultByMint program (some assetMint) = .ok vault ∧ vault.navPriceBps ≠ 0 ∧
        r = preflightAnswer cred vault amount ((amount * 10000).tdiv vault.navPriceBps) := by
  simp only [preflightDeposit, Anchor.bind_eq_ok, orThrow_eq_ok, bigDiv_eq_some,
    Anchor.pure_eq_ok]
  constructor
  · rintro ⟨cred, hcred, vault, hvault, a, ha, shares, ⟨hnav, rfl⟩, rfl⟩
    cases ha
    exact ⟨cred, vault, hcred, hvault, hnav, rfl⟩
  · rintro ⟨cred, vault, hcred, hvault, hnav, rfl⟩
    exact ⟨cred, hcred, vault, hvault, amount, rfl, _, ⟨hnav, rfl⟩, rfl⟩

end Backend
