/-
# `Oragami.TransferHook.Program` — cvault-transfer-hook

The compliance configuration, the whitelist, and the handlers that keep them;
`transferHook`, which checks a transfer against both; and `fallback`, which takes
whatever data is for none of them.  Who has signed, and what may be written, is
asked before a handler runs (`Oragami.TransferHook.Entry`).
-/
import Oragami.Deployment
import Oragami.Lib.Anchor
import Oragami.Lib.Borsh
import Oragami.Lib.Checked

namespace TransferHook

open Anchor Addresses

/-! ## Seeds and errors -/

def whitelistSeed : String := "whitelist"
def complianceSeed : String := "compliance"
def extraAccountMetasSeed : String := "extra-account-metas"

inductive TransferHookError where
  | notWhitelisted
  | kycNotCompleted
  | amlCheckFailed
  | travelRuleNotSatisfied
  | entryExpired
  | transferDisabled
  | unauthorized
deriving DecidableEq

/-- What an instruction computes. -/
abbrev Hx := Except (Failure TransferHookError)

/-! ## Accounts -/

structure WhitelistEntry (K : Type) where
  wallet : K
  kycCompliant : Bool
  amlClear : Bool
  travelRuleCompliant : Bool
  addedAt : Int64
  expiry : Int64
  bump : UInt8

structure ComplianceConfig (K : Type) where
  authority : K
  complianceOracle : K
  minKycLevel : UInt8
  allowTransfers : Bool
  bump : UInt8

/-- A seed of a registered account, resolved at the time of a transfer. -/
inductive MetaSeed where
  | literal (bytes : String)
  /-- The key of the account at `index` of the Execute instruction. -/
  | accountKey (index : Nat)
deriving DecidableEq

structure ExtraAccountMeta where
  seeds : List MetaSeed
  isSigner : Bool
  isWritable : Bool
deriving DecidableEq

/-- The accounts the program owns. -/
structure State (K : Type) where
  config : Option (ComplianceConfig K)
  entries : K → Option (WhitelistEntry K)
  metas : K → Option (List ExtraAccountMeta)

def State.genesis {K : Type} : State K := ⟨none, fun _ => none, fun _ => none⟩

variable {K : Type} [DecidableEq K] [Addresses K] [Deployment K]

def programId : K := Deployment.cvaultTransferHook

def complianceKey : K := find programId [.text complianceSeed]

def whitelistKey (owner : K) : K := find programId [.text whitelistSeed, .key owner]

def extraAccountMetasKey (mint : K) : K := find programId [.text extraAccountMetasSeed, .key mint]

def State.loadConfig (st : State K) (k : K) : Hx (ComplianceConfig K) := do
  let config ← orFail (if k = complianceKey then st.config else none)
    (.anchor .accountNotInitialized)
  seeds k (derive programId [.text complianceSeed] config.bump)
  pure config

def hasOneAuthority (config : ComplianceConfig K) (authority : K) : Hx Unit :=
  ensure (config.authority = authority) (.anchor .constraintHasOne)

/-! ## Configuration -/

structure InitializeComplianceParams (K : Type) where
  authority : K
  complianceOracle : K

structure InitializeCompliance (K : Type) where
  config : K
  payer : K

def initializeCompliance (a : InitializeCompliance K) (p : InitializeComplianceParams K)
    (st : State K) : Hx (State K) := do
  seeds a.config complianceKey
  init st.config.isNone
  let config : ComplianceConfig K := {
    authority := p.authority
    complianceOracle := p.complianceOracle
    minKycLevel := 1
    allowTransfers := true
    bump := canonicalBump (programId : K) [.text complianceSeed] }
  pure { st with config := some config }

structure UpdateComplianceParams (K : Type) where
  allowTransfers : Option Bool
  minKycLevel : Option UInt8
  complianceOracle : Option K

structure UpdateCompliance (K : Type) where
  config : K
  authority : K

def updateCompliance (a : UpdateCompliance K) (p : UpdateComplianceParams K) (st : State K) :
    Hx (State K) := do
  let config ← st.loadConfig a.config
  hasOneAuthority config a.authority
  let config := { config with
    allowTransfers := p.allowTransfers.getD config.allowTransfers
    minKycLevel := p.minKycLevel.getD config.minKycLevel
    complianceOracle := p.complianceOracle.getD config.complianceOracle }
  pure { st with config := some config }

/-! ## Registration of the extra accounts -/

/-- The accounts Token-2022 is to add to every transfer: the configuration, and two
whitelist entries whose second seed is an account of the Execute instruction. -/
def extraAccountMetas : List ExtraAccountMeta :=
  [⟨[.literal complianceSeed], false, false⟩,
    ⟨[.literal whitelistSeed, .accountKey 3], false, false⟩,
    ⟨[.literal whitelistSeed, .accountKey 2], false, false⟩]

structure InitializeExtraAccountMetas (K : Type) where
  extraAccountMetas : K
  mint : K
  payer : K

def initializeExtraAccountMetas (a : InitializeExtraAccountMetas K) (st : State K) :
    Hx (State K) := do
  seeds a.extraAccountMetas (extraAccountMetasKey a.mint)
  init (st.metas a.extraAccountMetas).isNone
  pure { st with
    metas := Function.update st.metas a.extraAccountMetas (some TransferHook.extraAccountMetas) }

/-! ## The whitelist -/

/-- `now + days * 86400`, in checked `i64`. -/
def expiryAfter (now days : Int64) : Hx Int64 := do
  let span ← orFail (Checked.mulI days 86400) .panic
  orFail (Checked.addI now span) .panic

structure AddWhitelistParams where
  kycCompliant : Bool
  amlClear : Bool
  travelRuleCompliant : Bool
  expiryDays : Int64

structure AddToWhitelist (K : Type) where
  config : K
  entry : K
  wallet : K
  payer : K
  authority : K

def addToWhitelist (now : Int64) (a : AddToWhitelist K) (p : AddWhitelistParams)
    (st : State K) : Hx (State K) := do
  let config ← st.loadConfig a.config
  seeds a.entry (whitelistKey a.wallet)
  init (st.entries a.entry).isNone
  hasOneAuthority config a.authority
  let expiry ← expiryAfter now p.expiryDays
  let entry : WhitelistEntry K := {
    wallet := a.wallet
    kycCompliant := p.kycCompliant
    amlClear := p.amlClear
    travelRuleCompliant := p.travelRuleCompliant
    addedAt := now
    expiry
    bump := canonicalBump (programId : K) [.text whitelistSeed, .key a.wallet] }
  pure { st with entries := Function.update st.entries a.entry (some entry) }

structure RemoveFromWhitelist (K : Type) where
  config : K
  entry : K
  wallet : K
  authority : K

/-- The entry is closed. -/
def removeFromWhitelist (a : RemoveFromWhitelist K) (st : State K) : Hx (State K) := do
  let config ← st.loadConfig a.config
  let entry ← orFail (st.entries a.entry) (.anchor .accountNotInitialized)
  hasOneAuthority config a.authority
  seeds a.entry (derive programId [.text whitelistSeed, .key a.wallet] entry.bump)
  pure { st with entries := Function.update st.entries a.entry none }

structure UpdateWhitelistParams where
  kycCompliant : Option Bool
  amlClear : Option Bool
  travelRuleCompliant : Option Bool
  extendExpiryDays : Option Int64

structure UpdateWhitelist (K : Type) where
  config : K
  entry : K
  authority : K

def updateWhitelist (now : Int64) (a : UpdateWhitelist K) (p : UpdateWhitelistParams)
    (st : State K) : Hx (State K) := do
  let config ← st.loadConfig a.config
  let entry ← orFail (st.entries a.entry) (.anchor .accountNotInitialized)
  hasOneAuthority config a.authority
  seeds a.entry (derive programId [.text whitelistSeed, .key entry.wallet] entry.bump)
  let expiry ← match p.extendExpiryDays with
    | some days => expiryAfter now days
    | none => pure entry.expiry
  let entry := { entry with
    kycCompliant := p.kycCompliant.getD entry.kycCompliant
    amlClear := p.amlClear.getD entry.amlClear
    travelRuleCompliant := p.travelRuleCompliant.getD entry.travelRuleCompliant
    expiry }
  pure { st with entries := Function.update st.entries a.entry (some entry) }

/-! ## The transfer check -/

def validateWhitelistEntry (now : Int64) (entry : WhitelistEntry K) : Hx Unit := do
  require entry.kycCompliant .kycNotCompleted
  require entry.amlClear .amlCheckFailed
  require entry.travelRuleCompliant .travelRuleNotSatisfied
  require (now < entry.expiry) .entryExpired

/-- The `TransferHook` context. -/
structure Transfer (K : Type) where
  sourceToken : K
  mint : K
  destinationToken : K
  owner : K
  extraAccountMetas : K
  complianceConfig : K
  sourceWhitelist : Option K
  destinationWhitelist : Option K

/-- An optional whitelist entry of the owner of a token account. -/
def State.loadEntry (st : State K) (owner : K) : Option K → Hx (Option (WhitelistEntry K)) :=
  optional fun k => do
    let entry ← orFail (st.entries k) (.anchor .accountNotInitialized)
    seeds k (whitelistKey owner)
    pure entry

/-- One side of a transfer: exempt, or whitelisted and compliant. -/
def checkSide (now : Int64) (isExempt : Bool) (entry : Option (WhitelistEntry K)) : Hx Unit :=
  if isExempt then pure ()
  else
    match entry with
    | some entry => validateWhitelistEntry now entry
    | none => .error (.code .notWhitelisted)

def transferHook (now : Int64) (L : Ledger K) (a : Transfer K) (_amount : UInt64)
    (st : State K) : Hx (State K) := do
  let source ← orFail (L.account a.sourceToken) (.anchor .accountNotInitialized)
  let destination ← orFail (L.account a.destinationToken) (.anchor .accountNotInitialized)
  seeds a.extraAccountMetas (extraAccountMetasKey a.mint)
  let config ← st.loadConfig a.complianceConfig
  let sourceEntry ← st.loadEntry source.owner a.sourceWhitelist
  let destinationEntry ← st.loadEntry destination.owner a.destinationWhitelist
  require config.allowTransfers .transferDisabled
  let isMintOp := decide (source.owner = a.mint)
  let isBurnOp := decide (destination.owner = a.mint ∨ destination.owner = Addresses.default)
  checkSide now isMintOp sourceEntry
  checkSide now isBurnOp destinationEntry
  pure st

/-- Every other instruction: logged and allowed. -/
def fallback (_data : List (Cell K)) (st : State K) : Hx (State K) := pure st

end TransferHook
