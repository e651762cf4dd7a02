/-
# `Oragami.OragamiVault.Governance` — the instructions that move no tokens

Initialisation, registry and mandate, NAV, credentials, Travel Rule records,
yield, configuration, reserve attestation and the two read-only assertions.
`initialize_vault` is here too: it creates the mint and the vault's token
account, both empty.

Each structure is an `Accounts` context or a parameter record of the source,
each function the instruction of that name: account constraints in order, then
the handler.  `now` is the clock's unix timestamp.

After an instruction stands what its success leaves behind, where a proof reads it.
-/
import Oragami.Lib.Accrual
import Oragami.OragamiVault.State

namespace OragamiVault

open Anchor Addresses

variable {K : Type} [DecidableEq K] [Addresses K] [Deployment K] {now : Int64} {s s' : State K}
  {ev : Option (Event K)}

/-! ## Initialisation -/

structure InitializeVaultParams (K : Type) where
  treasury : K
  authority : K
  operator : K
  minDeposit : UInt64
  maxDeposit : UInt64
  usxAllocationBps : UInt16
  apyBps : UInt16
  cvaultTradeMint : K
  secondaryMarketEnabled : Bool

structure InitializeVault (K : Type) where
  vaultState : K
  cvaultMint : K
  tokenAccount : K
  depositMint : K
  payer : K
  tokenProgram : K

def initializeVault [TokenProgram K] (now : Int64) (a : InitializeVault K)
    (p : InitializeVaultParams K) (s : State K) : Ix (Outcome K) := do
  -- the deposit mint is read before the accounts marked `init` are created
  let _ ← loadMint s.ledger a.depositMint
  tokenProgram a.tokenProgram
  seeds a.vaultState vaultStateKey
  init (s.vaultState = none)
  seeds a.cvaultMint cvaultMintKey
  init (s.ledger.Vacant a.cvaultMint)
  let ledger := s.ledger.openMint a.cvaultMint vaultStateKey
  seeds a.tokenAccount vaultTokenKey
  init (ledger.Vacant a.tokenAccount)
  let ledger := ledger.openAccount a.tokenAccount a.depositMint vaultStateKey
  require (p.minDeposit ≤ p.maxDeposit) .depositTooSmall
  let vs : VaultState K := {
    bump := canonicalBump (programId : K) [.text vaultStateSeed]
    cvaultMint := a.cvaultMint
    cvaultTradeMint := p.cvaultTradeMint
    vaultTokenAccount := a.tokenAccount
    treasury := p.treasury
    authority := p.authority
    minDeposit := p.minDeposit
    maxDeposit := p.maxDeposit
    usxAllocationBps := p.usxAllocationBps
    apyBps := p.apyBps
    paused := false
    totalDeposits := 0
    totalSupply := 0
    pendingYield := 0
    lastYieldClaim := now
    secondaryMarketEnabled := p.secondaryMarketEnabled
    navPriceBps := navBpsDenominator
    usxMint := Addresses.default
    eusxMint := Addresses.default
    vaultUsxAccount := Addresses.default
    vaultEusxAccount := Addresses.default
    operator := p.operator }
  pure ({ s with vaultState := some vs, ledger }, none)

structure InitializeRwaAssetRegistryParams (K : Type) where
  assetId : Vector UInt8 16
  isin : Vector UInt8 12
  commodityCode : Vector UInt8 8
  custodian : K
  linkHash : Vector UInt8 32

structure InitializeRwaAssetRegistry (K : Type) where
  vaultState : K
  rwaAssetRegistry : K
  authority : K

def initializeRwaAssetRegistry (now : Int64) (a : InitializeRwaAssetRegistry K)
    (p : InitializeRwaAssetRegistryParams K) (s : State K) : Ix (Outcome K) := do
  let vs ← s.loadVaultState a.vaultState
  seeds a.rwaAssetRegistry rwaAssetRegistryKey
  init (s.rwaAssetRegistry = none)
  address a.authority vs.authority
  let reg : RwaAssetRegistry K := {
    bump := canonicalBump (programId : K) [.text rwaAssetRegistrySeed, .key vaultStateKey]
    vault := a.vaultState
    assetId := p.assetId
    isin := p.isin
    commodityCode := p.commodityCode
    custodian := p.custodian
    linkHash := p.linkHash
    lastVerifiedAt := now }
  pure ({ s with rwaAssetRegistry := some reg }, none)

theorem initializeRwaAssetRegistry_spec {a : InitializeRwaAssetRegistry K}
    {p : InitializeRwaAssetRegistryParams K}
    (h : initializeRwaAssetRegistry now a p s = .ok (s', ev)) :
    ∃ reg, reg.lastVerifiedAt = now ∧ s' = { s with rwaAssetRegistry := some reg } := by
  simp only [initializeRwaAssetRegistry, bind_eq_ok, pure_eq_ok, Prod.mk.injEq] at h
  obtain ⟨_, _, _, _, _, _, _, _, hs, -⟩ := h
  exact ⟨_, rfl, hs.symm⟩

structure InitializeVaultMandateParams where
  minLiquidityBufferBps : UInt16
  maxUsxAllocationBps : UInt16
  minCollateralRatioBps : UInt16
  allowedAssetTypes : Vector UInt8 8
  leverageAllowed : Bool
  liquidityEnforcementActive : Bool

structure InitializeVaultMandate (K : Type) where
  vaultState : K
  vaultMandate : K
  authority : K

def initializeVaultMandate (a : InitializeVaultMandate K)
    (p : InitializeVaultMandateParams) (s : State K) : Ix (Outcome K) := do
  let vs ← s.loadVaultState a.vaultState
  seeds a.vaultMandate vaultMandateKey
  init (s.vaultMandate = none)
  address a.authority vs.authority
  require
    (p.minLiquidityBufferBps.toUInt32 + p.maxUsxAllocationBps.toUInt32 ≤ 10000)
    .invalidMandate
  let m : VaultMandate K := {
    bump := canonicalBump (programId : K) [.text vaultMandateSeed, .key vaultStateKey]
    vault := a.vaultState
    minLiquidityBufferBps := p.minLiquidityBufferBps
    maxUsxAllocationBps := p.maxUsxAllocationBps
    minCollateralRatioBps := p.minCollateralRatioBps
    allowedAssetTypes := p.allowedAssetTypes
    leverageAllowed := p.leverageAllowed
    liquidityEnforcementActive := p.liquidityEnforcementActive }
  pure ({ s with vaultMandate := some m }, none)

/-- The mandate starts out with a buffer and a cap that are parts of one whole. -/
theorem initializeVaultMandate_spec {a : InitializeVaultMandate K}
    {p : InitializeVaultMandateParams} (h : initializeVaultMandate a p s = .ok (s', ev)) :
    (∃ vs, s.vaultState = some vs) ∧
      p.minLiquidityBufferBps.toNat + p.maxUsxAllocationBps.toNat ≤ 10000 ∧
      ∃ m, s' = { s with vaultMandate := some m } ∧
        m.minLiquidityBufferBps = p.minLiquidityBufferBps ∧
        m.maxUsxAllocationBps = p.maxUsxAllocationBps ∧
        m.liquidityEnforcementActive = p.liquidityEnforcementActive := by
  simp only [initializeVaultMandate, bind_eq_ok, loadVaultState_eq_ok, require_eq_ok, pure_eq_ok,
    Prod.mk.injEq] at h
  obtain ⟨vs, ⟨-, hvs, -⟩, _, -, _, -, _, -, _, hle, hs, -⟩ := h
  refine ⟨⟨vs, hvs⟩, ?_, _, hs.symm, rfl, rfl, rfl⟩
  have hmin := p.minLiquidityBufferBps.toNat_lt
  have hmax := p.maxUsxAllocationBps.toNat_lt
  rw [UInt32.le_iff_toNat_le, UInt32.toNat_add] at hle
  simp only [UInt16.toNat_toUInt32, UInt32.reduceToNat] at hle
  omega

structure UpdateRwaAssetRegistryParams (K : Type) where
  custodian : Option K
  linkHash : Option (Vector UInt8 32)

structure UpdateRwaAssetRegistry (K : Type) where
  vaultState : K
  rwaAssetRegistry : K
  authority : K

def updateRwaAssetRegistry (now : Int64) (a : UpdateRwaAssetRegistry K)
    (p : UpdateRwaAssetRegistryParams K) (s : State K) : Ix (Outcome K) := do
  let vs ← s.loadVaultState a.vaultState
  let reg ← s.loadRegistry a.rwaAssetRegistry
  address a.authority vs.authority
  let reg := { reg with
    custodian := p.custodian.getD reg.custodian
    linkHash := p.linkHash.getD reg.linkHash
    lastVerifiedAt := now }
  pure ({ s with rwaAssetRegistry := some reg }, none)

theorem updateRwaAssetRegistry_spec {a : UpdateRwaAssetRegistry K}
    {p : UpdateRwaAssetRegistryParams K} (h : updateRwaAssetRegistry now a p s = .ok (s', ev)) :
    ∃ reg, reg.lastVerifiedAt = now ∧ s' = { s with rwaAssetRegistry := some reg } := by
  simp only [updateRwaAssetRegistry, bind_eq_ok, pure_eq_ok, Prod.mk.injEq] at h
  obtain ⟨_, _, _, _, _, _, hs, -⟩ := h
  exact ⟨_, rfl, hs.symm⟩

structure SetMandateLiquidityEnforcement (K : Type) where
  vaultState : K
  vaultMandate : K
  authority : K

def setMandateLiquidityEnforcement (a : SetMandateLiquidityEnforcement K)
    (active : Bool) (s : State K) : Ix (Outcome K) := do
  let vs ← s.loadVaultState a.vaultState
  let m ← s.loadMandate a.vaultMandate
  address a.authority vs.authority
  pure ({ s with vaultMandate := some { m with liquidityEnforcementActive := active } }, none)

theorem setMandateLiquidityEnforcement_spec {a : SetMandateLiquidityEnforcement K} {active : Bool}
    (h : setMandateLiquidityEnforcement a active s = .ok (s', ev)) :
    ∃ m, s.vaultMandate = some m ∧
      s' = { s with vaultMandate := some { m with liquidityEnforcementActive := active } } := by
  simp only [setMandateLiquidityEnforcement, bind_eq_ok, pure_eq_ok, Prod.mk.injEq] at h
  obtain ⟨_, -, m, hm, _, -, hs, -⟩ := h
  exact ⟨m, loadOfVault_stored hm, hs.symm⟩

/-! ## NAV -/

structure SetNav (K : Type) where
  vaultState : K
  rwaAssetRegistry : K
  operator : K

/-- The value guards of `set_nav`: positive, and within half the current NAV of it.
The upper bound is only computed once the lower one holds. -/
def navGuard (current proposed : UInt64) : Ix Unit := do
  require (0 < proposed) .invalidNav
  let maxChange := current / 2
  require (Checked.satSub current maxChange ≤ proposed) .navChangeTooLarge
  let upper ← orFail (Checked.add current maxChange) .panic
  require (proposed ≤ upper) .navChangeTooLarge

theorem navGuard_eq_ok {current proposed : UInt64} :
    navGuard current proposed = .ok () ↔ 0 < proposed.toNat ∧
      current.toNat - current.toNat / 2 ≤ proposed.toNat ∧
      proposed.toNat ≤ current.toNat + current.toNat / 2 ∧
      current.toNat + current.toNat / 2 < 2 ^ 64 := by
  have hhalf : (current / 2).toNat = current.toNat / 2 := UInt64.toNat_div ..
  simp only [navGuard, bind_eq_ok, require_eq_ok, orFail_eq_ok, Checked.add_eq_some,
    UInt64.lt_iff_toNat_lt, UInt64.le_iff_toNat_le, Checked.toNat_satSub, hhalf]
  constructor
  · rintro ⟨_, hpos, _, hlo, upper, hupper, hhi⟩
    have hlt := upper.toNat_lt
    rw [hupper] at hlt hhi
    exact ⟨hpos, hlo, hhi, hlt⟩
  · rintro ⟨hpos, hlo, hhi, hlt⟩
    rw [← hhalf] at hlt
    obtain ⟨upper, hupper⟩ := Checked.exists_add.mpr hlt
    have hsum := Checked.add_eq_some.mp hupper
    rw [hhalf] at hsum
    exact ⟨(), hpos, (), hlo, upper, hsum, by rw [hsum]; exact hhi⟩

def setNav (now : Int64) (a : SetNav K) (navPriceBps : UInt64) (s : State K) :
    Ix (Outcome K) := do
  let vs ← s.loadVaultState a.vaultState
  let reg ← s.loadRegistry a.rwaAssetRegistry
  requireOperator vs a.operator
  navGuard vs.navPriceBps navPriceBps
  let reg := { reg with lastVerifiedAt := now }
  let vs := { vs with navPriceBps }
  pure ({ s with vaultState := some vs, rwaAssetRegistry := some reg },
    some (.navUpdated navPriceBps now reg.assetId))

theorem setNav_spec {a : SetNav K} {nav : UInt64} (h : setNav now a nav s = .ok (s', ev)) :
    ∃ vs registry, s.vaultState = some vs ∧
      s' = { s with vaultState := some { vs with navPriceBps := nav }, rwaAssetRegistry := registry } := by
  simp only [setNav, bind_eq_ok, loadVaultState_eq_ok, pure_eq_ok, Prod.mk.injEq] at h
  obtain ⟨vs, ⟨-, hvs, -⟩, _, _, _, _, _, _, hs, -⟩ := h
  exact ⟨vs, _, hvs, hs.symm⟩

/-! ## Credentials -/

structure IssueCredentialParams (K : Type) where
  wallet : K
  institutionName : Vector UInt8 64
  jurisdiction : Vector UInt8 4
  tier : UInt8
  kycLevel : UInt8
  amlCoverage : UInt8
  attestationHash : Vector UInt8 32
  issuedAt : Int64
  expiresAt : Int64

structure IssueCredential (K : Type) where
  credential : K
  vaultState : K
  authority : K

def issueCredential (a : IssueCredential K) (p : IssueCredentialParams K) (s : State K) :
    Ix (Outcome K) := do
  let vs ← s.loadVaultState a.vaultState
  seeds a.credential (credentialKey p.wallet)
  init ((s.credentials a.credential).isNone)
  address a.authority vs.authority
  require (p.issuedAt < p.expiresAt) .invalidCredential
  let cred : ComplianceCredential K := {
    bump := canonicalBump (programId : K) [.text complianceCredentialSeed, .key p.wallet]
    wallet := p.wallet
    institutionName := p.institutionName
    jurisdiction := p.jurisdiction
    tier := p.tier
    kycLevel := p.kycLevel
    amlCoverage := p.amlCoverage
    attestationHash := p.attestationHash
    issuedAt := p.issuedAt
    expiresAt := p.expiresAt
    status := credentialStatusActive }
  pure ({ s with credentials := Function.update s.credentials a.credential (some cred) }, none)

structure RevokeCredential (K : Type) where
  credential : K
  vaultState : K
  authority : K

def revokeCredential (a : RevokeCredential K) (s : State K) : Ix (Outcome K) := do
  let cred ← orFail (s.credentials a.credential) (.anchor .accountNotInitialized)
  seeds a.credential (derive programId [.text complianceCredentialSeed, .key cred.wallet] cred.bump)
  let vs ← s.loadVaultState a.vaultState
  address a.authority vs.authority
  require (cred.status ≠ credentialStatusRevoked) .invalidCredential
  let cred := { cred with status := credentialStatusRevoked }
  pure ({ s with credentials := Function.update s.credentials a.credential (some cred) }, none)

/-! ## Travel Rule records -/

structure InitializeTravelRuleParams where
  originatorName : Vector UInt8 64
  originatorAccount : Vector UInt8 34
  beneficiaryName : Vector UInt8 64
  complianceHash : Vector UInt8 32
  amount : UInt64
  nonceHash : Vector UInt8 32

structure InitTravelRule (K : Type) where
  travelRuleData : K
  payer : K

def initTravelRule (now : Int64) (a : InitTravelRule K) (p : InitializeTravelRuleParams)
    (s : State K) : Ix (Outcome K) := do
  seeds a.travelRuleData (travelRuleKey a.payer p.nonceHash)
  init ((s.travelRules a.travelRuleData).isNone)
  require (travelRuleThreshold ≤ p.amount) .invalidTravelRule
  let tr : TravelRuleData K := {
    bump := canonicalBump (programId : K) [.text travelRuleSeed, .key a.payer, .digest p.nonceHash]
    payer := a.payer
    originatorName := p.originatorName
    originatorAccount := p.originatorAccount
    beneficiaryName := p.beneficiaryName
    complianceHash := p.complianceHash
    amount := p.amount
    submittedAt := now
    consumed := false }
  pure ({ s with travelRules := Function.update s.travelRules a.travelRuleData (some tr) }, none)

/-- A fresh record of the payer's, for an amount that needs one. -/
theorem initTravelRule_spec {a : InitTravelRule K} {p : InitializeTravelRuleParams}
    (h : initTravelRule now a p s = .ok (s', ev)) :
    s.travelRules a.travelRuleData = none ∧ a.travelRuleData = travelRuleKey a.payer p.nonceHash ∧
      travelRuleThreshold ≤ p.amount ∧
      ∃ tr, tr.payer = a.payer ∧ tr.amount = p.amount ∧ tr.consumed = false ∧
        s' = { s with travelRules := Function.update s.travelRules a.travelRuleData (some tr) } := by
  simp only [initTravelRule, bind_eq_ok, seeds_eq_ok, init_eq_ok, require_eq_ok,
    Option.isNone_iff_eq_none, pure_eq_ok, Prod.mk.injEq] at h
  obtain ⟨_, hkey, _, hnone, _, hle, hs, -⟩ := h
  exact ⟨hnone, hkey, hle, _, rfl, rfl, rfl, hs.symm⟩

/-! ## Yield -/

/-- The context of `process_yield`, `register_usx_accounts`, `distribute_yield` and
`sync_yield`, which declare the same two accounts. -/
structure OperatorOnly (K : Type) where
  vaultState : K
  operator : K

/-- Yield of one day: deposits × allocation × APY / 365, rounded down at each step. -/
def dailyYield (vs : VaultState K) : Ix UInt64 := do
  let slice ← orFail (Checked.mul vs.totalDeposits vs.usxAllocationBps.toUInt64) (.code .overflow)
  let slice ← orFail (Checked.div slice 10000) (.code .overflow)
  let yearly ← orFail (Checked.mul slice vs.apyBps.toUInt64) (.code .overflow)
  let yearly ← orFail (Checked.div yearly 10000) (.code .overflow)
  orFail (Checked.div yearly 365) (.code .overflow)

/-- Whole days since the last claim. -/
def daysElapsed (now lastYieldClaim : Int64) : Ix UInt64 :=
  if lastYieldClaim < now then do
    let elapsed ← orFail (Checked.subI now lastYieldClaim) .panic
    pure (elapsed.toUInt64 / secondsInDay)
  else
    pure 0

def processYield (now : Int64) (a : OperatorOnly K) (s : State K) : Ix (Outcome K) := do
  let vs ← s.loadVaultState a.vaultState
  requireOperator vs a.operator
  let days ← daysElapsed now vs.lastYieldClaim
  if days = 0 then
    pure (s, none)
  else do
    let daily ← dailyYield vs
    let accrued ← orFail (Checked.mul daily days) (.code .overflow)
    let pendingYield ← orFail (Checked.add vs.pendingYield accrued) (.code .overflow)
    let advance ← orFail (Checked.mulI days.toInt64 secondsInDay.toInt64) .panic
    let lastYieldClaim ← orFail (Checked.addI vs.lastYieldClaim advance) .panic
    pure ({ s with vaultState := some { vs with pendingYield, lastYieldClaim } }, none)

structure RegisterUsxAccountsParams (K : Type) where
  usxMint : K
  eusxMint : K
  vaultUsxAccount : K
  vaultEusxAccount : K

def registerUsxAccounts (a : OperatorOnly K) (p : RegisterUsxAccountsParams K) (s : State K) :
    Ix (Outcome K) := do
  let vs ← s.loadVaultState a.vaultState
  requireOperator vs a.operator
  let vs := { vs with
    usxMint := p.usxMint
    eusxMint := p.eusxMint
    vaultUsxAccount := p.vaultUsxAccount
    vaultEusxAccount := p.vaultEusxAccount }
  pure ({ s with vaultState := some vs }, none)

theorem registerUsxAccounts_spec {a : OperatorOnly K} {p : RegisterUsxAccountsParams K}
    (h : registerUsxAccounts a p s = .ok (s', ev)) :
    ∃ vs, s.vaultState = some vs ∧
      s' = { s with vaultState := some { vs with
        usxMint := p.usxMint
        eusxMint := p.eusxMint
        vaultUsxAccount := p.vaultUsxAccount
        vaultEusxAccount := p.vaultEusxAccount } } := by
  simp only [registerUsxAccounts, bind_eq_ok, loadVaultState_eq_ok, pure_eq_ok,
    Prod.mk.injEq] at h
  obtain ⟨vs, ⟨-, hvs, -⟩, _, -, hs, -⟩ := h
  exact ⟨vs, hvs, hs.symm⟩

def distributeYield (now : Int64) (a : OperatorOnly K) (s : State K) : Ix (Outcome K) := do
  let vs ← s.loadVaultState a.vaultState
  requireOperator vs a.operator
  if vs.pendingYield = 0 then
    pure (s, none)
  else
    pure ({ s with vaultState := some { vs with pendingYield := 0, lastYieldClaim := now } },
      some (.yieldDistributed vs.pendingYield now))

/-- The whole days between two times, none where the second is not later. -/
def fullDays (since now : Int) : Nat := Accrual.periods 86400 since now

theorem daysElapsed_eq_ok {last : Int64} {days : UInt64} (h : daysElapsed now last = .ok days) :
    days.toNat = fullDays last.toInt now.toInt ∧ days.toNat < 2 ^ 63 := by
  unfold daysElapsed at h
  split at h
  · next hlt =>
      simp only [bind_eq_ok, orFail_eq_ok, Checked.subI_eq_some, pure_eq_ok] at h
      obtain ⟨elapsed, helapsed, rfl⟩ := h
      rw [Int64.lt_iff_toInt_lt] at hlt
      have hcast := Checked.toNat_toUInt64 (a := elapsed) (by omega)
      have hhi := elapsed.toInt_lt
      have hday : secondsInDay.toNat = 86400 := rfl
      rw [UInt64.toNat_div, hday, fullDays, Accrual.periods]
      omega
  · next hle =>
      cases h
      rw [Int64.not_lt, Int64.le_iff_toInt_le] at hle
      exact ⟨(Accrual.periods_of_le (by decide) hle).symm, by decide⟩

/-- `process_yield` went through: a day's yield for each day, and the claim moved by the days. -/
structure YieldProcessed (now : Int64) (s s' : State K) (vs : VaultState K)
    (pending : UInt64) (claim : Int64) : Prop where
  vaultState : s.vaultState = some vs
  state : s' = { s with vaultState := some { vs with pendingYield := pending, lastYieldClaim := claim } }
  priced : fullDays vs.lastYieldClaim.toInt now.toInt ≠ 0 → ∃ daily, dailyYield vs = .ok daily
  pending : ∀ daily, dailyYield vs = .ok daily → pending.toNat =
    vs.pendingYield.toNat + daily.toNat * fullDays vs.lastYieldClaim.toInt now.toInt
  claim : claim.toInt =
    vs.lastYieldClaim.toInt + 86400 * fullDays vs.lastYieldClaim.toInt now.toInt

theorem processYield_spec {a : OperatorOnly K} (h : processYield now a s = .ok (s', ev)) :
    ev = none ∧ ∃ vs pending claim, YieldProcessed now s s' vs pending claim := by
  simp only [processYield, bind_eq_ok, loadVaultState_eq_ok] at h
  obtain ⟨vs, ⟨-, hvs, -⟩, _, -, days, hdays, h⟩ := h
  obtain ⟨hfull, hlt⟩ := daysElapsed_eq_ok hdays
  split at h
  · next hzero =>
      rw [hzero] at hfull
      simp only [pure_eq_ok, Prod.mk.injEq] at h
      obtain ⟨rfl, rfl⟩ := h
      have hnone : fullDays vs.lastYieldClaim.toInt now.toInt = 0 := hfull.symm
      refine ⟨rfl, vs, vs.pendingYield, vs.lastYieldClaim, hvs, ?_, ?_, ?_, ?_⟩
      · rw [← hvs]
      · exact fun hne => absurd hnone hne
      · simp [hnone]
      · simp [hnone]
  · simp only [bind_eq_ok, orFail_eq_ok, Checked.mul_eq_some, Checked.add_eq_some,
      Checked.mulI_eq_some, Checked.addI_eq_some, pure_eq_ok, Prod.mk.injEq] at h
    obtain ⟨daily, hdaily, accrued, haccrued, pending, hpending, advance, hadvance, claim, hclaim,
      rfl, rfl⟩ := h
    refine ⟨rfl, vs, pending, claim, hvs, rfl, fun _ => ⟨daily, hdaily⟩, ?_, ?_⟩
    · intro daily' hdaily'
      cases hdaily.symm.trans hdaily'
      rw [hpending, haccrued, hfull]
    · have hcast := Checked.toInt_toInt64 hlt
      have hday : secondsInDay.toInt64.toInt = 86400 := rfl
      rw [hclaim, hadvance, hcast, hday, hfull, Int.mul_comm]

theorem distributeYield_spec {a : OperatorOnly K} (h : distributeYield now a s = .ok (s', ev)) :
    ∃ vs, s.vaultState = some vs ∧
      ((vs.pendingYield = 0 ∧ s' = s ∧ ev = none) ∨
        (vs.pendingYield ≠ 0 ∧
          s' = { s with vaultState := some { vs with pendingYield := 0, lastYieldClaim := now } } ∧
          ev = some (.yieldDistributed vs.pendingYield now))) := by
  simp only [distributeYield, bind_eq_ok, loadVaultState_eq_ok] at h
  obtain ⟨vs, ⟨-, hvs, -⟩, _, -, h⟩ := h
  refine ⟨vs, hvs, ?_⟩
  split at h
  · next hzero =>
      simp only [pure_eq_ok, Prod.mk.injEq] at h
      exact .inl ⟨hzero, h.1.symm, h.2.symm⟩
  · next hne =>
      simp only [pure_eq_ok, Prod.mk.injEq] at h
      exact .inr ⟨hne, h.1.symm, h.2.symm⟩

/-- Deprecated: moves the claim timestamp and accrues nothing. -/
def syncYield (now : Int64) (a : OperatorOnly K) (s : State K) : Ix (Outcome K) := do
  let vs ← s.loadVaultState a.vaultState
  requireOperator vs a.operator
  pure ({ s with vaultState := some { vs with lastYieldClaim := now } }, none)

theorem syncYield_spec {a : OperatorOnly K} (h : syncYield now a s = .ok (s', ev)) :
    ∃ vs, s.vaultState = some vs ∧
      s' = { s with vaultState := some { vs with lastYieldClaim := now } } := by
  simp only [syncYield, bind_eq_ok, loadVaultState_eq_ok, pure_eq_ok, Prod.mk.injEq] at h
  obtain ⟨vs, ⟨-, hvs, -⟩, _, -, hs, -⟩ := h
  exact ⟨vs, hvs, hs.symm⟩

/-! ## Configuration -/

structure SetPause (K : Type) where
  vaultState : K
  authority : K

def setPause (a : SetPause K) (paused : Bool) (s : State K) : Ix (Outcome K) := do
  let vs ← s.loadVaultState a.vaultState
  address a.authority vs.authority
  pure ({ s with vaultState := some { vs with paused } }, none)

theorem setPause_spec {a : SetPause K} {paused : Bool} (h : setPause a paused s = .ok (s', ev)) :
    ∃ vs, s.vaultState = some vs ∧ s' = { s with vaultState := some { vs with paused } } := by
  simp only [setPause, bind_eq_ok, loadVaultState_eq_ok, pure_eq_ok, Prod.mk.injEq] at h
  obtain ⟨vs, ⟨-, hvs, -⟩, _, -, hs, -⟩ := h
  exact ⟨vs, hvs, hs.symm⟩

structure UpdateConfigParams where
  minDeposit : Option UInt64
  maxDeposit : Option UInt64
  usxAllocationBps : Option UInt16
  apyBps : Option UInt16
  secondaryMarketEnabled : Option Bool

structure UpdateConfig (K : Type) where
  vaultState : K
  authority : K
  vaultMandate : Option K

/-- What `update_config` asks of a new allocation. -/
def allocationGuard (mandate : Option (VaultMandate K)) : Option UInt16 → Ix Unit
  | none => pure ()
  | some b => do
      require (b ≤ 10000) .invalidAllocation
      match mandate with
      | some m => require (b ≤ m.maxUsxAllocationBps) .mandateBreached
      | none => pure ()

def updateConfig (a : UpdateConfig K) (p : UpdateConfigParams) (s : State K) :
    Ix (Outcome K) := do
  let vs ← s.loadVaultState a.vaultState
  address a.authority vs.authority
  let mandate ← optional s.loadMandate a.vaultMandate
  allocationGuard mandate p.usxAllocationBps
  let vs := { vs with
    minDeposit := p.minDeposit.getD vs.minDeposit
    maxDeposit := p.maxDeposit.getD vs.maxDeposit
    usxAllocationBps := p.usxAllocationBps.getD vs.usxAllocationBps
    apyBps := p.apyBps.getD vs.apyBps
    secondaryMarketEnabled := p.secondaryMarketEnabled.getD vs.secondaryMarketEnabled }
  pure ({ s with vaultState := some vs }, none)

/-- A new allocation is a share, and within the mandate where its account is passed. -/
theorem updateConfig_spec {a : UpdateConfig K} {p : UpdateConfigParams}
    (h : updateConfig a p s = .ok (s', ev)) :
    ∃ vs, s.vaultState = some vs ∧
      s' = { s with vaultState := some { vs with
        minDeposit := p.minDeposit.getD vs.minDeposit
        maxDeposit := p.maxDeposit.getD vs.maxDeposit
        usxAllocationBps := p.usxAllocationBps.getD vs.usxAllocationBps
        apyBps := p.apyBps.getD vs.apyBps
        secondaryMarketEnabled := p.secondaryMarketEnabled.getD vs.secondaryMarketEnabled } } ∧
      ∀ b, p.usxAllocationBps = some b → b ≤ 10000 ∧ ∀ k, a.vaultMandate = some k →
        ∃ m, s.vaultMandate = some m ∧ b ≤ m.maxUsxAllocationBps := by
  simp only [updateConfig, bind_eq_ok, loadVaultState_eq_ok, pure_eq_ok, Prod.mk.injEq] at h
  obtain ⟨vs, ⟨-, hvs, -⟩, _, -, mandate, hmandate, _, hguard, hs, -⟩ := h
  refine ⟨vs, hvs, hs.symm, ?_⟩
  intro b hb
  rw [hb] at hguard
  simp only [allocationGuard, bind_eq_ok, require_eq_ok] at hguard
  obtain ⟨_, hle, hcap⟩ := hguard
  refine ⟨hle, ?_⟩
  intro k hk
  rw [hk] at hmandate
  rcases optional_eq_ok.mp hmandate with ⟨hnone, -⟩ | ⟨k', m, hk', rfl, hload⟩
  · cases hnone
  · exact ⟨m, loadOfVault_stored hload, require_eq_ok.mp hcap⟩

/-! ## Reserves -/

structure PostReserveAttestationParams where
  attestationHash : Vector UInt8 32
  goldUnitsHeld : UInt64
  usdcValueBps : UInt64

structure PostReserveAttestation (K : Type) where
  vaultState : K
  rwaAssetRegistry : K
  reserveAttestation : K
  operator : K

/-- The attestation account is created on the first post and overwritten by later ones. -/
def postReserveAttestation (now : Int64) (a : PostReserveAttestation K)
    (p : PostReserveAttestationParams) (s : State K) : Ix (Outcome K) := do
  let vs ← s.loadVaultState a.vaultState
  let reg ← s.loadRegistry a.rwaAssetRegistry
  seeds a.reserveAttestation reserveAttestationKey
  requireOperator vs a.operator
  require (p.attestationHash = reg.linkHash) .attestationHashMismatch
  let att : ReserveAttestation K := {
    bump := canonicalBump (programId : K) [.text reserveAttestationSeed, .key vaultStateKey]
    vault := a.vaultState
    attestationHash := p.attestationHash
    goldUnitsHeld := p.goldUnitsHeld
    usdcValueBps := p.usdcValueBps
    attestedAt := now
    attestedBy := a.operator }
  pure ({ s with reserveAttestation := some att },
    some (.reserveAttested att.vault att.attestationHash att.goldUnitsHeld att.usdcValueBps
      att.attestedAt))

/-- What a post writes. -/
def PostReserveAttestation.attestation (now : Int64) (a : PostReserveAttestation K)
    (p : PostReserveAttestationParams) : ReserveAttestation K where
  bump := canonicalBump (programId : K) [.text reserveAttestationSeed, .key vaultStateKey]
  vault := a.vaultState
  attestationHash := p.attestationHash
  goldUnitsHeld := p.goldUnitsHeld
  usdcValueBps := p.usdcValueBps
  attestedAt := now
  attestedBy := a.operator

/-- A post by the operator, of the hash in the registry. -/
theorem postReserveAttestation_posted {a : PostReserveAttestation K}
    {p : PostReserveAttestationParams} (h : postReserveAttestation now a p s = .ok (s', ev)) :
    ∃ vs reg, s.vaultState = some vs ∧ operatorPubkey vs = a.operator ∧
      s.rwaAssetRegistry = some reg ∧ p.attestationHash = reg.linkHash ∧
      s' = { s with reserveAttestation := some (a.attestation now p) } := by
  simp only [postReserveAttestation, bind_eq_ok, loadVaultState_eq_ok, requireOperator,
    require_eq_ok, pure_eq_ok, Prod.mk.injEq] at h
  obtain ⟨vs, ⟨-, hvs, -⟩, reg, hreg, _, -, _, hop, _, hhash, hs, -⟩ := h
  exact ⟨vs, reg, hvs, hop, loadOfVault_stored hreg, hhash, hs.symm⟩

theorem postReserveAttestation_spec {a : PostReserveAttestation K}
    {p : PostReserveAttestationParams} (h : postReserveAttestation now a p s = .ok (s', ev)) :
    ∃ att, s' = { s with reserveAttestation := some att } := by
  obtain ⟨_, _, -, -, -, -, hs⟩ := postReserveAttestation_posted h
  exact ⟨_, hs⟩

structure VerifyProofOfReserve (K : Type) where
  vaultState : K
  vaultMandate : K
  rwaAssetRegistry : K
  reserveAttestation : K
  vaultTokenAccount : K
  vaultUsxTokenAccount : Option K
  vaultEusxTokenAccount : Option K

/-- Balance of a registered strategy account: zero while none is registered, else that
of the account passed, which must be the registered one. -/
def strategyBalance (registered : K) (passed : Option (K × TokenAccount K)) : Ix UInt64 :=
  if registered = Addresses.default then
    pure 0
  else do
    let acc ← orFail passed (.code .invalidVaultTokenAccount)
    require (acc.1 = registered) .invalidVaultTokenAccount
    pure acc.2.amount

/-- An optional token account together with its key. -/
def optionalTokenAccount (L : Ledger K) (k : Option K) : Ix (Option (K × TokenAccount K)) :=
  optional (fun k => do
    let acc ← loadTokenAccount L k
    pure (k, acc)) k

/-- `total_assets * 10000 ≥ total_deposits * min_collateral_ratio_bps`, with overflow an error. -/
def reserveCheck (totalAssets totalDeposits : UInt64) (ratioBps : UInt16) : Ix Unit := do
  let lhs ← orFail (Checked.mul totalAssets 10000) (.code .overflow)
  let rhs ← orFail (Checked.mul totalDeposits ratioBps.toUInt64) (.code .overflow)
  require (rhs ≤ lhs) .proofOfReserveFailed

def verifyProofOfReserve (now : Int64) (a : VerifyProofOfReserve K) (s : State K) :
    Ix (Outcome K) := do
  let vs ← s.loadVaultState a.vaultState
  let m ← s.loadMandate a.vaultMandate
  let reg ← s.loadRegistry a.rwaAssetRegistry
  let att ← s.loadAttestation a.reserveAttestation
  address a.vaultTokenAccount vs.vaultTokenAccount
  let vault ← loadTokenAccount s.ledger a.vaultTokenAccount
  let usxAccount ← optionalTokenAccount s.ledger a.vaultUsxTokenAccount
  let eusxAccount ← optionalTokenAccount s.ledger a.vaultEusxTokenAccount
  -- attestation
  let age ← orFail (Checked.subI now att.attestedAt) .panic
  require (age ≤ maxAttestationAgeSecs) .attestationStale
  require (att.attestationHash = reg.linkHash) .attestationHashMismatch
  require (att.vault = a.vaultState) .invalidMandate
  -- reserves
  require (m.vault = a.vaultState) .invalidMandate
  require (a.vaultTokenAccount = vs.vaultTokenAccount) .invalidVaultTokenAccount
  let usx ← strategyBalance vs.vaultUsxAccount usxAccount
  let eusx ← strategyBalance vs.vaultEusxAccount eusxAccount
  let liquid ← orFail (Checked.add vault.amount usx) (.code .overflow)
  let totalAssets ← orFail (Checked.add liquid eusx) (.code .overflow)
  reserveCheck totalAssets vs.totalDeposits m.minCollateralRatioBps
  pure (s, some (.proofOfReserveOk a.vaultState totalAssets vs.totalDeposits
    m.minCollateralRatioBps att.goldUnitsHeld att.attestedAt))

/-! ### What proof of reserve compares -/

section Reserve

variable {a : VerifyProofOfReserve K}

/-! The steps before the comparison fail with other errors. -/

theorem load_ne {α : Type} {k : K} {stored : Option α} {seed : String} {bump : α → UInt8}
    {vault : α → K} {c e : ErrorCode} (he : e ≠ c) :
    loadOfVault k stored seed bump vault e ≠ .error (.code c) :=
  fun h => he (loadOfVault_code h)

omit [DecidableEq K] [Addresses K] [Deployment K] in
theorem optionalTokenAccount_ne {L : Ledger K} {k : Option K} {c : ErrorCode} :
    optionalTokenAccount L k ≠ .error (.code c) := by
  simp only [ne_eq, optionalTokenAccount, optional_eq_error, bind_eq_error,
    loadTokenAccount_ne_code, pure_ne_error, and_false, exists_false, or_self, not_false_eq_true]

omit [Deployment K] in
theorem strategyBalance_ne {registered : K} {passed : Option (K × TokenAccount K)} {c : ErrorCode}
    (hc : .invalidVaultTokenAccount ≠ c) :
    strategyBalance registered passed ≠ .error (.code c) := by
  unfold strategyBalance
  split
  · exact pure_ne_error
  · simp only [ne_eq, bind_eq_error, orFail_eq_error, require_eq_error, pure_ne_error,
      Failure.code.injEq, hc, and_false, exists_false, or_self, not_false_eq_true]

theorem reserveCheck_eq_ok {assets deposits : UInt64} {ratio : UInt16} {u : Unit}
    (h : reserveCheck assets deposits ratio = .ok u) :
    deposits.toNat * ratio.toNat ≤ assets.toNat * 10000 := by
  simp only [reserveCheck, bind_eq_ok, orFail_eq_ok, Checked.mul_eq_some, require_eq_ok,
    UInt64.le_iff_toNat_le] at h
  obtain ⟨l, hl, r, hr, hle⟩ := h
  rw [hl, hr] at hle
  exact hle

theorem reserveCheck_failed {assets deposits : UInt64} {ratio : UInt16}
    (h : reserveCheck assets deposits ratio = .error (.code .proofOfReserveFailed)) :
    assets.toNat * 10000 < deposits.toNat * ratio.toNat := by
  simp only [reserveCheck, bind_eq_error, orFail_eq_error, orFail_eq_ok, Checked.mul_eq_some,
    require_eq_error, Failure.code.injEq, reduceCtorEq, and_false, false_or, and_true,
    UInt64.le_iff_toNat_le, Nat.not_le] at h
  obtain ⟨l, hl, r, hr, hlt⟩ := h
  rw [hl, hr] at hlt
  exact hlt

/-- The comparison overflows exactly where one of its products does. -/
theorem reserveCheck_overflow {assets deposits : UInt64} {ratio : UInt16} :
    reserveCheck assets deposits ratio = .error (.code .overflow) ↔
      2 ^ 64 ≤ assets.toNat * 10000 ∨ 2 ^ 64 ≤ deposits.toNat * ratio.toNat := by
  simp only [reserveCheck, bind_eq_error, orFail_eq_error, orFail_eq_ok, Checked.mul_eq_none,
    require_eq_error, Failure.code.injEq, reduceCtorEq, and_true, and_false, exists_false,
    or_false, UInt16.toNat_toUInt64]
  constructor
  · rintro (hl | ⟨_, -, hr⟩)
    · exact .inl hl
    · exact .inr hr
  · intro h
    rcases Nat.lt_or_ge (assets.toNat * 10000) (2 ^ 64) with hlt | hge
    · obtain ⟨l, hl⟩ := Checked.mul_of_lt (a := assets) (b := 10000) hlt
      exact .inr ⟨l, hl, h.resolve_left (Nat.not_le.mpr hlt)⟩
    · exact .inl hge

/-- The balance counted for a strategy account: none while it is not registered. -/
def registeredBalance (L : Ledger K) (k : K) : Nat := if k = Addresses.default then 0 else L.amount k

omit [Deployment K] in
/-- Whatever account is passed, it is the registered one that is counted. -/
theorem strategyBalance_eq_ok {L : Ledger K} {k : K} {passed : Option K}
    {acc : Option (K × TokenAccount K)} {x : UInt64} (hacc : optionalTokenAccount L passed = .ok acc)
    (h : strategyBalance k acc = .ok x) : x.toNat = registeredBalance L k := by
  unfold strategyBalance at h
  unfold registeredBalance
  split at h
  · next hnone =>
      cases h
      rw [if_pos hnone]
      rfl
  · next hsome =>
      simp only [bind_eq_ok, orFail_eq_ok, require_eq_ok, pure_eq_ok] at h
      obtain ⟨kacc, rfl, _, hkey, rfl⟩ := h
      rcases optional_eq_ok.mp hacc with ⟨-, hnone⟩ | ⟨k', _, -, hpassed, hload⟩
      · cases hnone
      cases hpassed
      simp only [bind_eq_ok, loadTokenAccount_eq_ok, pure_eq_ok] at hload
      obtain ⟨found, ⟨hfound, -⟩, rfl⟩ := hload
      rw [if_neg hsome, ← hkey]
      exact (Ledger.amount_of_account hfound).symm

/-- A proof of reserve that went through: what it read, and what it found. -/
structure Verified (now : Int64) (a : VerifyProofOfReserve K) (s : State K) (vs : VaultState K)
    (m : VaultMandate K) (reg : RwaAssetRegistry K) (att : ReserveAttestation K)
    (totalAssets : UInt64) : Prop where
  vaultStateKey : a.vaultState = vaultStateKey
  vaultState : s.vaultState = some vs
  vaultMandate : s.vaultMandate = some m
  registry : s.rwaAssetRegistry = some reg
  attestation : s.reserveAttestation = some att
  fresh : now.toInt - att.attestedAt.toInt ≤ 86400
  hash : att.attestationHash = reg.linkHash
  account : ∃ acc, s.ledger.account vs.vaultTokenAccount = some acc
  counted : totalAssets.toNat = s.ledger.amount vs.vaultTokenAccount +
    registeredBalance s.ledger vs.vaultUsxAccount + registeredBalance s.ledger vs.vaultEusxAccount
  covered : vs.totalDeposits.toNat * m.minCollateralRatioBps.toNat ≤ totalAssets.toNat * 10000

/-- A proof that went through made the comparison with what it read. -/
theorem verifyProofOfReserve_checked (h : verifyProofOfReserve now a s = .ok (s', ev)) :
    s' = s ∧ ∃ vs m reg att totalAssets, Verified now a s vs m reg att totalAssets ∧
      reserveCheck totalAssets vs.totalDeposits m.minCollateralRatioBps = .ok () ∧
      ev = some (.proofOfReserveOk a.vaultState totalAssets vs.totalDeposits
        m.minCollateralRatioBps att.goldUnitsHeld att.attestedAt) := by
  simp only [verifyProofOfReserve, bind_eq_ok, loadVaultState_eq_ok, address_eq_ok,
    loadTokenAccount_eq_ok, orFail_eq_ok, require_eq_ok, pure_eq_ok, Prod.mk.injEq] at h
  obtain ⟨vs, ⟨hkey, hvs, -⟩, m, hm, reg, hreg, att, hatt, _, haddr, acc, ⟨hacc, -⟩, h⟩ := h
  obtain ⟨usxAcc, husx, eusxAcc, heusx, age, hage, _, hle, _, hhash, _, -, _, -, _, -, h⟩ := h
  obtain ⟨usx, hx, eusx, hex, liquid, hl, total, ht, _, hcheck, rfl, rfl⟩ := h
  refine ⟨rfl, vs, m, reg, att, total, ⟨hkey, hvs, loadOfVault_stored hm, loadOfVault_stored hreg,
    loadOfVault_stored hatt, ?_, hhash, ⟨acc, haddr ▸ hacc⟩, ?_, reserveCheck_eq_ok hcheck⟩,
    hcheck, rfl⟩
  · rw [Checked.subI_eq_some] at hage
    rw [Int64.le_iff_toInt_le, hage] at hle
    exact hle
  · rw [Checked.add_eq_some] at hl ht
    rw [ht, hl, strategyBalance_eq_ok husx hx, strategyBalance_eq_ok heusx hex, ← haddr,
      Ledger.amount_of_account hacc]

theorem verifyProofOfReserve_verified (h : verifyProofOfReserve now a s = .ok (s', ev)) :
    s' = s ∧ ∃ vs m reg att totalAssets, Verified now a s vs m reg att totalAssets ∧
      ev = some (.proofOfReserveOk a.vaultState totalAssets vs.totalDeposits
        m.minCollateralRatioBps att.goldUnitsHeld att.attestedAt) := by
  obtain ⟨hs, vs, m, reg, att, total, hv, -, hev⟩ := verifyProofOfReserve_checked h
  exact ⟨hs, vs, m, reg, att, total, hv, hev⟩

/-- A proof that succeeded compared its assets with the deposits. -/
theorem verifyProofOfReserve_eq_ok
    (h : verifyProofOfReserve now a s = .ok (s', ev)) :
    ∃ vs m acc, ∃ assets : UInt64, ∃ gold attestedAt, s.vaultState = some vs ∧ s.vaultMandate = some m ∧
      s.ledger.account vs.vaultTokenAccount = some acc ∧ acc.amount.toNat ≤ assets.toNat ∧
      vs.totalDeposits.toNat * m.minCollateralRatioBps.toNat ≤ assets.toNat * 10000 ∧
      ev = some (.proofOfReserveOk a.vaultState assets vs.totalDeposits m.minCollateralRatioBps
        gold attestedAt) := by
  obtain ⟨-, vs, m, reg, att, total, hv, rfl⟩ := verifyProofOfReserve_verified h
  obtain ⟨acc, hacc⟩ := hv.account
  have htotal := hv.counted
  rw [Ledger.amount_of_account hacc] at htotal
  exact ⟨vs, m, acc, total, _, _, hv.vaultState, hv.vaultMandate, hacc, by omega, hv.covered, rfl⟩

/-- What there is to compare: the balances of the registered accounts. -/
def reserves (L : Ledger K) (vs : VaultState K) : Nat :=
  L.amount vs.vaultTokenAccount + registeredBalance L vs.vaultUsxAccount +
    registeredBalance L vs.vaultEusxAccount

/-- A proof that failed for lack of reserves, or on overflow, failed at the comparison or in
the sum before it. -/
theorem verifyProofOfReserve_comparing {c : ErrorCode}
    (hc : c = .proofOfReserveFailed ∨ c = .overflow)
    (h : verifyProofOfReserve now a s = .error (.code c)) :
    ∃ vs m acc, s.vaultState = some vs ∧ s.vaultMandate = some m ∧
      s.ledger.account vs.vaultTokenAccount = some acc ∧
      (c = .overflow ∧ 2 ^ 64 ≤ reserves s.ledger vs ∨
        ∃ assets : UInt64, assets.toNat = reserves s.ledger vs ∧
          reserveCheck assets vs.totalDeposits m.minCollateralRatioBps = .error (.code c)) := by
  have hmandate : ErrorCode.invalidMandate ≠ c := by rcases hc with rfl | rfl <;> decide
  have hregistry : ErrorCode.invalidRegistry ≠ c := by rcases hc with rfl | rfl <;> decide
  have haccount : ErrorCode.invalidVaultTokenAccount ≠ c := by rcases hc with rfl | rfl <;> decide
  have hstale : ErrorCode.attestationStale ≠ c := by rcases hc with rfl | rfl <;> decide
  have hhash : ErrorCode.attestationHashMismatch ≠ c := by rcases hc with rfl | rfl <;> decide
  simp only [verifyProofOfReserve, bind_eq_error, loadVaultState_ne_code, loadVaultState_eq_ok,
    State.loadMandate, State.loadRegistry, State.loadAttestation, load_ne hmandate,
    load_ne hregistry, address_ne_code, address_eq_ok, loadTokenAccount_ne_code,
    loadTokenAccount_eq_ok, optionalTokenAccount_ne, orFail_eq_error, orFail_eq_ok,
    require_eq_error, strategyBalance_ne haccount, pure_ne_error, Failure.code.injEq, hmandate,
    haccount, hstale, hhash, reduceCtorEq, and_false, false_or, or_false, exists_false] at h
  obtain ⟨vs, ⟨-, hvs, -⟩, m, hm, reg, -, att, -, _, haddr, acc, ⟨hacc, -⟩, h⟩ := h
  obtain ⟨usxAcc, husx, eusxAcc, heusx, _, -, _, -, _, -, _, -, _, -, _, -, h⟩ := h
  obtain ⟨usx, hx, eusx, hex, h⟩ := h
  rw [haddr] at hacc
  have hsum : acc.amount.toNat + usx.toNat + eusx.toNat = reserves s.ledger vs := by
    rw [reserves, strategyBalance_eq_ok husx hx, strategyBalance_eq_ok heusx hex,
      Ledger.amount_of_account hacc]
  refine ⟨vs, m, acc, hvs, loadOfVault_stored hm, hacc, ?_⟩
  rcases h with ⟨hnone, rfl⟩ | ⟨liquid, hl, ⟨hnone, rfl⟩ | ⟨assets, ha, hcheck⟩⟩
  · rw [Checked.add_eq_none] at hnone
    exact .inl ⟨rfl, by omega⟩
  · rw [Checked.add_eq_none] at hnone
    rw [Checked.add_eq_some] at hl
    exact .inl ⟨rfl, by omega⟩
  · rw [Checked.add_eq_some] at hl ha
    exact .inr ⟨assets, by omega, hcheck⟩

/-- A proof that failed for lack of reserves found too few for the deposits. -/
theorem verifyProofOfReserve_failed
    (h : verifyProofOfReserve now a s = .error (.code .proofOfReserveFailed)) :
    ∃ vs m acc, ∃ assets : UInt64, s.vaultState = some vs ∧ s.vaultMandate = some m ∧
      s.ledger.account vs.vaultTokenAccount = some acc ∧ acc.amount.toNat ≤ assets.toNat ∧
      assets.toNat * 10000 < vs.totalDeposits.toNat * m.minCollateralRatioBps.toNat := by
  obtain ⟨vs, m, acc, hvs, hm, hacc, ⟨hcode, -⟩ | ⟨assets, hsum, hcheck⟩⟩ :=
    verifyProofOfReserve_comparing (.inl rfl) h
  · cases hcode
  · rw [reserves, Ledger.amount_of_account hacc] at hsum
    exact ⟨vs, m, acc, assets, hvs, hm, hacc, by omega, reserveCheck_failed hcheck⟩

end Reserve

structure AssertLiquidityAllocation (K : Type) where
  vaultState : K
  vaultMandate : K
  vaultTokenAccount : K

/-- `total_deposits * bps / 10000`, an end of the liquidity band. -/
def bandEnd (totalDeposits bps : UInt64) : Ix UInt64 := do
  let x ← orFail (Checked.mul totalDeposits bps) (.code .overflow)
  orFail (Checked.div x 10000) (.code .overflow)

def assertLiquidityAllocation (a : AssertLiquidityAllocation K) (s : State K) :
    Ix (Outcome K) := do
  let vs ← s.loadVaultState a.vaultState
  let m ← s.loadMandate a.vaultMandate
  address a.vaultTokenAccount vs.vaultTokenAccount
  let vault ← loadTokenAccount s.ledger a.vaultTokenAccount
  require (m.vault = a.vaultState) .invalidMandate
  if m.liquidityEnforcementActive then do
    require (a.vaultTokenAccount = vs.vaultTokenAccount) .invalidVaultTokenAccount
    let maxUsdc ← bandEnd vs.totalDeposits
      (Checked.satSub 10000 vs.usxAllocationBps.toUInt64)
    let minUsdc ← bandEnd vs.totalDeposits m.minLiquidityBufferBps.toUInt64
    require (vault.amount ≤ maxUsdc) .liquidityAllocationBreached
    require (minUsdc ≤ vault.amount) .liquidityAllocationBreached
    pure (s, none)
  else
    pure (s, none)

theorem bandEnd_eq_ok {totalDeposits bps x : UInt64} (h : bandEnd totalDeposits bps = .ok x) :
    x.toNat = totalDeposits.toNat * bps.toNat / 10000 := by
  simp only [bandEnd, bind_eq_ok, orFail_eq_ok, Checked.mul_eq_some, Checked.div_eq_some] at h
  obtain ⟨y, hy, -, hx⟩ := h
  rw [hx, hy]
  rfl

/-- `bandEnd` fails only on overflow of the product. -/
theorem bandEnd_eq_error {totalDeposits bps : UInt64} {e : Failure ErrorCode} :
    bandEnd totalDeposits bps = .error e ↔
      2 ^ 64 ≤ totalDeposits.toNat * bps.toNat ∧ .code .overflow = e :=
  mulDiv_eq_error (by decide)

/-- What a successful assertion found, where the band is enforced: the USDC held is at most
what the allocation leaves of the deposits. -/
theorem assertLiquidityAllocation_eq_ok {a : AssertLiquidityAllocation K} {out : Outcome K}
    (h : assertLiquidityAllocation a s = .ok out) :
    ∃ vs m acc, s.vaultState = some vs ∧ s.vaultMandate = some m ∧
      s.ledger.account vs.vaultTokenAccount = some acc ∧
      (m.liquidityEnforcementActive = true →
        acc.amount.toNat ≤ vs.totalDeposits.toNat * (10000 - vs.usxAllocationBps.toNat) / 10000) := by
  simp only [assertLiquidityAllocation, bind_eq_ok, loadVaultState_eq_ok, address_eq_ok,
    loadTokenAccount_eq_ok] at h
  obtain ⟨vs, ⟨-, hvs, -⟩, m, hm, _, haddr, acc, ⟨hacc, -⟩, _, -, h⟩ := h
  refine ⟨vs, m, acc, hvs, loadOfVault_stored hm, haddr ▸ hacc, ?_⟩
  intro hactive
  simp only [hactive, if_true, bind_eq_ok, require_eq_ok, UInt64.le_iff_toNat_le] at h
  obtain ⟨_, -, maxUsdc, hmax, _, -, _, hle, -⟩ := h
  rw [bandEnd_eq_ok hmax, Checked.toNat_satSub, UInt16.toNat_toUInt64] at hle
  exact hle

end OragamiVault
