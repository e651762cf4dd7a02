/-
# `Oragami.MultiAssetVault.Instructions` — the ten instructions of multi-asset-vault

Each structure is an `Accounts` context of the source, each function the
instruction of that name: account constraints in order, then the handler.  `now`
is the clock's unix timestamp, `view` the accounts of other programs.

`deposit` and `transfer_shares` make the same five checks on a credential account
(`credentialGate`).  The source repeats them for the depositor, the sender and the
receiver of shares; the first two also compare the credential's wallet with the
signer, the third compares nothing.

After the instructions that move tokens stands what their success means.
-/
import Oragami.MultiAssetVault.State

namespace MultiAssetVault

open Anchor Addresses

variable {K : Type} [DecidableEq K] [Addresses K] [Deployment K]

/-! ## Factory and assets -/

structure InitializeFactory (K : Type) where
  factory : K
  authority : K

def initializeFactory (a : InitializeFactory K) (feeBps : UInt16) (s : State K) :
    Mx (Outcome K) := do
  seeds a.factory factoryKey
  init s.factory.isNone
  let f : Factory K := {
    bump := canonicalBump (programId : K) [.text factorySeed]
    authority := a.authority
    feeBps
    registeredAssets := [] }
  pure ({ s with factory := some f }, none)

structure RegisterAssetParams where
  ticker : Vector UInt8 8
  navPriceBps : UInt64
  minDeposit : UInt64
  maxDeposit : UInt64
  travelRuleRequired : Bool

structure RegisterAsset (K : Type) where
  factory : K
  assetVault : K
  shareMint : K
  vaultTokenAccount : K
  assetMint : K
  authority : K
  tokenProgram : K

/-- The vault `register_asset` writes. -/
def newVault (a : RegisterAsset K) (p : RegisterAssetParams) : AssetVault K where
  bump := canonicalBump (programId : K) [.text assetVaultSeed, .key a.assetMint]
  assetMint := a.assetMint
  shareMint := a.shareMint
  vaultTokenAccount := a.vaultTokenAccount
  navPriceBps := p.navPriceBps
  totalDeposits := 0
  totalSupply := 0
  minDeposit := p.minDeposit
  maxDeposit := p.maxDeposit
  ticker := p.ticker
  travelRuleRequired := p.travelRuleRequired
  paused := false

def registerAsset [TokenProgram K] (a : RegisterAsset K) (p : RegisterAssetParams)
    (s : State K) : Mx (Outcome K) := do
  -- the asset mint is read before the accounts marked `init` are created
  let f ← s.loadFactory a.factory
  let _ ← loadMint s.ledger a.assetMint
  tokenProgram a.tokenProgram
  seeds a.assetVault (assetVaultKey a.assetMint)
  init (s.vaults a.assetVault).isNone
  seeds a.shareMint (shareMintKey a.assetMint)
  init (s.ledger.Vacant a.shareMint)
  let ledger := s.ledger.openMint a.shareMint a.assetVault
  seeds a.vaultTokenAccount (vaultTokenKey a.assetMint)
  init (ledger.Vacant a.vaultTokenAccount)
  let ledger := ledger.openAccount a.vaultTokenAccount a.assetMint a.assetVault
  hasOneAuthority f a.authority
  require (0 < p.navPriceBps) .invalidNav
  require (p.minDeposit ≤ p.maxDeposit) .depositTooSmall
  require (a.assetMint ∉ f.registeredAssets) .assetAlreadyRegistered
  require (f.registeredAssets.length < maxAssets) .factoryFull
  let f := { f with registeredAssets := f.registeredAssets ++ [a.assetMint] }
  pure ({ s with
      factory := some f
      vaults := Function.update s.vaults a.assetVault (some (newVault a p))
      ledger }, none)

/-- The context of `set_nav` and `pause_vault`, which declare the same accounts. -/
structure AdminOnly (K : Type) where
  factory : K
  assetVault : K
  authority : K

/-- Most an update may move a NAV of `current`. -/
def maxChange (current : UInt64) : Mx UInt64 := do
  let x ← orFail (Checked.mul current maxNavChangeBps) (.code .overflow)
  orFail (Checked.div x navBpsDenominator) (.code .overflow)

def setNav (now : Int64) (a : AdminOnly K) (navPriceBps : UInt64) (s : State K) :
    Mx (Outcome K) := do
  let f ← s.loadFactory a.factory
  let v ← s.loadVault a.assetVault
  hasOneAuthority f a.authority
  require (0 < navPriceBps) .invalidNav
  let current := v.navPriceBps
  let change ← maxChange current
  require (Checked.satSub current change ≤ navPriceBps ∧ navPriceBps ≤ Checked.satAdd current change)
    .navChangeTooLarge
  let vaults := Function.update s.vaults a.assetVault (some { v with navPriceBps })
  pure ({ s with vaults }, some (.navUpdated v.assetMint current navPriceBps now))

def pauseVault (a : AdminOnly K) (paused : Bool) (s : State K) : Mx (Outcome K) := do
  let f ← s.loadFactory a.factory
  let v ← s.loadVault a.assetVault
  hasOneAuthority f a.authority
  pure ({ s with vaults := Function.update s.vaults a.assetVault (some { v with paused }) }, none)

/-! ## Credentials of this program -/

structure IssueCredentialParams where
  institutionName : Vector UInt8 64
  jurisdiction : Vector UInt8 4
  tier : UInt8
  kycLevel : UInt8
  amlCoverage : UInt8
  expiresAt : Int64

structure IssueCredential (K : Type) where
  factory : K
  credential : K
  wallet : K
  authority : K

def issueCredential (now : Int64) (a : IssueCredential K) (p : IssueCredentialParams)
    (s : State K) : Mx (Outcome K) := do
  let f ← s.loadFactory a.factory
  seeds a.credential (ownCredentialKey a.wallet)
  init (s.credentials a.credential).isNone
  hasOneAuthority f a.authority
  require (now < p.expiresAt) .credentialExpired
  let cred : ComplianceCredential K := {
    bump := canonicalBump (programId : K) [.text credentialSeed, .key a.wallet]
    wallet := a.wallet
    institutionName := p.institutionName
    jurisdiction := p.jurisdiction
    tier := p.tier
    kycLevel := p.kycLevel
    amlCoverage := p.amlCoverage
    attestationHash := .replicate 32 0
    issuedAt := now
    expiresAt := p.expiresAt
    status := credentialActive }
  pure ({ s with credentials := Function.update s.credentials a.credential (some cred) }, none)

structure RevokeCredential (K : Type) where
  factory : K
  credential : K
  authority : K

def revokeCredential (a : RevokeCredential K) (s : State K) : Mx (Outcome K) := do
  let f ← s.loadFactory a.factory
  let cred ← orFail (s.credentials a.credential) (.anchor .accountNotInitialized)
  hasOneAuthority f a.authority
  seeds a.credential (derive programId [.text credentialSeed, .key cred.wallet] cred.bump)
  require (cred.status ≠ credentialRevoked) .credentialAlreadyRevoked
  let cred := { cred with status := credentialRevoked }
  pure ({ s with credentials := Function.update s.credentials a.credential (some cred) }, none)

/-! ## Travel Rule records -/

structure InitTravelRule (K : Type) where
  travelRuleData : K
  payer : K

def initTravelRule (now : Int64) (a : InitTravelRule K) (amount : UInt64)
    (nonceHash : Vector UInt8 32) (s : State K) : Mx (Outcome K) := do
  seeds a.travelRuleData (travelRuleKey a.payer nonceHash)
  init (s.travelRules a.travelRuleData).isNone
  require (travelRuleThreshold ≤ amount) .depositTooSmall
  let tr : TravelRuleData K := {
    bump := canonicalBump (programId : K) [.text travelRuleSeed, .key a.payer, .digest nonceHash]
    payer := a.payer
    amount
    submittedAt := now
    consumed := false }
  pure ({ s with travelRules := Function.update s.travelRules a.travelRuleData (some tr) }, none)

/-! ## The credential gate -/

/-- The checks on the credential account `k` of `wallet`: where it is, whose it is, and
that it is active and unexpired.  An account nobody created belongs to the system program. -/
def credentialGate (now : Int64) (view : View K) (k wallet : K)
    (notActive expired : VaultError) : Mx (ComplianceCredential K) := do
  require (k = gateCredentialKey wallet) .invalidCredentialPda
  let raw ← orFail (view k) (.code .wrongCredentialProgram)
  require (raw.owner = oragamiVaultProgramId) .wrongCredentialProgram
  let cred : ComplianceCredential K ← orFail (Borsh.tryDeserialize credentialDiscriminator raw.data)
    (.anchor .accountDidNotDeserialize)
  require (cred.status = credentialActive) notActive
  require (now < cred.expiresAt) expired
  pure cred

/-- What the gate lets through. -/
structure Credentialed (now : Int64) (view : View K) (k wallet : K)
    (cred : ComplianceCredential K) : Prop where
  address : k = gateCredentialKey wallet
  data : ∃ raw, view k = some raw ∧ raw.owner = oragamiVaultProgramId ∧
    Borsh.tryDeserialize credentialDiscriminator raw.data = some cred
  status : cred.status = credentialActive
  unexpired : now < cred.expiresAt

theorem credentialGate_eq_ok {now : Int64} {view : View K} {k wallet : K}
    {notActive expired : VaultError} {cred : ComplianceCredential K} :
    credentialGate now view k wallet notActive expired = .ok cred ↔
      Credentialed now view k wallet cred := by
  simp only [credentialGate, bind_eq_ok, orFail_eq_ok, require_eq_ok, pure_eq_ok]
  constructor
  · rintro ⟨_, hk, raw, hraw, _, howner, cred', hcred, _, hstatus, _, hexp, rfl⟩
    exact ⟨hk, ⟨raw, hraw, howner, hcred⟩, hstatus, hexp⟩
  · rintro ⟨hk, ⟨raw, hraw, howner, hcred⟩, hstatus, hexp⟩
    exact ⟨(), hk, raw, hraw, (), howner, cred, hcred, (), hstatus, (), hexp, rfl⟩

/-! ## Deposit -/

structure Deposit (K : Type) where
  assetVault : K
  shareMint : K
  vaultTokenAccount : K
  depositorAssetAccount : K
  depositorShareAccount : K
  credential : K
  travelRuleData : Option K
  depositor : K
  tokenProgram : K

/-- The accounts a deposit writes back. -/
def Deposit.mutable (a : Deposit K) : List K :=
  [a.assetVault, a.shareMint, a.vaultTokenAccount, a.depositorAssetAccount,
    a.depositorShareAccount] ++ a.travelRuleData.toList

/-- An optional Travel Rule record, found by its address alone. -/
def loadTravelRule (s : State K) : Option K → Mx (Option (K × TravelRuleData K)) :=
  optional fun k => do
    let tr ← orFail (s.travelRules k) (.anchor .accountNotInitialized)
    pure (k, tr)

/-- The Travel Rule gate, for vaults that opted in. -/
def travelRuleGate (required : Bool) (amount : UInt64) (depositor : K)
    (passed : Option (K × TravelRuleData K)) (travelRules : K → Option (TravelRuleData K)) :
    Mx (K → Option (TravelRuleData K)) :=
  if required = true ∧ travelRuleThreshold ≤ amount then do
    let (k, tr) ← orFail passed (.code .travelRuleRequired)
    require (tr.amount = amount) .invalidTravelRule
    require (tr.payer = depositor) .invalidTravelRule
    require (tr.consumed = false) .travelRuleAlreadyConsumed
    pure (Function.update travelRules k (some { tr with consumed := true }))
  else
    pure travelRules

omit [Addresses K] [Deployment K] in
/-- Where no record is asked for none is consumed; a deposit that needs one consumes the one
passed, which is unused, the depositor's, and for exactly the amount. -/
theorem travelRuleGate_eq_ok {required : Bool} {amount : UInt64} {depositor : K} {o : Option K}
    {s : State K} {tr : Option (K × TravelRuleData K)} {rules : K → Option (TravelRuleData K)}
    (htr : loadTravelRule s o = .ok tr)
    (h : travelRuleGate required amount depositor tr s.travelRules = .ok rules) :
    (¬ (required = true ∧ travelRuleThreshold ≤ amount) ∧ rules = s.travelRules) ∨
      ((required = true ∧ travelRuleThreshold ≤ amount) ∧ ∃ k tr, o = some k ∧
        s.travelRules k = some tr ∧ tr.payer = depositor ∧ tr.amount = amount ∧
        tr.consumed = false ∧
        rules = Function.update s.travelRules k (some { tr with consumed := true })) := by
  unfold travelRuleGate at h
  split at h
  · next hneeds =>
      simp only [bind_eq_ok, orFail_eq_ok, require_eq_ok, pure_eq_ok] at h
      obtain ⟨⟨k, t⟩, ht, _, hamount, _, hpayer, _, hfresh, rfl⟩ := h
      rcases optional_eq_ok.mp htr with ⟨-, hnone⟩ | ⟨k', t', hk, hsome, hload⟩
      · cases ht.symm.trans hnone
      · cases ht.symm.trans hsome
        simp only [bind_eq_ok, orFail_eq_ok, pure_eq_ok, Prod.mk.injEq] at hload
        obtain ⟨_, hstored, rfl, rfl⟩ := hload
        exact .inr ⟨hneeds, _, _, hk, hstored, hpayer, hamount, hfresh, rfl⟩
  · next hneeds => exact .inl ⟨hneeds, (pure_eq_ok.mp h).symm⟩

/-- `amount * 10000 / nav`, the shares a deposit buys. -/
def sharesFor (amount nav : UInt64) : Mx UInt64 := do
  let x ← orFail (Checked.mul amount navBpsDenominator) (.code .overflow)
  orFail (Checked.div x nav) (.code .overflow)

theorem sharesFor_eq_ok {amount nav x : UInt64} :
    sharesFor amount nav = .ok x ↔
      amount.toNat * 10000 < 2 ^ 64 ∧ nav.toNat ≠ 0 ∧ x.toNat = amount.toNat * 10000 / nav.toNat :=
  mulDiv_eq_ok

def deposit [TokenProgram K] (now : Int64) (view : View K) (a : Deposit K) (amount : UInt64)
    (s : State K) : Mx (Outcome K) := do
  let v ← s.loadVault a.assetVault
  address a.shareMint v.shareMint
  let _ ← loadMint s.ledger a.shareMint
  address a.vaultTokenAccount v.vaultTokenAccount
  let _ ← loadTokenAccount s.ledger a.vaultTokenAccount
  let _ ← loadTokenAccount s.ledger a.depositorAssetAccount
  let _ ← loadTokenAccount s.ledger a.depositorShareAccount
  seeds a.credential (gateCredentialKey a.depositor)
  let tr ← loadTravelRule s a.travelRuleData
  tokenProgram a.tokenProgram
  distinct a.mutable
  require (v.paused = false) .vaultPaused
  require (v.minDeposit ≤ amount) .depositTooSmall
  require (amount ≤ v.maxDeposit) .depositTooLarge
  let cred ← credentialGate now view a.credential a.depositor .credentialNotActive
    .credentialExpired
  require (cred.wallet = a.depositor) .credentialWalletMismatch
  let travelRules ← travelRuleGate v.travelRuleRequired amount a.depositor tr s.travelRules
  let nav := v.navPriceBps
  let shares ← sharesFor amount nav
  require (0 < shares) .zeroShares
  let ledger ← cpi (TokenProgram.transfer s.ledger a.depositorAssetAccount a.vaultTokenAccount
    a.depositor amount)
  let ledger ← cpi (TokenProgram.mintTo ledger a.shareMint a.depositorShareAccount a.assetVault
    shares)
  let totalDeposits ← orFail (Checked.add v.totalDeposits amount) (.code .overflow)
  let totalSupply ← orFail (Checked.add v.totalSupply shares) (.code .overflow)
  pure ({ s with
      vaults := Function.update s.vaults a.assetVault (some { v with totalDeposits, totalSupply })
      travelRules
      ledger },
    some (.depositMade a.depositor v.assetMint amount shares nav now))

/-- A deposit of `amount` that bought `shares`: `L` is the ledger after the asset came in. -/
structure Deposited [TokenProgram K] (now : Int64) (view : View K) (a : Deposit K)
    (amount : UInt64) (s s' : State K) (v : AssetVault K) (cred : ComplianceCredential K)
    (shares : UInt64) (L : Ledger K) : Prop where
  vault : s.loadVault a.assetVault = .ok v
  shareMint : a.shareMint = v.shareMint
  vaultTokenAccount : a.vaultTokenAccount = v.vaultTokenAccount
  unpaused : v.paused = false
  credential : Credentialed now view a.credential a.depositor cred
  wallet : cred.wallet = a.depositor
  travelRule : ∃ tr, loadTravelRule s a.travelRuleData = .ok tr ∧
    travelRuleGate v.travelRuleRequired amount a.depositor tr s.travelRules = .ok s'.travelRules
  price : sharesFor amount v.navPriceBps = .ok shares
  transfer : TokenProgram.transfer s.ledger a.depositorAssetAccount a.vaultTokenAccount
    a.depositor amount = some L
  mint : TokenProgram.mintTo L a.shareMint a.depositorShareAccount a.assetVault shares =
    some s'.ledger
  totals : ∃ totalDeposits totalSupply,
    totalDeposits.toNat = v.totalDeposits.toNat + amount.toNat ∧
      totalSupply.toNat = v.totalSupply.toNat + shares.toNat ∧
      s'.vaults = Function.update s.vaults a.assetVault
        (some { v with totalDeposits, totalSupply })
  factory : s'.factory = s.factory
  credentials : s'.credentials = s.credentials

/-- What a deposit did to the Travel Rule records. -/
theorem Deposited.travelRules [TokenProgram K] {now : Int64} {view : View K} {a : Deposit K}
    {amount : UInt64} {s s' : State K} {v : AssetVault K} {cred : ComplianceCredential K}
    {shares : UInt64} {L : Ledger K} (h : Deposited now view a amount s s' v cred shares L) :
    (¬ (v.travelRuleRequired = true ∧ travelRuleThreshold ≤ amount) ∧
        s'.travelRules = s.travelRules) ∨
      ((v.travelRuleRequired = true ∧ travelRuleThreshold ≤ amount) ∧ ∃ k tr,
        a.travelRuleData = some k ∧ s.travelRules k = some tr ∧ tr.payer = a.depositor ∧
        tr.amount = amount ∧ tr.consumed = false ∧
        s'.travelRules = Function.update s.travelRules k (some { tr with consumed := true })) := by
  obtain ⟨tr, htr, hgate⟩ := h.travelRule
  exact travelRuleGate_eq_ok htr hgate

theorem deposit_spec [TokenProgram K] {now : Int64} {view : View K} {a : Deposit K}
    {amount : UInt64} {s s' : State K} {ev : Option (Event K)}
    (h : deposit now view a amount s = .ok (s', ev)) :
    ∃ v cred shares L, Deposited now view a amount s s' v cred shares L := by
  simp only [deposit, bind_eq_ok, address_eq_ok, orFail_eq_ok, require_eq_ok, cpi_eq_ok,
    credentialGate_eq_ok, Checked.add_eq_some, pure_eq_ok, Prod.mk.injEq] at h
  -- accounts, guards, then the calls and totals
  obtain ⟨v, hv, _, hmint, _, _, _, hvault, _, _, _, _, _, _, _, _, tr, htr, h⟩ := h
  obtain ⟨_, _, _, _, _, hpaused, _, _, _, _, cred, hcred, _, hwallet, rules, hgate, h⟩ := h
  obtain ⟨shares, hshares, _, _, L, htransfer, L', hmintTo, td, htd, ts, hts, hs, -⟩ := h
  subst hs
  exact ⟨v, cred, shares, L, hv, hmint, hvault, hpaused, hcred, hwallet, ⟨tr, htr, hgate⟩, hshares,
    htransfer, hmintTo, ⟨td, ts, htd, hts, rfl⟩, rfl, rfl⟩

/-! ## Redeem -/

structure Redeem (K : Type) where
  assetVault : K
  shareMint : K
  vaultTokenAccount : K
  redeemerShareAccount : K
  redeemerAssetAccount : K
  redeemer : K
  tokenProgram : K

/-- The accounts a redemption writes back. -/
def Redeem.mutable (a : Redeem K) : List K :=
  [a.assetVault, a.shareMint, a.vaultTokenAccount, a.redeemerShareAccount, a.redeemerAssetAccount]

/-- `shares * nav / 10000`, the asset tokens a redemption pays. -/
def payoutFor (shares nav : UInt64) : Mx UInt64 := do
  let x ← orFail (Checked.mul shares nav) (.code .overflow)
  orFail (Checked.div x navBpsDenominator) (.code .overflow)

theorem payoutFor_eq_ok {shares nav x : UInt64} :
    payoutFor shares nav = .ok x ↔
      shares.toNat * nav.toNat < 2 ^ 64 ∧ x.toNat = shares.toNat * nav.toNat / 10000 := by
  refine mulDiv_eq_ok.trans ?_
  have hden : navBpsDenominator.toNat ≠ 0 := by decide
  constructor
  · rintro ⟨hlt, -, hx⟩
    exact ⟨hlt, hx⟩
  · rintro ⟨hlt, hx⟩
    exact ⟨hlt, hden, hx⟩

/-- `payoutFor` fails only on overflow of the product. -/
theorem payoutFor_eq_error {shares nav : UInt64} {e : Failure VaultError} :
    payoutFor shares nav = .error e ↔
      2 ^ 64 ≤ shares.toNat * nav.toNat ∧ .code .overflow = e :=
  mulDiv_eq_error (by decide)

def redeem [TokenProgram K] (now : Int64) (a : Redeem K) (shareAmount : UInt64) (s : State K) :
    Mx (Outcome K) := do
  let v ← s.loadVault a.assetVault
  address a.shareMint v.shareMint
  let _ ← loadMint s.ledger a.shareMint
  address a.vaultTokenAccount v.vaultTokenAccount
  let custody ← loadTokenAccount s.ledger a.vaultTokenAccount
  let _ ← loadTokenAccount s.ledger a.redeemerShareAccount
  let _ ← loadTokenAccount s.ledger a.redeemerAssetAccount
  tokenProgram a.tokenProgram
  distinct a.mutable
  require (0 < shareAmount) .zeroShares
  let nav := v.navPriceBps
  let assetAmount ← payoutFor shareAmount nav
  require (assetAmount ≤ custody.amount) .insufficientVaultFunds
  let ledger ← cpi (TokenProgram.burn s.ledger a.redeemerShareAccount a.shareMint a.redeemer
    shareAmount)
  let ledger ← cpi (TokenProgram.transfer ledger a.vaultTokenAccount a.redeemerAssetAccount
    a.assetVault assetAmount)
  let totalDeposits := Checked.satSub v.totalDeposits assetAmount
  let totalSupply ← orFail (Checked.sub v.totalSupply shareAmount) (.code .overflow)
  pure ({ s with
      vaults := Function.update s.vaults a.assetVault (some { v with totalDeposits, totalSupply })
      ledger },
    some (.redeemMade a.redeemer v.assetMint shareAmount assetAmount nav now))

/-- A redemption of `shares` for `assetAmount`: `L` is the ledger between the burn and the
payment. -/
structure Redeemed [TokenProgram K] (a : Redeem K) (shares : UInt64) (s s' : State K)
    (v : AssetVault K) (assetAmount totalSupply : UInt64) (L : Ledger K) : Prop where
  vault : s.loadVault a.assetVault = .ok v
  shareMint : a.shareMint = v.shareMint
  vaultTokenAccount : a.vaultTokenAccount = v.vaultTokenAccount
  positive : 0 < shares
  payout : payoutFor shares v.navPriceBps = .ok assetAmount
  burn : TokenProgram.burn s.ledger a.redeemerShareAccount a.shareMint a.redeemer shares = some L
  transfer : TokenProgram.transfer L a.vaultTokenAccount a.redeemerAssetAccount a.assetVault
    assetAmount = some s'.ledger
  outstanding : totalSupply.toNat + shares.toNat = v.totalSupply.toNat
  state : s' = { s with
    vaults := Function.update s.vaults a.assetVault (some { v with
      totalDeposits := Checked.satSub v.totalDeposits assetAmount, totalSupply })
    ledger := s'.ledger }

theorem redeem_spec [TokenProgram K] {now : Int64} {a : Redeem K} {shares : UInt64}
    {s s' : State K} {ev : Option (Event K)} (h : redeem now a shares s = .ok (s', ev)) :
    ∃ v assetAmount totalSupply L, Redeemed a shares s s' v assetAmount totalSupply L := by
  simp only [redeem, bind_eq_ok, address_eq_ok, orFail_eq_ok, require_eq_ok, cpi_eq_ok,
    Checked.sub_eq_some, pure_eq_ok, Prod.mk.injEq] at h
  obtain ⟨v, hv, _, hmint, _, _, _, hvault, _, _, _, _, _, _, _, _, _, _, _, hpos, pay, hpay, _, _, L,
    hburn, L', htransfer, supply, hsupply, rfl, -⟩ := h
  exact ⟨v, pay, supply, L, hv, hmint, hvault, hpos, hpay, hburn, htransfer, hsupply, rfl⟩

/-- A redemption overflows in the product, or after burning more than is on the books. -/
theorem redeem_overflow [TokenProgram K] {now : Int64} {a : Redeem K} {x : UInt64} {s : State K}
    (h : redeem now a x s = .error (.code .overflow)) :
    ∃ v, s.vaults a.assetVault = some v ∧ (2 ^ 64 ≤ x.toNat * v.navPriceBps.toNat ∨
      ∃ L, a.shareMint = v.shareMint ∧
        TokenProgram.burn s.ledger a.redeemerShareAccount a.shareMint a.redeemer x = some L ∧
        v.totalSupply.toNat < x.toNat) := by
  simp only [redeem, bind_eq_error, loadVault_ne_code, loadVault_eq_ok, address_ne_code,
    address_eq_ok, loadMint_ne_code, loadTokenAccount_ne_code, tokenProgram_ne_code,
    distinct_ne_code, payoutFor_eq_error, cpi_eq_error, cpi_eq_ok, orFail_eq_error, require_eq_error,
    Checked.sub_eq_none, pure_ne_error, Failure.code.injEq, reduceCtorEq, and_false, and_true,
    false_or, or_false, exists_false] at h
  obtain ⟨v, ⟨hv, -⟩, _, hmint, _, -, _, -, _, -, _, -, _, -, _, -, _, -, _, -, h⟩ := h
  refine ⟨v, hv, ?_⟩
  rcases h with hover | ⟨_, -, _, -, L, hburn, _, -, hlt⟩
  · exact .inl hover
  · exact .inr ⟨L, hmint, hburn, hlt⟩

/-! ## Transfer of shares -/

structure TransferShares (K : Type) where
  assetVault : K
  senderShareAccount : K
  receiverShareAccount : K
  senderCredential : K
  receiverCredential : K
  sender : K
  tokenProgram : K

def transferShares [TokenProgram K] (now : Int64) (view : View K) (a : TransferShares K)
    (amount : UInt64) (s : State K) : Mx (Outcome K) := do
  let v ← s.loadVault a.assetVault
  let senderAccount ← loadTokenAccount s.ledger a.senderShareAccount
  require (senderAccount.mint = v.shareMint) .wrongShareMint
  let receiverAccount ← loadTokenAccount s.ledger a.receiverShareAccount
  require (receiverAccount.mint = v.shareMint) .wrongShareMint
  seeds a.senderCredential (gateCredentialKey a.sender)
  seeds a.receiverCredential (gateCredentialKey receiverAccount.owner)
  tokenProgram a.tokenProgram
  distinct [a.senderShareAccount, a.receiverShareAccount]
  require (0 < amount) .zeroShares
  require (v.paused = false) .vaultPaused
  let senderCred ← credentialGate now view a.senderCredential a.sender .credentialNotActive
    .credentialExpired
  require (senderCred.wallet = a.sender) .credentialWalletMismatch
  -- the receiver's credential is found by the owner of the account; its wallet is not compared
  let _ ← credentialGate now view a.receiverCredential receiverAccount.owner
    .receiverCredentialNotActive .receiverCredentialExpired
  let ledger ← cpi (TokenProgram.transfer s.ledger a.senderShareAccount a.receiverShareAccount
    a.sender amount)
  pure ({ s with ledger },
    some (.transferMade v.assetMint a.sender receiverAccount.owner amount v.navPriceBps now))

/-- A transfer of shares, between accounts `sender` may debit and `receiver` owns. -/
structure Transferred [TokenProgram K] (now : Int64) (view : View K) (a : TransferShares K)
    (amount : UInt64) (s : State K) (v : AssetVault K) (source destination : TokenAccount K)
    (senderCred receiverCred : ComplianceCredential K) (L : Ledger K) : Prop where
  vault : s.loadVault a.assetVault = .ok v
  sourceAccount : s.ledger.account a.senderShareAccount = some source
  sourceMint : source.mint = v.shareMint
  destinationAccount : s.ledger.account a.receiverShareAccount = some destination
  destinationMint : destination.mint = v.shareMint
  positive : 0 < amount
  unpaused : v.paused = false
  sender : Credentialed now view a.senderCredential a.sender senderCred
  senderWallet : senderCred.wallet = a.sender
  receiver : Credentialed now view a.receiverCredential destination.owner receiverCred
  transfer : TokenProgram.transfer s.ledger a.senderShareAccount a.receiverShareAccount a.sender
    amount = some L

theorem transferShares_spec [TokenProgram K] {now : Int64} {view : View K} {a : TransferShares K}
    {amount : UInt64} {s s' : State K} {ev : Option (Event K)}
    (h : transferShares now view a amount s = .ok (s', ev)) :
    ∃ v source destination senderCred receiverCred L,
      Transferred now view a amount s v source destination senderCred receiverCred L ∧
        s' = { s with ledger := L } := by
  simp only [transferShares, bind_eq_ok, loadTokenAccount_eq_ok, require_eq_ok, cpi_eq_ok,
    credentialGate_eq_ok, pure_eq_ok, Prod.mk.injEq] at h
  obtain ⟨v, hv, src, ⟨hsrc, _⟩, _, hsm, dst, ⟨hdst, _⟩, _, hdm, _, _, _, _, _, _, _, _, _, hpos, _,
    hpaused, sc, hsc, _, hsw, rc, hrc, L, htransfer, rfl, -⟩ := h
  exact ⟨v, src, dst, sc, rc, L, ⟨hv, hsrc, hsm, hdst, hdm, hpos, hpaused, hsc, hsw, hrc,
    htransfer⟩, rfl⟩

end MultiAssetVault
