/-
# `Oragami.OragamiVault.Authority` — who may write what

The fields of the program's accounts fall into groups, by who writes them.

| | |
| :-- | :-- |
| `Identity` | `initialize_vault`, and nobody after it: mints, accounts and the two keys |
| `Policy` | the authority: settings, what the registry says, mandate, credentials |
| `Operations` | the operator: NAV, yield, strategy accounts, attestation |
| `lastVerifiedAt` | either: the authority's registry instructions stamp it, and so does `set_nav` |
| the books | holders, as they trade: totals, Travel Rule records, tokens |

The vault's own tokens are in the last group, and leave it in two ways only: against
shares their holder burns (`Step.outflow`).  Neither key can take them.
-/
import Oragami.OragamiVault.Accounting
import Oragami.OragamiVault.Configuration

namespace OragamiVault

open Anchor Addresses Lts

variable {K : Type}

/-! ## The groups -/

/-- What is fixed when the vault is opened. -/
structure Identity (K : Type) where
  bump : UInt8
  cvaultMint : K
  cvaultTradeMint : K
  vaultTokenAccount : K
  treasury : K
  authority : K
  operator : K

def VaultState.identity (vs : VaultState K) : Identity K where
  bump := vs.bump
  cvaultMint := vs.cvaultMint
  cvaultTradeMint := vs.cvaultTradeMint
  vaultTokenAccount := vs.vaultTokenAccount
  treasury := vs.treasury
  authority := vs.authority
  operator := vs.operator

/-- What a registry says of the asset, whenever that was verified. -/
structure RegistryTerms (K : Type) where
  bump : UInt8
  vault : K
  assetId : Vector UInt8 16
  isin : Vector UInt8 12
  commodityCode : Vector UInt8 8
  custodian : K
  linkHash : Vector UInt8 32

def RwaAssetRegistry.terms (reg : RwaAssetRegistry K) : RegistryTerms K where
  bump := reg.bump
  vault := reg.vault
  assetId := reg.assetId
  isin := reg.isin
  commodityCode := reg.commodityCode
  custodian := reg.custodian
  linkHash := reg.linkHash

/-- What the authority decides. -/
structure Policy (K : Type) where
  settings : Option Settings
  registry : Option (RegistryTerms K)
  mandate : Option (VaultMandate K)
  credentials : K → Option (ComplianceCredential K)

def State.policy (s : State K) : Policy K where
  settings := s.settings
  registry := s.rwaAssetRegistry.map (·.terms)
  mandate := s.vaultMandate
  credentials := s.credentials

/-- When the registry was last verified. -/
def State.lastVerifiedAt (s : State K) : Option Int64 :=
  s.rwaAssetRegistry.map (·.lastVerifiedAt)

/-- What the operator runs. -/
structure Operations (K : Type) where
  nav : Option UInt64
  pendingYield : Option UInt64
  lastYieldClaim : Option Int64
  strategy : Option (RegisterUsxAccountsParams K)
  attestation : Option (ReserveAttestation K)

def State.operations (s : State K) : Operations K where
  nav := s.vaultState.map (·.navPriceBps)
  pendingYield := s.vaultState.map (·.pendingYield)
  lastYieldClaim := s.vaultState.map (·.lastYieldClaim)
  strategy := s.strategy
  attestation := s.reserveAttestation

/-- The two keys of a vault. -/
inductive Office where
  | authority
  | operator

/-- The office an instruction asks its signer to hold, if it asks for one. -/
def Call.office : Call K → Option Office
  | .initializeRwaAssetRegistry _ _ => some .authority
  | .initializeVaultMandate _ _ => some .authority
  | .updateRwaAssetRegistry _ _ => some .authority
  | .setMandateLiquidityEnforcement _ _ => some .authority
  | .setNav _ _ => some .operator
  | .issueCredential _ _ => some .authority
  | .revokeCredential _ => some .authority
  | .processYield _ => some .operator
  | .registerUsxAccounts _ _ => some .operator
  | .distributeYield _ => some .operator
  | .setPause _ _ => some .authority
  | .updateConfig _ _ => some .authority
  | .syncYield _ => some .operator
  | .postReserveAttestation _ _ => some .operator
  | _ => none

section Exec

variable [DecidableEq K] [Addresses K] [Deployment K]

/-- Who holds an office. -/
def VaultState.holder (vs : VaultState K) : Office → K
  | .authority => vs.authority
  | .operator => operatorPubkey vs

variable [TokenProgram K] {now : Int64} {s s' : State K} {ev : Option (Event K)} {c : Call K}
  {vs : VaultState K}

/-- An instruction that asks for an office is signed by its holder. -/
theorem exec_office {o : Office} (h : c.exec now s = .ok (s', ev)) (hvs : s.vaultState = some vs)
    (ho : c.office = some o) : c.signer = some (vs.holder o) := by
  cases c with
  | initializeRwaAssetRegistry a p =>
      cases ho
      simp only [Call.exec, initializeRwaAssetRegistry, bind_eq_ok, loadVaultState_eq_ok,
        address_eq_ok] at h
      obtain ⟨_, ⟨-, hvs', -⟩, _, -, _, -, _, hsigned, -⟩ := h
      cases hvs.symm.trans hvs'
      exact congrArg some hsigned
  | initializeVaultMandate a p =>
      cases ho
      simp only [Call.exec, initializeVaultMandate, bind_eq_ok, loadVaultState_eq_ok,
        address_eq_ok] at h
      obtain ⟨_, ⟨-, hvs', -⟩, _, -, _, -, _, hsigned, -⟩ := h
      cases hvs.symm.trans hvs'
      exact congrArg some hsigned
  | updateRwaAssetRegistry a p =>
      cases ho
      simp only [Call.exec, updateRwaAssetRegistry, bind_eq_ok, loadVaultState_eq_ok,
        address_eq_ok] at h
      obtain ⟨_, ⟨-, hvs', -⟩, _, -, _, hsigned, -⟩ := h
      cases hvs.symm.trans hvs'
      exact congrArg some hsigned
  | setMandateLiquidityEnforcement a active =>
      cases ho
      simp only [Call.exec, setMandateLiquidityEnforcement, bind_eq_ok, loadVaultState_eq_ok,
        address_eq_ok] at h
      obtain ⟨_, ⟨-, hvs', -⟩, _, -, _, hsigned, -⟩ := h
      cases hvs.symm.trans hvs'
      exact congrArg some hsigned
  | setNav a nav =>
      cases ho
      simp only [Call.exec, setNav, bind_eq_ok, loadVaultState_eq_ok, requireOperator,
        require_eq_ok] at h
      obtain ⟨_, ⟨-, hvs', -⟩, _, -, _, hsigned, -⟩ := h
      cases hvs.symm.trans hvs'
      exact congrArg some hsigned.symm
  | issueCredential a p =>
      cases ho
      obtain ⟨_, _, hw, -⟩ := issueCredential_spec h
      cases hvs.symm.trans hw.vaultState
      exact congrArg some hw.authority
  | revokeCredential a =>
      cases ho
      obtain ⟨_, _, hw, -⟩ := revokeCredential_spec h
      cases hvs.symm.trans hw.vaultState
      exact congrArg some hw.authority
  | processYield a =>
      cases ho
      simp only [Call.exec, processYield, bind_eq_ok, loadVaultState_eq_ok, requireOperator,
        require_eq_ok] at h
      obtain ⟨_, ⟨-, hvs', -⟩, _, hsigned, -⟩ := h
      cases hvs.symm.trans hvs'
      exact congrArg some hsigned.symm
  | registerUsxAccounts a p =>
      cases ho
      simp only [Call.exec, registerUsxAccounts, bind_eq_ok, loadVaultState_eq_ok, requireOperator,
        require_eq_ok] at h
      obtain ⟨_, ⟨-, hvs', -⟩, _, hsigned, -⟩ := h
      cases hvs.symm.trans hvs'
      exact congrArg some hsigned.symm
  | distributeYield a =>
      cases ho
      simp only [Call.exec, distributeYield, bind_eq_ok, loadVaultState_eq_ok, requireOperator,
        require_eq_ok] at h
      obtain ⟨_, ⟨-, hvs', -⟩, _, hsigned, -⟩ := h
      cases hvs.symm.trans hvs'
      exact congrArg some hsigned.symm
  | setPause a paused =>
      cases ho
      simp only [Call.exec, setPause, bind_eq_ok, loadVaultState_eq_ok, address_eq_ok] at h
      obtain ⟨_, ⟨-, hvs', -⟩, _, hsigned, -⟩ := h
      cases hvs.symm.trans hvs'
      exact congrArg some hsigned
  | updateConfig a p =>
      cases ho
      simp only [Call.exec, updateConfig, bind_eq_ok, loadVaultState_eq_ok, address_eq_ok] at h
      obtain ⟨_, ⟨-, hvs', -⟩, _, hsigned, -⟩ := h
      cases hvs.symm.trans hvs'
      exact congrArg some hsigned
  | syncYield a =>
      cases ho
      simp only [Call.exec, syncYield, bind_eq_ok, loadVaultState_eq_ok, requireOperator,
        require_eq_ok] at h
      obtain ⟨_, ⟨-, hvs', -⟩, _, hsigned, -⟩ := h
      cases hvs.symm.trans hvs'
      exact congrArg some hsigned.symm
  | postReserveAttestation a p =>
      cases ho
      obtain ⟨_, _, hvs', hsigned, -⟩ := postReserveAttestation_posted h
      cases hvs.symm.trans hvs'
      exact congrArg some hsigned.symm
  | _ => cases ho

omit [TokenProgram K] in
/-- `set_nav` stamps the registry it loaded and changes nothing else of it. -/
theorem setNav_stamps {a : SetNav K} {nav : UInt64} (h : setNav now a nav s = .ok (s', ev)) :
    ∃ reg, s.rwaAssetRegistry = some reg ∧
      s'.rwaAssetRegistry = some { reg with lastVerifiedAt := now } := by
  simp only [setNav, bind_eq_ok, pure_eq_ok, Prod.mk.injEq] at h
  obtain ⟨_, -, reg, hreg, _, -, _, -, rfl, -⟩ := h
  exact ⟨reg, loadOfVault_stored hreg, rfl⟩

omit [DecidableEq K] [Addresses K] [Deployment K] [TokenProgram K] in
/-- The policy is what it was where settings, registry, mandate and credentials are. -/
theorem policy_congr {vs' : VaultState K} (hvs : s.vaultState = some vs)
    (hvs' : s'.vaultState = some vs') (hsettings : vs'.settings = vs.settings)
    (hregistry : s'.rwaAssetRegistry = s.rwaAssetRegistry)
    (hmandate : s'.vaultMandate = s.vaultMandate) (hcreds : s'.credentials = s.credentials) :
    s'.policy = s.policy := by
  simp only [State.policy, settings_of_some hvs, settings_of_some hvs', hsettings, hregistry,
    hmandate, hcreds]

/-- What a vault state holds of the operator's work. -/
structure VaultState.SameOperations (vs vs' : VaultState K) : Prop where
  navPriceBps : vs'.navPriceBps = vs.navPriceBps
  pendingYield : vs'.pendingYield = vs.pendingYield
  lastYieldClaim : vs'.lastYieldClaim = vs.lastYieldClaim
  strategy : vs'.strategy = vs.strategy

omit [DecidableEq K] [Addresses K] [Deployment K] [TokenProgram K] in
theorem operations_congr {vs' : VaultState K} (hvs : s.vaultState = some vs)
    (hvs' : s'.vaultState = some vs') (hsame : vs.SameOperations vs')
    (hatt : s'.reserveAttestation = s.reserveAttestation) : s'.operations = s.operations := by
  simp only [State.operations, strategy_of_some hvs, strategy_of_some hvs', hsame.strategy, hvs,
    hvs', Option.map_some, hsame.navPriceBps, hsame.pendingYield, hsame.lastYieldClaim, hatt]

/-- What an instruction leaves as it was: the identity, and the group of an office it does not
ask for.  The time of verification it leaves, or sets to its own if it asks for an office. -/
structure Respects (now : Int64) (c : Call K) (s s' : State K) (vs : VaultState K) : Prop where
  identity : ∃ vs', s'.vaultState = some vs' ∧ vs'.identity = vs.identity
  policy : c.office ≠ some .authority → s'.policy = s.policy
  operations : c.office ≠ some .operator → s'.operations = s.operations
  verified : s'.lastVerifiedAt = s.lastVerifiedAt ∨
    s'.lastVerifiedAt = some now ∧ ∃ o, c.office = some o

theorem exec_respects (h : c.exec now s = .ok (s', ev)) (hvs : s.vaultState = some vs) :
    Respects now c s s' vs := by
  cases c with
  | initializeVault a p =>
      obtain ⟨_, hi⟩ := initializeVault_spec h
      cases hvs.symm.trans hi.fresh
  | initializeRwaAssetRegistry a p =>
      obtain ⟨reg, hnow, rfl⟩ := initializeRwaAssetRegistry_spec h
      exact ⟨⟨vs, hvs, rfl⟩, fun ho => absurd rfl ho, fun _ => rfl,
        .inr ⟨congrArg some hnow, _, rfl⟩⟩
  | initializeVaultMandate a p =>
      obtain ⟨-, -, m, rfl, -⟩ := initializeVaultMandate_spec h
      exact ⟨⟨vs, hvs, rfl⟩, fun ho => absurd rfl ho, fun _ => rfl, .inl rfl⟩
  | updateRwaAssetRegistry a p =>
      obtain ⟨reg, hnow, rfl⟩ := updateRwaAssetRegistry_spec h
      exact ⟨⟨vs, hvs, rfl⟩, fun ho => absurd rfl ho, fun _ => rfl,
        .inr ⟨congrArg some hnow, _, rfl⟩⟩
  | setMandateLiquidityEnforcement a active =>
      obtain ⟨m, -, rfl⟩ := setMandateLiquidityEnforcement_spec h
      exact ⟨⟨vs, hvs, rfl⟩, fun ho => absurd rfl ho, fun _ => rfl, .inl rfl⟩
  | setNav a nav =>
      obtain ⟨reg, hreg, hreg'⟩ := setNav_stamps h
      obtain ⟨vs₁, registry, hvs₁, rfl⟩ := setNav_spec h
      cases hvs.symm.trans hvs₁
      have hregistry : registry = some { reg with lastVerifiedAt := now } := hreg'
      refine ⟨⟨_, rfl, rfl⟩, ?_, fun ho => absurd rfl ho,
        .inr ⟨congrArg (Option.map RwaAssetRegistry.lastVerifiedAt) hregistry, _, rfl⟩⟩
      intro _
      simp only [State.policy, settings_of_some hvs, hreg, hregistry]
      rfl
  | issueCredential a p =>
      obtain ⟨_, cred, hw, -⟩ := issueCredential_spec h
      rw [hw.state]
      exact ⟨⟨vs, hvs, rfl⟩, fun ho => absurd rfl ho, fun _ => rfl, .inl rfl⟩
  | revokeCredential a =>
      obtain ⟨_, cred, hw, -⟩ := revokeCredential_spec h
      rw [hw.state]
      exact ⟨⟨vs, hvs, rfl⟩, fun ho => absurd rfl ho, fun _ => rfl, .inl rfl⟩
  | deposit a amount =>
      obtain ⟨_, cred, shares, L, hd⟩ := deposit_spec h
      obtain ⟨-, hvs₁, -⟩ := loadVaultState_eq_ok.mp hd.vaultState
      cases hvs.symm.trans hvs₁
      obtain ⟨deposits, supply, -, -, hvs'⟩ := hd.totals
      obtain ⟨hcreds, hregistry, hmandate, hatt⟩ := hd.rest
      refine ⟨⟨_, hvs', rfl⟩, ?_, ?_,
        .inl (congrArg (Option.map RwaAssetRegistry.lastVerifiedAt) hregistry)⟩
      · exact fun _ => policy_congr hvs hvs' rfl hregistry hmandate hcreds
      · exact fun _ => operations_congr hvs hvs' ⟨rfl, rfl, rfl, rfl⟩ hatt
  | initTravelRule a p =>
      obtain ⟨-, -, -, tr, -, -, -, rfl⟩ := initTravelRule_spec h
      exact ⟨⟨vs, hvs, rfl⟩, fun _ => rfl, fun _ => rfl, .inl rfl⟩
  | redeem a x =>
      obtain ⟨_, usdc, supply, L, L', hr, hs⟩ := redeem_eq_ok.mp h
      obtain ⟨-, hvs₁, -⟩ := loadVaultState_eq_ok.mp hr.vaultState
      cases hvs.symm.trans hvs₁
      cases hs
      refine ⟨⟨_, rfl, rfl⟩, ?_, ?_, .inl rfl⟩
      · exact fun _ => policy_congr hvs rfl rfl rfl rfl rfl
      · exact fun _ => operations_congr hvs rfl ⟨rfl, rfl, rfl, rfl⟩ rfl
  | convertToTradeable a x =>
      obtain ⟨_, L, L', hc, hs⟩ := convertToTradeable_eq_ok.mp h
      cases hs
      exact ⟨⟨vs, hvs, rfl⟩, fun _ => rfl, fun _ => rfl, .inl rfl⟩
  | redeemTradeable a x mode =>
      cases mode with
      | true =>
          obtain ⟨_, L, L', hu, hm, hs⟩ := rewrap_eq_ok.mp h
          cases hs
          exact ⟨⟨vs, hvs, rfl⟩, fun _ => rfl, fun _ => rfl, .inl rfl⟩
      | false =>
          obtain ⟨_, usdc, deposits, supply, L, L', hu, hp, hs⟩ := payOut_eq_ok.mp h
          obtain ⟨-, hvs₁, -⟩ := loadVaultState_eq_ok.mp hu.vaultState
          cases hvs.symm.trans hvs₁
          cases hs
          refine ⟨⟨_, rfl, rfl⟩, ?_, ?_, .inl rfl⟩
          · exact fun _ => policy_congr hvs rfl rfl rfl rfl rfl
          · exact fun _ => operations_congr hvs rfl ⟨rfl, rfl, rfl, rfl⟩ rfl
  | processYield a =>
      obtain ⟨-, _, pending, claim, hp⟩ := processYield_spec h
      cases hvs.symm.trans hp.vaultState
      rw [hp.state]
      exact ⟨⟨_, rfl, rfl⟩, fun _ => policy_congr hvs rfl rfl rfl rfl rfl,
        fun ho => absurd rfl ho, .inl rfl⟩
  | registerUsxAccounts a p =>
      obtain ⟨_, hvs₁, rfl⟩ := registerUsxAccounts_spec h
      cases hvs.symm.trans hvs₁
      exact ⟨⟨_, rfl, rfl⟩, fun _ => policy_congr hvs rfl rfl rfl rfl rfl,
        fun ho => absurd rfl ho, .inl rfl⟩
  | distributeYield a =>
      obtain ⟨_, hvs₁, ⟨-, rfl, -⟩ | ⟨-, rfl, -⟩⟩ := distributeYield_spec h
      · exact ⟨⟨vs, hvs, rfl⟩, fun _ => rfl, fun _ => rfl, .inl rfl⟩
      · cases hvs.symm.trans hvs₁
        exact ⟨⟨_, rfl, rfl⟩, fun _ => policy_congr hvs rfl rfl rfl rfl rfl,
          fun ho => absurd rfl ho, .inl rfl⟩
  | setPause a paused =>
      obtain ⟨_, hvs₁, rfl⟩ := setPause_spec h
      cases hvs.symm.trans hvs₁
      exact ⟨⟨_, rfl, rfl⟩, fun ho => absurd rfl ho,
        fun _ => operations_congr hvs rfl ⟨rfl, rfl, rfl, rfl⟩ rfl, .inl rfl⟩
  | updateConfig a p =>
      obtain ⟨_, hvs₁, rfl, -⟩ := updateConfig_spec h
      cases hvs.symm.trans hvs₁
      exact ⟨⟨_, rfl, rfl⟩, fun ho => absurd rfl ho,
        fun _ => operations_congr hvs rfl ⟨rfl, rfl, rfl, rfl⟩ rfl, .inl rfl⟩
  | syncYield a =>
      obtain ⟨_, hvs₁, rfl⟩ := syncYield_spec h
      cases hvs.symm.trans hvs₁
      exact ⟨⟨_, rfl, rfl⟩, fun _ => policy_congr hvs rfl rfl rfl rfl rfl,
        fun ho => absurd rfl ho, .inl rfl⟩
  | postReserveAttestation a p =>
      obtain ⟨_, _, -, -, -, -, rfl⟩ := postReserveAttestation_posted h
      exact ⟨⟨vs, hvs, rfl⟩, fun _ => rfl, fun ho => absurd rfl ho, .inl rfl⟩
  | verifyProofOfReserve a =>
      cases verifyProofOfReserve_state h
      exact ⟨⟨vs, hvs, rfl⟩, fun _ => rfl, fun _ => rfl, .inl rfl⟩
  | assertLiquidityAllocation a =>
      cases assertLiquidityAllocation_state h
      exact ⟨⟨vs, hvs, rfl⟩, fun _ => rfl, fun _ => rfl, .inl rfl⟩

end Exec

/-! ## Tokens leaving the vault -/

/-- The shares an instruction buys back. -/
def Call.exit : Call K → Option UInt64
  | .redeem _ x => some x
  | .redeemTradeable _ x false => some x
  | _ => none

section Steps

variable [DecidableEq K] [Addresses K] [Deployment K] [TokenProgram K] {s s' : State K}
  {vs : VaultState K} {act : Action K}

/-- A payment for burned shares takes no more out of the vault than they are worth. -/
theorem Custody.paid_le {src m auth dst vault : K} {x usdc : UInt64} {L L' : Ledger K}
    (hc : Custody s.ledger vs) (hsig : ¬ Owned auth)
    (hburn : TokenProgram.burn s.ledger src m auth x = some L)
    (hpay : TokenProgram.transfer L vaultTokenKey dst vault usdc = some L')
    (hprice : payoutFor x vs.navPriceBps = .ok usdc) :
    (s.ledger.amount vaultTokenKey - L'.amount vaultTokenKey) * 10000 ≤
      x.toNat * vs.navPriceBps.toNat := by
  obtain ⟨-, -, out, hle, hout⟩ := hc.held.paidOut owned_vaultStateKey hsig hburn hpay
  obtain ⟨-, hfloor⟩ := payoutFor_eq_ok.mp hprice
  have hpaid : s.ledger.amount vaultTokenKey - L'.amount vaultTokenKey ≤ usdc.toNat := by
    omega
  rw [hfloor] at hpaid
  exact (Nat.mul_le_mul_right 10000 hpaid).trans (Nat.div_mul_le_self _ _)

/-- Tokens leave the vault only for shares, and no more of them than the shares are worth. -/
theorem Step.outflow (hg : Guarded s) (hvs : s.vaultState = some vs) (h : Step s act s')
    (hlt : s'.ledger.amount vaultTokenKey < s.ledger.amount vaultTokenKey) :
    ∃ now c x, act = .program now c ∧ c.exit = some x ∧
      (s.ledger.amount vaultTokenKey - s'.ledger.amount vaultTokenKey) * 10000 ≤
        x.toNat * vs.navPriceBps.toNat := by
  have hc := hg vs hvs
  cases h with
  | @program _ now c _ hsig hexec =>
      cases exec_effect hexec with
      | quiet hq =>
          rw [hq.ledger] at hlt
          exact absurd hlt (Nat.lt_irrefl _)
      | init hi => cases hvs.symm.trans hi.fresh
      | setNav _ => exact absurd hlt (Nat.lt_irrefl _)
      | issue hw _ _ _ _ _ =>
          rw [hw.state] at hlt
          exact absurd hlt (Nat.lt_irrefl _)
      | revoke hw _ _ =>
          rw [hw.state] at hlt
          exact absurd hlt (Nat.lt_irrefl _)
      | record _ _ _ _ _ _ => exact absurd hlt (Nat.lt_irrefl _)
      | deposit hd =>
          obtain ⟨-, hvs', -⟩ := loadVaultState_eq_ok.mp hd.vaultState
          cases hvs.symm.trans hvs'
          have hm := hd.mint
          rw [hd.cvaultMint, hc.cvaultMint] at hm
          obtain ⟨-, hin⟩ := hc.held.paidIn owned_vaultStateKey (hsig _ rfl)
            (hd.vaultTokenAccount ▸ hd.transfer) hm
          omega
      | redeem hr =>
          obtain ⟨-, hvs', -⟩ := loadVaultState_eq_ok.mp hr.vaultState
          cases hvs.symm.trans hvs'
          exact ⟨now, _, _, rfl, rfl, hc.paid_le (hsig _ rfl) hr.burn
            (hr.vaultTokenAccount ▸ hr.transfer) hr.payout⟩
      | convert hx =>
          obtain ⟨-, hle⟩ := hc.exchange (hsig _ rfl) hx.burn hx.mint
          exact absurd hlt (Nat.not_lt.mpr hle)
      | rewrap hu hm =>
          obtain ⟨-, hle⟩ := hc.exchange (hsig _ rfl) hu.burn hm
          exact absurd hlt (Nat.not_lt.mpr hle)
      | payOut hu hp =>
          obtain ⟨-, hvs', -⟩ := loadVaultState_eq_ok.mp hu.vaultState
          cases hvs.symm.trans hvs'
          exact ⟨now, _, _, rfl, rfl, hc.paid_le (hsig _ rfl) hu.burn
            (hu.vaultTokenAccount ▸ hp.transfer) hp.payout⟩
  | token hsig hrun =>
      obtain ⟨-, hle⟩ := hc.held.kept owned_vaultStateKey (TokenCall.run_kept hrun hsig)
      exact absurd hlt (Nat.not_lt.mpr hle)

/-- What a step may change, and who has to have signed it. -/
structure Authorised (vs : VaultState K) (t : Transition (State K) (Action K)) : Prop where
  identity : ∃ vs', t.post.vaultState = some vs' ∧ vs'.identity = vs.identity
  policy : t.post.policy ≠ t.pre.policy →
    ∃ now c, t.label = .program now c ∧ c.signer = some vs.authority
  operations : t.post.operations ≠ t.pre.operations →
    ∃ now c, t.label = .program now c ∧ c.signer = some (operatorPubkey vs)
  verified : t.post.lastVerifiedAt ≠ t.pre.lastVerifiedAt →
    ∃ now c, t.label = .program now c ∧ t.post.lastVerifiedAt = some now ∧
      (c.signer = some vs.authority ∨ c.signer = some (operatorPubkey vs))

theorem Step.authorised (hvs : s.vaultState = some vs) (h : Step s act s') :
    Authorised vs ⟨s, act, s'⟩ := by
  cases h with
  | @program _ now c _ hsig hexec =>
      have hr := exec_respects hexec hvs
      refine ⟨hr.identity, ?_, ?_, ?_⟩
      · intro hne
        have ho : c.office = some .authority := by
          by_contra hother
          exact hne (hr.policy hother)
        exact ⟨now, c, rfl, exec_office hexec hvs ho⟩
      · intro hne
        have ho : c.office = some .operator := by
          by_contra hother
          exact hne (hr.operations hother)
        exact ⟨now, c, rfl, exec_office hexec hvs ho⟩
      · intro hne
        obtain ⟨hnow, o, ho⟩ := hr.verified.resolve_left hne
        have hsigner := exec_office hexec hvs ho
        refine ⟨now, c, rfl, hnow, ?_⟩
        cases o with
        | authority => exact .inl hsigner
        | operator => exact .inr hsigner
  | token _ _ =>
      exact ⟨⟨vs, hvs, rfl⟩, fun hne => absurd rfl hne, fun hne => absurd rfl hne,
        fun hne => absurd rfl hne⟩

omit [Deployment K] [TokenProgram K] in
/-- The keys are part of the identity. -/
theorem Authorised.congr {vs' : VaultState K} {t : Transition (State K) (Action K)}
    (h : Authorised vs' t) (hid : vs'.identity = vs.identity) : Authorised vs t := by
  have hauthority : vs'.authority = vs.authority := congrArg Identity.authority hid
  have hoperator : vs'.operator = vs.operator := congrArg Identity.operator hid
  have hkey : operatorPubkey vs' = operatorPubkey vs := by
    rw [operatorPubkey, operatorPubkey, hauthority, hoperator]
  obtain ⟨⟨vs'', hvs'', hid''⟩, hpolicy, hoperations, hverified⟩ := h
  rw [hauthority] at hpolicy hverified
  rw [hkey] at hoperations hverified
  exact ⟨⟨vs'', hvs'', hid''.trans hid⟩, hpolicy, hoperations, hverified⟩

end Steps

/-! ## Runs -/

variable [DecidableEq K] [Addresses K] [Deployment K] [TokenProgram K] {ledger : Ledger K}
  {ts us : List (Transition (State K) (Action K))} {s₀ s : State K} {vs : VaultState K}

/-- The identity of an open vault stays, so its keys stay who they were, -/
theorem identity_kept (hvs : s₀.vaultState = some vs) (hrun : Run Step s₀ us s) :
    ∃ vs', s.vaultState = some vs' ∧ vs'.identity = vs.identity := by
  refine hrun.invariant (I := fun s => ∃ vs', s.vaultState = some vs' ∧ vs'.identity = vs.identity)
    ⟨vs, hvs, rfl⟩ ?_
  rintro s act s' ⟨vs', hvs', hid⟩ hstep
  obtain ⟨vs'', hvs'', hid'⟩ := (hstep.authorised hvs').identity
  exact ⟨vs'', hvs'', hid'.trans hid⟩

/-- From the moment it is open, whatever happens to a vault: its identity never changes, its
policy changes only under the signature of the authority it was opened with, its operations
only under that of the operator, the time of verification is set to the clock under either, and
tokens leave it only for shares, no more of them than the shares are worth at the NAV. -/
theorem duties_separated (h : Reaches ledger ts s₀) (hvs : s₀.vaultState = some vs)
    (hrun : Run Step s₀ us s) :
    ∀ t ∈ us, Authorised vs t ∧
      (t.post.ledger.amount vaultTokenKey < t.pre.ledger.amount vaultTokenKey →
        ∃ now c x, t.label = .program now c ∧ c.exit = some x ∧
          (t.pre.ledger.amount vaultTokenKey - t.post.ledger.amount vaultTokenKey) * 10000 ≤
            x.toNat * t.pre.book.price) := by
  intro t ht
  obtain ⟨⟨before, hbefore⟩, hstep⟩ := hrun.of_mem ht
  obtain ⟨vs', hvs', hid⟩ := identity_kept hvs hbefore
  have hreach : Reaches ledger (ts ++ before) t.pre := Run.append_iff.mpr ⟨s₀, h, hbefore⟩
  refine ⟨(hstep.authorised hvs').congr hid, ?_⟩
  intro hlt
  obtain ⟨now, c, x, hlabel, hexit, hle⟩ := hstep.outflow hreach.guarded hvs' hlt
  rw [State.book_of hvs']
  exact ⟨now, c, x, hlabel, hexit, hle⟩

/-! ### A vault with two keys -/

def operatorKey : FreeKey := .num 40

/-- A vault whose operator is not its authority. -/
def divided : List (Action FreeKey) :=
  [.program 0 (.initializeVault
      { vaultState := vaultStateKey, cvaultMint := cvaultMintKey, tokenAccount := vaultTokenKey,
        depositMint := Cluster.usdc, payer := Cluster.admin, tokenProgram := TokenProgram.id }
      { treasury := Cluster.admin, authority := Cluster.admin, operator := operatorKey,
        minDeposit := 1, maxDeposit := 1000000000000, usxAllocationBps := 0, apyBps := 0,
        cvaultTradeMint := Cluster.tradeMint, secondaryMarketEnabled := true }),
    Cluster.registry, Cluster.credential, Cluster.openCvault]

/-- Alice trades, the operator marks the NAV down, the authority pauses the vault. -/
def governed : List (Action FreeKey) :=
  [Cluster.deposit 1000, Cluster.convert 400,
    .program 5 (.setNav
      { vaultState := vaultStateKey, rwaAssetRegistry := rwaAssetRegistryKey,
        operator := operatorKey } 9000),
    .program 6 (.redeemTradeable Cluster.unwrapAccounts 400 false),
    .program 7 (.setPause { vaultState := vaultStateKey, authority := Cluster.admin } true)]

theorem duties_separated_governed :
    ∃ vs, (final (.genesis Cluster.ledger) divided).vaultState = some vs ∧
      vs.authority ≠ operatorPubkey vs ∧
      (play (final (.genesis Cluster.ledger) divided) governed).length = 5 ∧
      ∀ t ∈ play (final (.genesis Cluster.ledger) divided) governed, Authorised vs t := by
  obtain ⟨vs, hvs, hkeys⟩ := Option.map_eq_some_iff.mp
    (show (final (.genesis Cluster.ledger) divided).vaultState.map
      (fun vs => (vs.authority, operatorPubkey vs)) = some (Cluster.admin, operatorKey) by decide)
  obtain ⟨hauthority, hoperator⟩ := Prod.mk.inj hkeys
  refine ⟨vs, hvs, by rw [hauthority, hoperator]; decide, by decide, ?_⟩
  intro t ht
  exact (duties_separated (Cluster.reaches_final (by decide)) hvs
    (Cluster.run_final (by decide) _) t ht).1

end OragamiVault
