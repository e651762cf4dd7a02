/-
# `Oragami.OragamiVault.Step` — the program as a transition system

A step is one instruction of the program, sent by anyone with any accounts, or
one call somebody makes to the token program directly.  The one thing assumed of
callers is what the runtime enforces: nobody but the program signs for the
addresses it derives (`Owned`).

`Effect` says once what a successful instruction can change.  Seventeen of the
twenty-two instructions touch neither tokens nor totals nor NAV, nor the records
deposits are checked against; they share the constructor `quiet`.  Every
invariant below is proved by cases on `Effect`, and none unfolds an instruction.
-/
import Oragami.Lib.Run
import Oragami.Lib.TokenCall
import Oragami.OragamiVault.Custody
import Oragami.OragamiVault.Governance

namespace OragamiVault

open Anchor Addresses Lts

variable {K : Type}

/-! ## Calls -/

/-- An instruction with its accounts and parameters. -/
inductive Call (K : Type) where
  | initializeVault (a : InitializeVault K) (p : InitializeVaultParams K)
  | initializeRwaAssetRegistry (a : InitializeRwaAssetRegistry K)
      (p : InitializeRwaAssetRegistryParams K)
  | initializeVaultMandate (a : InitializeVaultMandate K) (p : InitializeVaultMandateParams)
  | updateRwaAssetRegistry (a : UpdateRwaAssetRegistry K) (p : UpdateRwaAssetRegistryParams K)
  | setMandateLiquidityEnforcement (a : SetMandateLiquidityEnforcement K) (active : Bool)
  | setNav (a : SetNav K) (navPriceBps : UInt64)
  | issueCredential (a : IssueCredential K) (p : IssueCredentialParams K)
  | revokeCredential (a : RevokeCredential K)
  | deposit (a : Deposit K) (amount : UInt64)
  | initTravelRule (a : InitTravelRule K) (p : InitializeTravelRuleParams)
  | redeem (a : Redeem K) (cvaultAmount : UInt64)
  | convertToTradeable (a : ConvertToTradeable K) (amount : UInt64)
  | redeemTradeable (a : RedeemTradeable K) (amount : UInt64) (redeemToCvault : Bool)
  | processYield (a : OperatorOnly K)
  | registerUsxAccounts (a : OperatorOnly K) (p : RegisterUsxAccountsParams K)
  | distributeYield (a : OperatorOnly K)
  | setPause (a : SetPause K) (paused : Bool)
  | updateConfig (a : UpdateConfig K) (p : UpdateConfigParams)
  | syncYield (a : OperatorOnly K)
  | postReserveAttestation (a : PostReserveAttestation K) (p : PostReserveAttestationParams)
  | verifyProofOfReserve (a : VerifyProofOfReserve K)
  | assertLiquidityAllocation (a : AssertLiquidityAllocation K)

namespace Call

/-- The account a context declares a `Signer`, if it does. -/
def signer : Call K → Option K
  | initializeVault a _ => a.payer
  | initializeRwaAssetRegistry a _ => a.authority
  | initializeVaultMandate a _ => a.authority
  | updateRwaAssetRegistry a _ => a.authority
  | setMandateLiquidityEnforcement a _ => a.authority
  | setNav a _ => a.operator
  | issueCredential a _ => a.authority
  | revokeCredential a => a.authority
  | deposit a _ => a.payer
  | initTravelRule a _ => a.payer
  | redeem a _ => a.redeemer
  | convertToTradeable a _ => a.user
  | redeemTradeable a _ _ => a.authority
  | processYield a => a.operator
  | registerUsxAccounts a _ => a.operator
  | distributeYield a => a.operator
  | setPause a _ => a.authority
  | updateConfig a _ => a.authority
  | syncYield a => a.operator
  | postReserveAttestation a _ => a.operator
  | verifyProofOfReserve _ => none
  | assertLiquidityAllocation _ => none

end Call

/-! ## Instructions that change no books -/

/-- The same vault but for its configuration, yield and strategy accounts. -/
structure VaultState.SameBooks (vs vs' : VaultState K) : Prop where
  bump : vs'.bump = vs.bump
  cvaultMint : vs'.cvaultMint = vs.cvaultMint
  cvaultTradeMint : vs'.cvaultTradeMint = vs.cvaultTradeMint
  vaultTokenAccount : vs'.vaultTokenAccount = vs.vaultTokenAccount
  authority : vs'.authority = vs.authority
  totalDeposits : vs'.totalDeposits = vs.totalDeposits
  totalSupply : vs'.totalSupply = vs.totalSupply
  navPriceBps : vs'.navPriceBps = vs.navPriceBps

/-- Nothing happened to tokens, totals, NAV, credentials or Travel Rule records. -/
structure Quiet (s s' : State K) : Prop where
  ledger : s'.ledger = s.ledger
  books : Option.Rel VaultState.SameBooks s.vaultState s'.vaultState
  credentials : s'.credentials = s.credentials
  travelRules : s'.travelRules = s.travelRules

theorem Quiet.refl (s : State K) : Quiet s s where
  ledger := rfl
  books := by
    cases s.vaultState with
    | none => exact .none
    | some vs => exact .some ⟨rfl, rfl, rfl, rfl, rfl, rfl, rfl, rfl⟩
  credentials := rfl
  travelRules := rfl

theorem Quiet.stored {s s' : State K} {vs : VaultState K} (h : Quiet s s')
    (hvs : s.vaultState = some vs) : ∃ vs', s'.vaultState = some vs' ∧ vs.SameBooks vs' := by
  have hb := h.books
  rw [hvs] at hb
  generalize s'.vaultState = x at hb ⊢
  cases hb with
  | some hsame => exact ⟨_, rfl, hsame⟩

theorem Quiet.fresh {s s' : State K} (h : Quiet s s') (hvs : s.vaultState = none) :
    s'.vaultState = none := by
  have hb := h.books
  rw [hvs] at hb
  generalize s'.vaultState = x at hb ⊢
  cases hb
  rfl

/-- Rewriting the vault state without touching the books is quiet. -/
theorem Quiet.of_vaultState {s : State K} {vs vs' : VaultState K} (h : s.vaultState = some vs)
    (hb : vs.SameBooks vs') : Quiet s { s with vaultState := some vs' } where
  ledger := rfl
  books := by
    rw [h]
    exact .some hb
  credentials := rfl
  travelRules := rfl

section Effects

variable [DecidableEq K] [Addresses K] [Deployment K] {now : Int64} {s s' : State K}
  {ev : Option (Event K)}

theorem processYield_quiet {a : OperatorOnly K} (h : processYield now a s = .ok (s', ev)) :
    Quiet s s' := by
  obtain ⟨-, vs, pending, claim, hp⟩ := processYield_spec h
  rw [hp.state]
  exact .of_vaultState hp.vaultState ⟨rfl, rfl, rfl, rfl, rfl, rfl, rfl, rfl⟩

theorem distributeYield_quiet {a : OperatorOnly K}
    (h : distributeYield now a s = .ok (s', ev)) : Quiet s s' := by
  obtain ⟨vs, hvs, ⟨-, rfl, -⟩ | ⟨-, rfl, -⟩⟩ := distributeYield_spec h
  · exact .refl _
  · exact .of_vaultState hvs ⟨rfl, rfl, rfl, rfl, rfl, rfl, rfl, rfl⟩

/-- The assertions change nothing. -/
theorem verifyProofOfReserve_state {a : VerifyProofOfReserve K}
    (h : verifyProofOfReserve now a s = .ok (s', ev)) : s' = s :=
  (verifyProofOfReserve_verified h).1

theorem assertLiquidityAllocation_state {a : AssertLiquidityAllocation K}
    (h : assertLiquidityAllocation a s = .ok (s', ev)) : s' = s := by
  simp only [assertLiquidityAllocation, bind_eq_ok] at h
  obtain ⟨vs, _, m, _, _, _, vault, _, _, _, h⟩ := h
  split at h
  · simp only [bind_eq_ok, pure_eq_ok, Prod.mk.injEq] at h
    obtain ⟨_, _, _, _, _, _, _, _, _, _, rfl, -⟩ := h
    rfl
  · simp only [pure_eq_ok, Prod.mk.injEq] at h
    obtain ⟨rfl, -⟩ := h
    rfl

/-! ## What an instruction changes -/

/-- A credential of `cred.wallet` written at its address by the authority. -/
structure CredentialWritten (credential authority : K) (s s' : State K) (vs : VaultState K)
    (cred : ComplianceCredential K) : Prop where
  vaultState : s.vaultState = some vs
  authority : authority = vs.authority
  address : credential = derive programId [.text complianceCredentialSeed, .key cred.wallet] cred.bump
  state : s' = { s with credentials := Function.update s.credentials credential (some cred) }

theorem issueCredential_spec {a : IssueCredential K} {p : IssueCredentialParams K}
    (h : issueCredential a p s = .ok (s', ev)) :
    ∃ vs cred, CredentialWritten a.credential a.authority s s' vs cred ∧
      s.credentials a.credential = none ∧ a.credential = credentialKey p.wallet ∧
      cred.wallet = p.wallet ∧ cred.expiresAt = p.expiresAt ∧
      cred.status = credentialStatusActive := by
  simp only [issueCredential, bind_eq_ok, loadVaultState_eq_ok, seeds_eq_ok, init_eq_ok,
    address_eq_ok, Option.isNone_iff_eq_none, pure_eq_ok, Prod.mk.injEq] at h
  obtain ⟨vs, ⟨_, hvs, _⟩, _, hkey, _, hnone, _, hauth, _, _, hs, -⟩ := h
  refine ⟨vs, _, ⟨hvs, hauth, ?_, hs.symm⟩, hnone, hkey, rfl, rfl, rfl⟩
  exact hkey

theorem revokeCredential_spec {a : RevokeCredential K}
    (h : revokeCredential a s = .ok (s', ev)) :
    ∃ vs cred, CredentialWritten a.credential a.authority s s' vs
        { cred with status := credentialStatusRevoked } ∧
      s.credentials a.credential = some cred ∧ cred.status ≠ credentialStatusRevoked := by
  simp only [revokeCredential, bind_eq_ok, orFail_eq_ok, loadVaultState_eq_ok, seeds_eq_ok,
    address_eq_ok, require_eq_ok, pure_eq_ok, Prod.mk.injEq] at h
  obtain ⟨cred, hcred, _, hkey, vs, ⟨_, hvs, _⟩, _, hauth, _, hne, hs, -⟩ := h
  exact ⟨vs, cred, ⟨hvs, hauth, hkey, hs.symm⟩, hcred, hne⟩

variable [TokenProgram K]

/-- `initialize_vault` opened the mint and the vault's token account, both empty. -/
structure Initialized (a : InitializeVault K) (p : InitializeVaultParams K) (s s' : State K)
    (vs : VaultState K) : Prop where
  fresh : s.vaultState = none
  depositMint : s.ledger.IsMint a.depositMint
  cvaultVacant : s.ledger.Vacant cvaultMintKey
  tokenVacant : (s.ledger.openMint cvaultMintKey vaultStateKey).Vacant vaultTokenKey
  ledger : s'.ledger = (s.ledger.openMint cvaultMintKey vaultStateKey).openAccount vaultTokenKey
    a.depositMint vaultStateKey
  vaultState : s'.vaultState = some vs
  cvaultMint : vs.cvaultMint = cvaultMintKey
  cvaultTradeMint : vs.cvaultTradeMint = p.cvaultTradeMint
  vaultTokenAccount : vs.vaultTokenAccount = vaultTokenKey
  authority : vs.authority = p.authority
  totalDeposits : vs.totalDeposits = 0
  totalSupply : vs.totalSupply = 0
  navPriceBps : vs.navPriceBps = navBpsDenominator
  credentials : s'.credentials = s.credentials
  travelRules : s'.travelRules = s.travelRules

/-- What a successful instruction leaves behind. -/
inductive Effect (now : Int64) (s : State K) : Call K → State K → Prop
  | quiet {c : Call K} {s' : State K} : Quiet s s' → Effect now s c s'
  | init {a p s' vs} : Initialized a p s s' vs → Effect now s (.initializeVault a p) s'
  | setNav {a nav vs registry} : s.vaultState = some vs →
      Effect now s (.setNav a nav)
        { s with vaultState := some { vs with navPriceBps := nav }, rwaAssetRegistry := registry }
  | issue {a p s' vs cred} : CredentialWritten a.credential a.authority s s' vs cred →
      s.credentials a.credential = none → a.credential = credentialKey p.wallet →
      cred.wallet = p.wallet → cred.expiresAt = p.expiresAt →
      cred.status = credentialStatusActive →
      Effect now s (.issueCredential a p) s'
  | revoke {a s' vs cred} :
      CredentialWritten a.credential a.authority s s' vs
        { cred with status := credentialStatusRevoked } →
      s.credentials a.credential = some cred → cred.status ≠ credentialStatusRevoked →
      Effect now s (.revokeCredential a) s'
  | record {a p tr} : s.travelRules a.travelRuleData = none →
      a.travelRuleData = travelRuleKey a.payer p.nonceHash →
      travelRuleThreshold ≤ p.amount → tr.payer = a.payer → tr.amount = p.amount →
      tr.consumed = false →
      Effect now s (.initTravelRule a p)
        { s with travelRules := Function.update s.travelRules a.travelRuleData (some tr) }
  | deposit {a amount s' vs cred shares L} : Deposited now a amount s s' vs cred shares L →
      Effect now s (.deposit a amount) s'
  | redeem {a x vs usdc supply L L'} : Redeemed a x s vs usdc supply L L' →
      Effect now s (.redeem a x) (redeemedState s vs usdc supply L')
  | convert {a x vs L L'} : Converted a x s vs L L' →
      Effect now s (.convertToTradeable a x) { s with ledger := L' }
  | rewrap {a x vs L L'} : Unwrapped a x s vs L →
      TokenProgram.mintTo L a.cvaultMint a.userCvaultAccount a.vaultState x = some L' →
      Effect now s (.redeemTradeable a x true) { s with ledger := L' }
  | payOut {a x vs usdc deposits supply L L'} : Unwrapped a x s vs L →
      PaidOut a x s vs usdc deposits supply L L' →
      Effect now s (.redeemTradeable a x false)
        { s with
          vaultState := some { vs with totalDeposits := deposits, totalSupply := supply }
          ledger := L' }

theorem initializeVault_spec {a : InitializeVault K} {p : InitializeVaultParams K}
    (h : initializeVault now a p s = .ok (s', ev)) : ∃ vs, Initialized a p s s' vs := by
  simp only [initializeVault, bind_eq_ok, loadMint_eq_ok, tokenProgram_eq_ok, seeds_eq_ok,
    init_eq_ok, require_eq_ok, pure_eq_ok, Prod.mk.injEq] at h
  obtain ⟨M, hM, _, _, _, _, _, hfresh, _, hmint, _, hvac, _, htok, _, htvac, _, _, rfl, -⟩ := h
  rw [hmint] at hvac htvac
  rw [htok] at htvac
  exact ⟨_, hfresh, ⟨M, hM⟩, hvac, htvac, by rw [hmint, htok], rfl, hmint, rfl, htok, rfl, rfl,
    rfl, rfl, rfl, rfl⟩

/-- The entry point: each instruction at the clock's time. -/
def Call.exec (now : Int64) : Call K → State K → Ix (Outcome K)
  | .initializeVault a p => OragamiVault.initializeVault now a p
  | .initializeRwaAssetRegistry a p => OragamiVault.initializeRwaAssetRegistry now a p
  | .initializeVaultMandate a p => OragamiVault.initializeVaultMandate a p
  | .updateRwaAssetRegistry a p => OragamiVault.updateRwaAssetRegistry now a p
  | .setMandateLiquidityEnforcement a active =>
      OragamiVault.setMandateLiquidityEnforcement a active
  | .setNav a nav => OragamiVault.setNav now a nav
  | .issueCredential a p => OragamiVault.issueCredential a p
  | .revokeCredential a => OragamiVault.revokeCredential a
  | .deposit a amount => OragamiVault.deposit now a amount
  | .initTravelRule a p => OragamiVault.initTravelRule now a p
  | .redeem a amount => OragamiVault.redeem a amount
  | .convertToTradeable a amount => OragamiVault.convertToTradeable a amount
  | .redeemTradeable a amount mode => OragamiVault.redeemTradeable a amount mode
  | .processYield a => OragamiVault.processYield now a
  | .registerUsxAccounts a p => OragamiVault.registerUsxAccounts a p
  | .distributeYield a => OragamiVault.distributeYield now a
  | .setPause a paused => OragamiVault.setPause a paused
  | .updateConfig a p => OragamiVault.updateConfig a p
  | .syncYield a => OragamiVault.syncYield now a
  | .postReserveAttestation a p => OragamiVault.postReserveAttestation now a p
  | .verifyProofOfReserve a => OragamiVault.verifyProofOfReserve now a
  | .assertLiquidityAllocation a => OragamiVault.assertLiquidityAllocation a

/-- What a successful instruction leaves is its effect. -/
theorem exec_effect {c : Call K} (h : c.exec now s = .ok (s', ev)) : Effect now s c s' := by
  cases c with
  | initializeVault a p =>
      obtain ⟨vs, hi⟩ := initializeVault_spec h
      exact .init hi
  | initializeRwaAssetRegistry a p =>
      obtain ⟨reg, -, rfl⟩ := initializeRwaAssetRegistry_spec h
      exact .quiet { Quiet.refl s with }
  | initializeVaultMandate a p =>
      obtain ⟨-, -, m, rfl, -⟩ := initializeVaultMandate_spec h
      exact .quiet { Quiet.refl s with }
  | updateRwaAssetRegistry a p =>
      obtain ⟨reg, -, rfl⟩ := updateRwaAssetRegistry_spec h
      exact .quiet { Quiet.refl s with }
  | setMandateLiquidityEnforcement a active =>
      obtain ⟨m, -, rfl⟩ := setMandateLiquidityEnforcement_spec h
      exact .quiet { Quiet.refl s with }
  | setNav a nav =>
      obtain ⟨vs, registry, hvs, rfl⟩ := setNav_spec h
      exact .setNav hvs
  | issueCredential a p =>
      obtain ⟨vs, cred, hw, hnone, hkey, hwallet, hexp, hactive⟩ := issueCredential_spec h
      exact .issue hw hnone hkey hwallet hexp hactive
  | revokeCredential a =>
      obtain ⟨vs, cred, hw, hcred, hne⟩ := revokeCredential_spec h
      exact .revoke hw hcred hne
  | deposit a amount =>
      obtain ⟨vs, cred, shares, L, hd⟩ := deposit_spec h
      exact .deposit hd
  | initTravelRule a p =>
      obtain ⟨hnone, hkey, hle, tr, hpayer, hamount, hfresh, rfl⟩ := initTravelRule_spec h
      exact .record hnone hkey hle hpayer hamount hfresh
  | redeem a x =>
      obtain ⟨vs, usdc, supply, L, L', hr, hs⟩ := redeem_eq_ok.mp h
      cases hs
      exact .redeem hr
  | convertToTradeable a x =>
      obtain ⟨vs, L, L', hc, hs⟩ := convertToTradeable_eq_ok.mp h
      cases hs
      exact .convert hc
  | redeemTradeable a x mode =>
      cases mode with
      | true =>
          obtain ⟨vs, L, L', hu, hm, hs⟩ := rewrap_eq_ok.mp h
          cases hs
          exact .rewrap hu hm
      | false =>
          obtain ⟨vs, usdc, deposits, supply, L, L', hu, hp, hs⟩ := payOut_eq_ok.mp h
          cases hs
          exact .payOut hu hp
  | processYield a => exact .quiet (processYield_quiet h)
  | registerUsxAccounts a p =>
      obtain ⟨vs, hvs, rfl⟩ := registerUsxAccounts_spec h
      exact .quiet (.of_vaultState hvs ⟨rfl, rfl, rfl, rfl, rfl, rfl, rfl, rfl⟩)
  | distributeYield a => exact .quiet (distributeYield_quiet h)
  | setPause a paused =>
      obtain ⟨vs, hvs, rfl⟩ := setPause_spec h
      exact .quiet (.of_vaultState hvs ⟨rfl, rfl, rfl, rfl, rfl, rfl, rfl, rfl⟩)
  | updateConfig a p =>
      obtain ⟨vs, hvs, rfl, -⟩ := updateConfig_spec h
      exact .quiet (.of_vaultState hvs ⟨rfl, rfl, rfl, rfl, rfl, rfl, rfl, rfl⟩)
  | syncYield a =>
      obtain ⟨vs, hvs, rfl⟩ := syncYield_spec h
      exact .quiet (.of_vaultState hvs ⟨rfl, rfl, rfl, rfl, rfl, rfl, rfl, rfl⟩)
  | postReserveAttestation a p =>
      obtain ⟨att, rfl⟩ := postReserveAttestation_spec h
      exact .quiet { Quiet.refl s with }
  | verifyProofOfReserve a =>
      cases verifyProofOfReserve_state h
      exact .quiet (.refl s)
  | assertLiquidityAllocation a =>
      cases assertLiquidityAllocation_state h
      exact .quiet (.refl s)

/-- An instruction moves tokens, or opens the vault's mint and account where there was nothing. -/
theorem Effect.moves {c : Call K} (h : Effect now s c s') :
    (∃ d e b m, s.ledger.Evolves s'.ledger d e b m) ∨
      ∃ depositMint, s.ledger.Vacant cvaultMintKey ∧
        (s.ledger.openMint cvaultMintKey vaultStateKey).Vacant vaultTokenKey ∧
        s'.ledger = (s.ledger.openMint cvaultMintKey vaultStateKey).openAccount vaultTokenKey
          depositMint vaultStateKey := by
  have still : ∀ {L L' : Ledger K}, L' = L → ∃ d e b m, L.Evolves L' d e b m := by
    rintro _ _ rfl
    exact ⟨_, _, _, _, .refl _⟩
  cases h with
  | quiet hq => exact .inl (still hq.ledger)
  | init hi => exact .inr ⟨_, hi.cvaultVacant, hi.tokenVacant, hi.ledger⟩
  | setNav _ => exact .inl (still rfl)
  | issue hw _ _ _ _ _ => exact .inl (still (hw.state ▸ rfl))
  | revoke hw _ _ => exact .inl (still (hw.state ▸ rfl))
  | record _ _ _ _ _ _ => exact .inl (still rfl)
  | deposit hd =>
      exact .inl ⟨_, _, _, _, (TokenProgram.transfer_evolves hd.transfer).trans
        (TokenProgram.mintTo_evolves hd.mint)⟩
  | redeem hr =>
      exact .inl ⟨_, _, _, _, (TokenProgram.burn_evolves hr.burn).trans
        (TokenProgram.transfer_evolves hr.transfer)⟩
  | convert hc =>
      exact .inl ⟨_, _, _, _, (TokenProgram.burn_evolves hc.burn).trans
        (TokenProgram.mintTo_evolves hc.mint)⟩
  | rewrap hu hm =>
      exact .inl ⟨_, _, _, _, (TokenProgram.burn_evolves hu.burn).trans
        (TokenProgram.mintTo_evolves hm)⟩
  | payOut hu hp =>
      exact .inl ⟨_, _, _, _, (TokenProgram.burn_evolves hu.burn).trans
        (TokenProgram.transfer_evolves hp.transfer)⟩

end Effects

/-! ## Steps -/

/-- One thing that happens on the cluster. -/
inductive Action (K : Type) where
  | program (now : Int64) (call : Call K)
  | token (call : TokenCall K)

/-- A successful instruction, or an accepted direct call to the token program.  No
signer is an address of the program. -/
inductive Step [DecidableEq K] [Addresses K] [Deployment K] [TokenProgram K] :
    State K → Action K → State K → Prop
  | program {s s' : State K} {now : Int64} {c : Call K} {ev : Option (Event K)} :
      (∀ k ∈ c.signer, ¬ Owned k) → c.exec now s = .ok (s', ev) →
      Step s (.program now c) s'
  | token {s : State K} {c : TokenCall K} {L : Ledger K} :
      ¬ Owned c.signer → c.run s.ledger = some L →
      Step s (.token c) { s with ledger := L }

/-- `Reaches ledger ts s`: the run `ts` leads from before `initialize_vault`, with
`ledger`, to `s`. -/
def Reaches [DecidableEq K] [Addresses K] [Deployment K] [TokenProgram K] (ledger : Ledger K) (ts : List (Transition (State K) (Action K))) (s : State K) :
    Prop :=
  Run Step (State.genesis ledger) ts s

end OragamiVault
