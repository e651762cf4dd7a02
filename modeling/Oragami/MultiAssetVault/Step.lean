/-
# `Oragami.MultiAssetVault.Step` — what an instruction of multi-asset-vault changes

`Effect` says once what each of the ten instructions can change.  An instruction
addressed to one vault rewrites that vault; none touches a Travel Rule record but
the one that creates it and the deposit that consumes it.

A step of the program by itself is one instruction, whatever it sees of other
programs, or one call somebody makes to the token program directly.  Nobody else
signs for the addresses the program derives.
-/
import Oragami.Lib.Run
import Oragami.Lib.TokenCall
import Oragami.MultiAssetVault.Instructions

namespace MultiAssetVault

open Anchor Addresses Lts

variable {K : Type}

/-! ## Calls -/

/-- An instruction with its accounts and parameters. -/
inductive Call (K : Type) where
  | initializeFactory (a : InitializeFactory K) (feeBps : UInt16)
  | registerAsset (a : RegisterAsset K) (p : RegisterAssetParams)
  | setNav (a : AdminOnly K) (navPriceBps : UInt64)
  | pauseVault (a : AdminOnly K) (paused : Bool)
  | issueCredential (a : IssueCredential K) (p : IssueCredentialParams)
  | revokeCredential (a : RevokeCredential K)
  | deposit (a : Deposit K) (amount : UInt64)
  | redeem (a : Redeem K) (shareAmount : UInt64)
  | initTravelRule (a : InitTravelRule K) (amount : UInt64) (nonceHash : Vector UInt8 32)
  | transferShares (a : TransferShares K) (amount : UInt64)

namespace Call

/-- The account a context declares a `Signer`. -/
def signer : Call K → K
  | initializeFactory a _ => a.authority
  | registerAsset a _ => a.authority
  | setNav a _ => a.authority
  | pauseVault a _ => a.authority
  | issueCredential a _ => a.authority
  | revokeCredential a => a.authority
  | deposit a _ => a.depositor
  | redeem a _ => a.redeemer
  | initTravelRule a _ _ => a.payer
  | transferShares a _ => a.sender

/-- The vault an instruction is addressed to. -/
def target : Call K → Option K
  | registerAsset a _ => some a.assetVault
  | setNav a _ => some a.assetVault
  | pauseVault a _ => some a.assetVault
  | deposit a _ => some a.assetVault
  | redeem a _ => some a.assetVault
  | transferShares a _ => some a.assetVault
  | initializeFactory _ _ => none
  | issueCredential _ _ => none
  | revokeCredential _ => none
  | initTravelRule _ _ _ => none

variable [DecidableEq K] [Addresses K] [Deployment K] [TokenProgram K]

/-- The entry point: each instruction at the clock's time, on what it sees of other programs. -/
def exec (now : Int64) (view : View K) : Call K → State K → Mx (Outcome K)
  | initializeFactory a feeBps => MultiAssetVault.initializeFactory a feeBps
  | registerAsset a p => MultiAssetVault.registerAsset a p
  | setNav a nav => MultiAssetVault.setNav now a nav
  | pauseVault a paused => MultiAssetVault.pauseVault a paused
  | issueCredential a p => MultiAssetVault.issueCredential now a p
  | revokeCredential a => MultiAssetVault.revokeCredential a
  | deposit a amount => MultiAssetVault.deposit now view a amount
  | redeem a amount => MultiAssetVault.redeem now a amount
  | initTravelRule a amount nonceHash => MultiAssetVault.initTravelRule now a amount nonceHash
  | transferShares a amount => MultiAssetVault.transferShares now view a amount

end Call

/-! ## Effects -/

section Effects

variable [DecidableEq K] [Addresses K] [Deployment K]

/-- The authority of the factory signed. -/
def Administers (s : State K) (authority : K) : Prop :=
  ∃ f, s.factory = some f ∧ f.authority = authority

/-- `register_asset` opened a vault with its mint and token account, both empty. -/
structure Registered (a : RegisterAsset K) (p : RegisterAssetParams) (s s' : State K)
    (f : Factory K) : Prop where
  factory : s.factory = some f
  authority : f.authority = a.authority
  assetMint : s.ledger.IsMint a.assetMint
  assetVault : a.assetVault = assetVaultKey a.assetMint
  shareMint : a.shareMint = shareMintKey a.assetMint
  vaultTokenAccount : a.vaultTokenAccount = vaultTokenKey a.assetMint
  fresh : s.vaults a.assetVault = none
  shareVacant : s.ledger.Vacant a.shareMint
  tokenVacant : (s.ledger.openMint a.shareMint a.assetVault).Vacant a.vaultTokenAccount
  navPriceBps : 0 < p.navPriceBps
  state : s' = { s with
    factory := some { f with registeredAssets := f.registeredAssets ++ [a.assetMint] }
    vaults := Function.update s.vaults a.assetVault (some (newVault a p))
    ledger := (s.ledger.openMint a.shareMint a.assetVault).openAccount a.vaultTokenAccount
      a.assetMint a.assetVault }

theorem registerAsset_spec [TokenProgram K] {a : RegisterAsset K} {p : RegisterAssetParams}
    {s s' : State K} {ev : Option (Event K)} (h : registerAsset a p s = .ok (s', ev)) :
    ∃ f, Registered a p s s' f := by
  simp only [registerAsset, bind_eq_ok, loadFactory_eq_ok, loadMint_eq_ok, seeds_eq_ok,
    init_eq_ok, hasOneAuthority_eq_ok, require_eq_ok, Option.isNone_iff_eq_none, pure_eq_ok,
    Prod.mk.injEq] at h
  obtain ⟨f, ⟨-, hf, -⟩, M, hM, _, -, _, hvault, _, hfresh, _, hshare, _, hsv, _, htok, _, htv, _,
    hauth, _, hnav, _, -, _, -, _, -, hs, -⟩ := h
  exact ⟨f, hf, hauth, ⟨M, hM⟩, hvault, hshare, htok, hfresh, hsv, htv, hnav, hs.symm⟩

variable [TokenProgram K]

/-- What a successful instruction leaves behind. -/
inductive Effect (now : Int64) (view : View K) (s : State K) : Call K → State K → Prop
  | openFactory {a feeBps f} : s.factory = none → f.authority = a.authority →
      Effect now view s (.initializeFactory a feeBps) { s with factory := some f }
  | register {a p s' f} : Registered a p s s' f → Effect now view s (.registerAsset a p) s'
  | setNav {a nav v} : Administers s a.authority → s.loadVault a.assetVault = .ok v → 0 < nav →
      Effect now view s (.setNav a nav)
        { s with
          vaults := Function.update s.vaults a.assetVault (some { v with navPriceBps := nav }) }
  | pause {a paused v} : Administers s a.authority → s.loadVault a.assetVault = .ok v →
      Effect now view s (.pauseVault a paused)
        { s with
          vaults := Function.update s.vaults a.assetVault (some { v with paused }) }
  | issue {a p cred} : Administers s a.authority → s.credentials a.credential = none →
      a.credential = ownCredentialKey a.wallet → cred.wallet = a.wallet →
      cred.expiresAt = p.expiresAt → cred.status = credentialActive → now < p.expiresAt →
      Effect now view s (.issueCredential a p)
        { s with
          credentials := Function.update s.credentials a.credential (some cred) }
  | revoke {a cred} : Administers s a.authority → s.credentials a.credential = some cred →
      cred.status ≠ credentialRevoked →
      Effect now view s (.revokeCredential a)
        { s with
          credentials := Function.update s.credentials a.credential
            (some { cred with status := credentialRevoked }) }
  | record {a amount nonceHash tr} : s.travelRules a.travelRuleData = none →
      a.travelRuleData = travelRuleKey a.payer nonceHash → travelRuleThreshold ≤ amount →
      tr.payer = a.payer → tr.amount = amount → tr.consumed = false →
      Effect now view s (.initTravelRule a amount nonceHash)
        { s with
          travelRules := Function.update s.travelRules a.travelRuleData (some tr) }
  | deposit {a amount s' v cred shares L} : Deposited now view a amount s s' v cred shares L →
      Effect now view s (.deposit a amount) s'
  | redeem {a shares s' v assetAmount totalSupply L} :
      Redeemed a shares s s' v assetAmount totalSupply L →
      Effect now view s (.redeem a shares) s'
  | transfer {a amount v source destination senderCred receiverCred L} :
      Transferred now view a amount s v source destination senderCred receiverCred L →
      Effect now view s (.transferShares a amount) { s with ledger := L }

variable {now : Int64} {view : View K} {s s' : State K} {ev : Option (Event K)}

/-- What a successful instruction leaves is its effect. -/
theorem exec_effect {c : Call K} (h : c.exec now view s = .ok (s', ev)) :
    Effect now view s c s' := by
  cases c with
  | initializeFactory a feeBps =>
      simp only [Call.exec, initializeFactory, bind_eq_ok, init_eq_ok, Option.isNone_iff_eq_none,
        pure_eq_ok, Prod.mk.injEq] at h
      obtain ⟨_, -, _, hnone, rfl, -⟩ := h
      exact .openFactory hnone rfl
  | registerAsset a p =>
      obtain ⟨f, hr⟩ := registerAsset_spec h
      exact .register hr
  | setNav a nav =>
      simp only [Call.exec, setNav, bind_eq_ok, loadFactory_eq_ok, hasOneAuthority_eq_ok,
        require_eq_ok, pure_eq_ok, Prod.mk.injEq] at h
      obtain ⟨f, ⟨-, hf, -⟩, v, hv, _, hauth, _, hpos, _, -, _, -, rfl, -⟩ := h
      exact .setNav ⟨f, hf, hauth⟩ hv hpos
  | pauseVault a paused =>
      simp only [Call.exec, pauseVault, bind_eq_ok, loadFactory_eq_ok, hasOneAuthority_eq_ok,
        pure_eq_ok, Prod.mk.injEq] at h
      obtain ⟨f, ⟨-, hf, -⟩, v, hv, _, hauth, rfl, -⟩ := h
      exact .pause ⟨f, hf, hauth⟩ hv
  | issueCredential a p =>
      simp only [Call.exec, issueCredential, bind_eq_ok, loadFactory_eq_ok, hasOneAuthority_eq_ok,
        seeds_eq_ok, init_eq_ok, require_eq_ok, Option.isNone_iff_eq_none, pure_eq_ok,
        Prod.mk.injEq] at h
      obtain ⟨f, ⟨-, hf, -⟩, _, hkey, _, hnone, _, hauth, _, hexp, rfl, -⟩ := h
      exact .issue ⟨f, hf, hauth⟩ hnone hkey rfl rfl rfl hexp
  | revokeCredential a =>
      simp only [Call.exec, revokeCredential, bind_eq_ok, loadFactory_eq_ok, orFail_eq_ok,
        hasOneAuthority_eq_ok, require_eq_ok, pure_eq_ok, Prod.mk.injEq] at h
      obtain ⟨f, ⟨-, hf, -⟩, cred, hcred, _, hauth, _, -, _, hstatus, rfl, -⟩ := h
      exact .revoke ⟨f, hf, hauth⟩ hcred hstatus
  | deposit a amount =>
      obtain ⟨v, cred, shares, L, hd⟩ := deposit_spec h
      exact .deposit hd
  | redeem a amount =>
      obtain ⟨v, assetAmount, totalSupply, L, hr⟩ := redeem_spec h
      exact .redeem hr
  | initTravelRule a amount nonceHash =>
      simp only [Call.exec, initTravelRule, bind_eq_ok, seeds_eq_ok, init_eq_ok, require_eq_ok,
        Option.isNone_iff_eq_none, pure_eq_ok, Prod.mk.injEq] at h
      obtain ⟨_, hkey, _, hnone, _, hmin, rfl, -⟩ := h
      exact .record hnone hkey hmin rfl rfl rfl
  | transferShares a amount =>
      obtain ⟨v, source, destination, senderCred, receiverCred, L, ht, rfl⟩ := transferShares_spec h
      exact .transfer ht

end Effects

/-! ## Runs of the program -/

/-- The cluster before `initialize_factory`: any token accounts, none of the program's. -/
def State.genesis (ledger : Ledger K) : State K := { Accounts.genesis with ledger }

/-- One thing that happens to the program. -/
inductive Action (K : Type) where
  | program (now : Int64) (view : View K) (call : Call K)
  | token (call : TokenCall K)

variable [DecidableEq K] [Addresses K] [Deployment K] [TokenProgram K]

/-- A successful instruction, or an accepted direct call to the token program. -/
inductive Step : State K → Action K → State K → Prop
  | program {s s' : State K} {now : Int64} {view : View K} {c : Call K} {ev : Option (Event K)} :
      ¬ Owned c.signer → c.exec now view s = .ok (s', ev) → Step s (.program now view c) s'
  | token {s : State K} {c : TokenCall K} {L : Ledger K} :
      ¬ Owned c.signer → c.run s.ledger = some L → Step s (.token c) { s with ledger := L }

/-- `Reaches ledger ts s`: the run `ts` leads from before the factory, with `ledger`, to `s`. -/
def Reaches (ledger : Ledger K) (ts : List (Transition (State K) (Action K))) (s : State K) :
    Prop :=
  Run Step (State.genesis ledger) ts s

end MultiAssetVault
