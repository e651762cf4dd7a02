/-
# `Oragami.TransferHook.Step` — runs of the transfer hook

A step is one instruction of the program at the clock's time, with whatever
accounts and parameters its sender chose.  Four of the eight read the configured
authority off the configuration and ask for its signature (`exec_signed`).

What each of the three whitelist instructions does is said once, below; the
others are read off their definitions.
-/
import Oragami.Lib.Run
import Oragami.TransferHook.ExtraAccounts

namespace TransferHook

open Anchor Addresses Lts

variable {K : Type}

/-! ## Calls -/

/-- An instruction with its accounts and parameters.  `transfer_hook` also reads the ledger. -/
inductive Call (K : Type) where
  | initializeCompliance (a : InitializeCompliance K) (p : InitializeComplianceParams K)
  | initializeExtraAccountMetas (a : InitializeExtraAccountMetas K)
  | addToWhitelist (a : AddToWhitelist K) (p : AddWhitelistParams)
  | removeFromWhitelist (a : RemoveFromWhitelist K)
  | updateWhitelist (a : UpdateWhitelist K) (p : UpdateWhitelistParams)
  | updateCompliance (a : UpdateCompliance K) (p : UpdateComplianceParams K)
  | transferHook (L : Ledger K) (a : Transfer K) (amount : UInt64)
  | fallback (data : List (Cell K))

/-- An instruction and when it is executed. -/
structure Action (K : Type) where
  now : Int64
  call : Call K

/-- The `authority` a context declares a `Signer` and the configuration's own. -/
def Call.authority : Call K → Option K
  | .addToWhitelist a _ => some a.authority
  | .removeFromWhitelist a => some a.authority
  | .updateWhitelist a _ => some a.authority
  | .updateCompliance a _ => some a.authority
  | _ => none

section Exec

variable [DecidableEq K] [Addresses K] [Deployment K]

def Call.exec (now : Int64) : Call K → State K → Hx (State K)
  | .initializeCompliance a p => TransferHook.initializeCompliance a p
  | .initializeExtraAccountMetas a => TransferHook.initializeExtraAccountMetas a
  | .addToWhitelist a p => TransferHook.addToWhitelist now a p
  | .removeFromWhitelist a => TransferHook.removeFromWhitelist a
  | .updateWhitelist a p => TransferHook.updateWhitelist now a p
  | .updateCompliance a p => TransferHook.updateCompliance a p
  | .transferHook L a amount => TransferHook.transferHook now L a amount
  | .fallback data => TransferHook.fallback data

/-- A successful instruction. -/
def Step (st : State K) (act : Action K) (st' : State K) : Prop :=
  act.call.exec act.now st = .ok st'

/-- `Reaches ts st`: the run `ts` leads from before `initialize_compliance` to `st`. -/
def Reaches (ts : List (Transition (State K) (Action K))) (st : State K) : Prop :=
  Run Step State.genesis ts st

variable {now : Int64} {st st' : State K} {k : K}

/-! ## What the instructions do -/

theorem loadConfig_stored {config : ComplianceConfig K} (h : st.loadConfig k = .ok config) :
    st.config = some config := by
  simp only [State.loadConfig, bind_eq_ok, orFail_eq_ok, pure_eq_ok] at h
  obtain ⟨config', hconfig, _, -, rfl⟩ := h
  split at hconfig
  · exact hconfig
  · cases hconfig

theorem expiryAfter_eq_ok {days expiry : Int64} (h : expiryAfter now days = .ok expiry) :
    expiry.toInt = now.toInt + 86400 * days.toInt := by
  simp only [expiryAfter, bind_eq_ok, orFail_eq_ok, Checked.mulI_eq_some, Checked.addI_eq_some] at h
  obtain ⟨span, hspan, hexpiry⟩ := h
  have hday : (86400 : Int64).toInt = 86400 := rfl
  rw [hexpiry, hspan, hday, Int.mul_comm]

theorem initializeCompliance_spec {a : InitializeCompliance K} {p : InitializeComplianceParams K}
    (h : initializeCompliance a p st = .ok st') :
    ∃ config, config.allowTransfers = true ∧ st' = { st with config := some config } := by
  simp only [initializeCompliance, bind_eq_ok, pure_eq_ok] at h
  obtain ⟨_, -, _, -, rfl⟩ := h
  exact ⟨_, rfl, rfl⟩

theorem initializeExtraAccountMetas_spec {a : InitializeExtraAccountMetas K}
    (h : initializeExtraAccountMetas a st = .ok st') : ∃ metas, st' = { st with metas } := by
  simp only [initializeExtraAccountMetas, bind_eq_ok, pure_eq_ok] at h
  obtain ⟨_, -, _, -, rfl⟩ := h
  exact ⟨_, rfl⟩

theorem updateCompliance_spec {a : UpdateCompliance K} {p : UpdateComplianceParams K}
    (h : updateCompliance a p st = .ok st') :
    ∃ config, st.config = some config ∧ config.authority = a.authority ∧
      st' = { st with config := some { config with
        allowTransfers := p.allowTransfers.getD config.allowTransfers
        minKycLevel := p.minKycLevel.getD config.minKycLevel
        complianceOracle := p.complianceOracle.getD config.complianceOracle } } := by
  simp only [updateCompliance, bind_eq_ok, hasOneAuthority, ensure_eq_ok, pure_eq_ok] at h
  obtain ⟨config, hload, _, hauth, rfl⟩ := h
  exact ⟨config, loadConfig_stored hload, hauth, rfl⟩

/-- A wallet is listed at its own address, where there was no entry. -/
structure Added (now : Int64) (a : AddToWhitelist K) (p : AddWhitelistParams) (st st' : State K)
    (entry : WhitelistEntry K) : Prop where
  signed : ∃ config, st.config = some config ∧ config.authority = a.authority
  address : a.entry = whitelistKey a.wallet
  fresh : st.entries a.entry = none
  wallet : entry.wallet = a.wallet
  kycCompliant : entry.kycCompliant = p.kycCompliant
  amlClear : entry.amlClear = p.amlClear
  travelRuleCompliant : entry.travelRuleCompliant = p.travelRuleCompliant
  expiry : entry.expiry.toInt = now.toInt + 86400 * p.expiryDays.toInt
  state : st' = { st with entries := Function.update st.entries a.entry (some entry) }

theorem addToWhitelist_spec {a : AddToWhitelist K} {p : AddWhitelistParams}
    (h : addToWhitelist now a p st = .ok st') : ∃ entry, Added now a p st st' entry := by
  simp only [addToWhitelist, bind_eq_ok, seeds_eq_ok, init_eq_ok, hasOneAuthority, ensure_eq_ok,
    Option.isNone_iff_eq_none, pure_eq_ok] at h
  obtain ⟨config, hload, _, haddr, _, hfresh, _, hauth, expiry, hexpiry, rfl⟩ := h
  exact ⟨_, ⟨config, loadConfig_stored hload, hauth⟩, haddr, hfresh, rfl, rfl, rfl, rfl,
    expiryAfter_eq_ok hexpiry, rfl⟩

/-- The entry at an address of the wallet's is closed. -/
theorem removeFromWhitelist_spec {a : RemoveFromWhitelist K}
    (h : removeFromWhitelist a st = .ok st') :
    (∃ config, st.config = some config ∧ config.authority = a.authority) ∧
      ∃ entry, st.entries a.entry = some entry ∧
        a.entry = derive programId [.text whitelistSeed, .key a.wallet] entry.bump ∧
        st' = { st with entries := Function.update st.entries a.entry none } := by
  simp only [removeFromWhitelist, bind_eq_ok, orFail_eq_ok, hasOneAuthority, ensure_eq_ok,
    seeds_eq_ok, pure_eq_ok] at h
  obtain ⟨config, hload, entry, hentry, _, hauth, _, haddr, rfl⟩ := h
  exact ⟨⟨config, loadConfig_stored hload, hauth⟩, entry, hentry, haddr, rfl⟩

/-- An entry is patched: what the parameters leave out stays. -/
structure Patched (now : Int64) (a : UpdateWhitelist K) (p : UpdateWhitelistParams)
    (st st' : State K) (entry entry' : WhitelistEntry K) : Prop where
  signed : ∃ config, st.config = some config ∧ config.authority = a.authority
  stored : st.entries a.entry = some entry
  state : st' = { st with entries := Function.update st.entries a.entry (some entry') }
  wallet : entry'.wallet = entry.wallet
  kycCompliant : entry'.kycCompliant = p.kycCompliant.getD entry.kycCompliant
  amlClear : entry'.amlClear = p.amlClear.getD entry.amlClear
  travelRuleCompliant :
    entry'.travelRuleCompliant = p.travelRuleCompliant.getD entry.travelRuleCompliant
  extended : ∀ days, p.extendExpiryDays = some days →
    entry'.expiry.toInt = now.toInt + 86400 * days.toInt
  kept : p.extendExpiryDays = none → entry'.expiry = entry.expiry

theorem updateWhitelist_spec {a : UpdateWhitelist K} {p : UpdateWhitelistParams}
    (h : updateWhitelist now a p st = .ok st') :
    ∃ entry entry', Patched now a p st st' entry entry' := by
  simp only [updateWhitelist, bind_eq_ok, orFail_eq_ok, hasOneAuthority, ensure_eq_ok,
    seeds_eq_ok] at h
  obtain ⟨config, hload, entry, hentry, _, hauth, _, -, h⟩ := h
  have hsigned : ∃ config, st.config = some config ∧ config.authority = a.authority :=
    ⟨config, loadConfig_stored hload, hauth⟩
  cases hdays : p.extendExpiryDays with
  | some days =>
      simp only [hdays, bind_eq_ok, pure_eq_ok] at h
      obtain ⟨expiry, hexpiry, rfl⟩ := h
      refine ⟨entry, _, hsigned, hentry, rfl, rfl, rfl, rfl, rfl, ?_, ?_⟩
      · intro days' hdays'
        cases hdays.symm.trans hdays'
        exact expiryAfter_eq_ok hexpiry
      · intro hnone
        cases hdays.symm.trans hnone
  | none =>
      simp only [hdays, bind_eq_ok, pure_eq_ok, exists_eq_left'] at h
      subst h
      refine ⟨entry, _, hsigned, hentry, rfl, rfl, rfl, rfl, rfl, ?_, fun _ => rfl⟩
      intro days hdays'
      cases hdays.symm.trans hdays'

theorem transferHook_state {L : Ledger K} {a : Transfer K} {amount : UInt64}
    (h : transferHook now L a amount st = .ok st') : st' = st := by
  simp only [transferHook, bind_eq_ok, pure_eq_ok] at h
  obtain ⟨_, _, _, _, _, _, _, _, _, _, _, _, _, _, _, _, _, _, rfl⟩ := h
  rfl

omit [DecidableEq K] [Addresses K] [Deployment K] in
theorem fallback_state {data : List (Cell K)} (h : fallback data st = .ok st') : st' = st := by
  cases h
  rfl

/-- Whitelist and settings change on the configured authority's signature. -/
theorem exec_signed {c : Call K} (h : c.exec now st = .ok st') (hk : c.authority = some k) :
    ∃ config, st.config = some config ∧ config.authority = k := by
  cases c with
  | addToWhitelist a p =>
      obtain ⟨entry, hadd⟩ := addToWhitelist_spec h
      cases hk
      exact hadd.signed
  | removeFromWhitelist a =>
      cases hk
      exact (removeFromWhitelist_spec h).1
  | updateWhitelist a p =>
      obtain ⟨entry, entry', hpatch⟩ := updateWhitelist_spec h
      cases hk
      exact hpatch.signed
  | updateCompliance a p =>
      obtain ⟨config, hconfig, hauth, -⟩ := updateCompliance_spec h
      cases hk
      exact ⟨config, hconfig, hauth⟩
  | _ => cases hk

end Exec

end TransferHook
