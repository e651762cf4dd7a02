/-
# `Oragami.OragamiVault.Credentials` — a credential is written once and never renewed

`issue_credential` creates the account of a wallet, which can be done once;
`revoke_credential` sets its status; nothing closes it or writes it otherwise.  So an
account, once there, keeps its wallet and its expiry, and its status only ever
becomes revoked.  Neither a revoked nor an expired credential has a way back
(`ended_lasts`).
-/
import Oragami.OragamiVault.Step

namespace OragamiVault

open Anchor Addresses Lts

variable {K : Type} [Addresses K] [Deployment K]

theorem credentialKey_inj {w w' : K} (h : credentialKey w = credentialKey w') : w = w' := by
  have hseeds := (find_inj h).2
  simp only [List.cons.injEq, Seed.key.injEq, and_true, true_and] at hseeds
  exact hseeds

/-! ## What an instruction leaves of the credentials -/

section Effects

variable [DecidableEq K]

/-- They are kept, or one is issued where there was none, or one is revoked. -/
inductive Credentialing (s s' : State K) : Prop
  | kept : s'.credentials = s.credentials → Credentialing s s'
  | issued {cred} : s.credentials (credentialKey cred.wallet) = none →
      s'.credentials = Function.update s.credentials (credentialKey cred.wallet) (some cred) →
      Credentialing s s'
  | revoked {k cred} : s.credentials k = some cred →
      s'.credentials = Function.update s.credentials k
        (some { cred with status := credentialStatusRevoked }) →
      Credentialing s s'

variable [TokenProgram K]

theorem effect_credentialing {now : Int64} {c : Call K} {s s' : State K}
    (h : Effect now s c s') : Credentialing s s' := by
  cases h with
  | quiet hq => exact .kept hq.credentials
  | init hi => exact .kept hi.credentials
  | deposit hd => exact .kept hd.rest.1
  | issue hw hnone hkey hwallet _ _ =>
      rw [hkey, ← hwallet] at hnone
      refine .issued hnone ?_
      rw [hw.state, hkey, hwallet]
  | revoke hw hcred _ =>
      refine .revoked hcred ?_
      rw [hw.state]
  | setNav _ => exact .kept rfl
  | record _ _ _ _ _ _ => exact .kept rfl
  | redeem _ => exact .kept rfl
  | convert _ => exact .kept rfl
  | rewrap _ _ => exact .kept rfl
  | payOut _ _ => exact .kept rfl

theorem Step.credentialing {act : Action K} {s s' : State K} (h : Step s act s') :
    Credentialing s s' := by
  cases h with
  | program _ hexec => exact effect_credentialing (exec_effect hexec)
  | token _ _ => exact .kept rfl

end Effects

/-! ## Where credentials are -/

/-- Each credential is at the address of its wallet. -/
def Located (s : State K) : Prop :=
  ∀ k c, s.credentials k = some c → k = credentialKey c.wallet

variable [DecidableEq K] {s s' : State K}

theorem Credentialing.located (h : Credentialing s s') (hs : Located s) : Located s' := by
  intro k c hc
  cases h with
  | kept hkept => exact hs k c (hkept ▸ hc)
  | issued _ hupd =>
      rw [hupd] at hc
      rcases update_some hc with ⟨rfl, rfl⟩ | ⟨-, hold⟩
      · rfl
      · exact hs k c hold
  | @revoked j cred hcred hupd =>
      have hj : j = credentialKey cred.wallet := hs j cred hcred
      rw [hupd] at hc
      rcases update_some hc with ⟨rfl, rfl⟩ | ⟨-, hold⟩
      · exact hj
      · exact hs k c hold

/-- `c'` is `c`, revoked or not. -/
structure Ages (c c' : ComplianceCredential K) : Prop where
  wallet : c'.wallet = c.wallet
  expiresAt : c'.expiresAt = c.expiresAt
  status : c'.status = c.status ∨ c'.status = credentialStatusRevoked

omit [Addresses K] [Deployment K] [DecidableEq K] in
theorem Ages.trans {c c' c'' : ComplianceCredential K} (h : Ages c c') (h' : Ages c' c'') :
    Ages c c'' where
  wallet := h'.wallet.trans h.wallet
  expiresAt := h'.expiresAt.trans h.expiresAt
  status := by
    rcases h'.status with hsame | hrevoked
    · rw [hsame]
      exact h.status
    · exact .inr hrevoked

theorem Credentialing.ages (h : Credentialing s s') {k : K} {c : ComplianceCredential K}
    (hc : s.credentials k = some c) : ∃ c', s'.credentials k = some c' ∧ Ages c c' := by
  cases h with
  | kept hkept => exact ⟨c, hkept ▸ hc, rfl, rfl, .inl rfl⟩
  | @issued cred hnone hupd =>
      have hne : k ≠ credentialKey cred.wallet := by
        rintro rfl
        cases hnone.symm.trans hc
      exact ⟨c, by rw [hupd, Function.update_of_ne hne, hc], rfl, rfl, .inl rfl⟩
  | @revoked j cred hcred hupd =>
      by_cases hk : k = j
      · subst hk
        cases hcred.symm.trans hc
        exact ⟨{ c with status := credentialStatusRevoked },
          by rw [hupd, Function.update_self], rfl, rfl, .inr rfl⟩
      · exact ⟨c, by rw [hupd, Function.update_of_ne hk, hc], rfl, rfl, .inl rfl⟩

/-! ## Runs -/

variable [TokenProgram K] {ts : List (Transition (State K) (Action K))}

theorem Reaches.located {ledger : Ledger K} (h : Reaches ledger ts s) : Located s :=
  h.invariant (fun _ _ hc => by cases hc) fun hs hstep => hstep.credentialing.located hs

/-- A run leaves every credential where it is, aged. -/
theorem run_ages (h : Run Step s ts s') {k : K} {c : ComplianceCredential K}
    (hc : s.credentials k = some c) : ∃ c', s'.credentials k = some c' ∧ Ages c c' := by
  induction h with
  | nil => exact ⟨c, hc, rfl, rfl, .inl rfl⟩
  | snoc _ hstep ih =>
      obtain ⟨c', hc', hages⟩ := ih
      obtain ⟨c'', hc'', hages'⟩ := hstep.credentialing.ages hc'
      exact ⟨c'', hc'', hages.trans hages'⟩

/-! ## The credential gate -/

/-- The gate lets a credential of `w` through. -/
def GateOpen (s : State K) (now : Int64) (w : K) : Prop :=
  ∃ c, s.credentials (credentialKey w) = some c ∧ credentialGate now w c = .ok ()

omit [Addresses K] [Deployment K] [TokenProgram K] in
theorem credentialGate_eq_ok {now : Int64} {w : K} {c : ComplianceCredential K} {u : Unit} :
    credentialGate now w c = .ok u ↔
      c.status = credentialStatusActive ∧ now < c.expiresAt ∧ c.wallet = w := by
  simp only [credentialGate, bind_eq_ok, require_eq_ok]
  constructor
  · rintro ⟨_, hstatus, _, hexp, hwallet⟩
    exact ⟨hstatus, hexp, hwallet⟩
  · rintro ⟨hstatus, hexp, hwallet⟩
    exact ⟨(), hstatus, (), hexp, hwallet⟩

/-- Whoever deposits went through it. -/
theorem deposit_gateOpen {now : Int64} {a : Deposit K} {amount : UInt64} {ev : Option (Event K)}
    (hs : Located s) (h : deposit now a amount s = .ok (s', ev)) : GateOpen s now a.payer := by
  obtain ⟨vs, cred, shares, L, hd⟩ := deposit_spec h
  have hkey := hs _ _ hd.credential
  rw [hd.wallet] at hkey
  exact ⟨cred, hkey ▸ hd.credential, credentialGate_eq_ok.mpr ⟨hd.status, hd.unexpired, hd.wallet⟩⟩

/-- A credential revoked, or expired at `now`. -/
def Ended (c : ComplianceCredential K) (now : Int64) : Prop :=
  c.status = credentialStatusRevoked ∨ c.expiresAt ≤ now

/-- There is no way back: after any further run, at any later time, the gate is closed. -/
theorem ended_lasts {now now' : Int64} {w : K} {c : ComplianceCredential K}
    (hc : s.credentials (credentialKey w) = some c) (hended : Ended c now) (hnow : now ≤ now')
    (h : Run Step s ts s') : ¬ GateOpen s' now' w := by
  rintro ⟨d, hd, hgate⟩
  obtain ⟨hactive, hexp, -⟩ := credentialGate_eq_ok.mp hgate
  obtain ⟨c', hc', hages⟩ := run_ages h hc
  cases hd.symm.trans hc'
  rcases hended with hrevoked | hexpired
  · rcases hages.status with hsame | hrevoked'
    · rw [hsame, hrevoked] at hactive
      exact absurd hactive (by decide)
    · rw [hrevoked'] at hactive
      exact absurd hactive (by decide)
  · rw [hages.expiresAt, Int64.lt_iff_toInt_lt] at hexp
    rw [Int64.le_iff_toInt_le] at hexpired hnow
    omega

end OragamiVault
