/-
# `Oragami.Chain.Credentials` — one credential for both products

Every place that asks for a credential looks at one account, the address
oragami-vault derives from the wallet.  What the account says is tied to the
history of the run by an invariant (`CredentialHistory`): a credential is stored
only at the address of its own wallet, it was issued exactly once, and while it is
not revoked no revocation of it ran.  Where nothing is stored, nothing was ever
issued.

So whoever gets through one of the gates was issued a credential exactly once and
never lost it (`credential_gates`).  `transfer_shares` does not compare the wallet
in the receiver's credential; that the address determines the wallet is part of
the invariant.
-/
import Oragami.Chain.Scenario
import Oragami.OragamiVault.Credentials

namespace Chain

open Anchor Addresses Lts
open OragamiVault (credentialKey credentialKey_inj credentialStatusActive credentialStatusRevoked)

variable {K : Type}

/-! ## Issue and revocation in a run -/

/-- Some credential of `w` was issued. -/
def Issues (w : K) (t : Transition (Chain K) (Action K)) : Prop :=
  ∃ now a p, t.label = .vault now (.issueCredential a p) ∧ p.wallet = w

/-- The authority of oragami-vault issued one, good until `expiresAt`. -/
def IssuedBy (w : K) (expiresAt : Int64) (t : Transition (Chain K) (Action K)) : Prop :=
  ∃ now a p vs, t.label = .vault now (.issueCredential a p) ∧ p.wallet = w ∧
    p.expiresAt = expiresAt ∧ t.pre.vault.vaultState = some vs ∧ a.authority = vs.authority

/-- The credential of `w` was revoked. -/
def Revokes (w : K) (t : Transition (Chain K) (Action K)) : Prop :=
  ∃ now a cred, t.label = .vault now (.revokeCredential a) ∧
    t.pre.vault.credentials a.credential = some cred ∧ cred.wallet = w

/-- A credential of `w` was issued exactly once, by the authority, good until `expiresAt`. -/
def IssuedOnce (ts : List (Transition (Chain K) (Action K))) (w : K) (expiresAt : Int64) : Prop :=
  ∃ before t after, ts = before ++ t :: after ∧ IssuedBy w expiresAt t ∧
    ∀ u ∈ before ++ after, ¬ Issues w u

section History

variable {ts : List (Transition (Chain K) (Action K))} {t : Transition (Chain K) (Action K)}
  {w : K} {expiresAt : Int64}

theorem forall_mem_snoc {α : Type} {P : α → Prop} {xs : List α} {x : α} (h : ∀ y ∈ xs, P y)
    (hx : P x) : ∀ y ∈ xs ++ [x], P y := by
  intro y hy
  rcases List.mem_append.mp hy with hy | hy
  · exact h y hy
  · exact List.mem_singleton.mp hy ▸ hx

theorem IssuedOnce.snoc (h : IssuedOnce ts w expiresAt) (ht : ¬ Issues w t) :
    IssuedOnce (ts ++ [t]) w expiresAt := by
  obtain ⟨before, u, after, rfl, hu, hothers⟩ := h
  refine ⟨before, u, after ++ [t], by rw [List.append_assoc, List.cons_append], hu, ?_⟩
  rw [← List.append_assoc]
  exact forall_mem_snoc hothers ht

/-- The first issue of a credential is so far the only one. -/
theorem IssuedOnce.first (h : ∀ u ∈ ts, ¬ Issues w u) (ht : IssuedBy w expiresAt t) :
    IssuedOnce (ts ++ [t]) w expiresAt :=
  ⟨ts, t, [], rfl, ht, by rwa [List.append_nil]⟩

end History

/-! ## What a step does to the credentials -/

variable [Addresses K] [Deployment K]

section Effects

variable [DecidableEq K] {s s' : Chain K}

/-- What a step leaves of the credentials. -/
inductive CredentialEffect (s : Chain K) : Action K → Chain K → Prop
  | issued {now a p s' vs cred} : s.vault.vaultState = some vs → a.authority = vs.authority →
      s.vault.credentials a.credential = none → a.credential = credentialKey p.wallet →
      cred.wallet = p.wallet → cred.expiresAt = p.expiresAt →
      s'.vault.credentials = Function.update s.vault.credentials a.credential (some cred) →
      CredentialEffect s (.vault now (.issueCredential a p)) s'
  | revoked {now a s' cred} : s.vault.credentials a.credential = some cred →
      s'.vault.credentials = Function.update s.vault.credentials a.credential
        (some { cred with status := credentialStatusRevoked }) →
      CredentialEffect s (.vault now (.revokeCredential a)) s'
  | kept {act s'} : (∀ now a p, act ≠ .vault now (.issueCredential a p)) →
      (∀ now a, act ≠ .vault now (.revokeCredential a)) →
      s'.vault.credentials = s.vault.credentials → CredentialEffect s act s'

variable [TokenProgram K]

/-- Two instructions of oragami-vault write credentials. -/
theorem vault_credentials {now : Int64} {c : OragamiVault.Call K} {v v' : OragamiVault.State K}
    (h : OragamiVault.Effect now v c v') :
    v'.credentials = v.credentials ∨ (∃ a p, c = .issueCredential a p) ∨
      ∃ a, c = .revokeCredential a := by
  cases h with
  | quiet hq => exact .inl hq.credentials
  | init hi => exact .inl hi.credentials
  | deposit hd => exact .inl hd.rest.1
  | issue _ _ _ _ _ _ => exact .inr (.inl ⟨_, _, rfl⟩)
  | revoke _ _ _ => exact .inr (.inr ⟨_, rfl⟩)
  | setNav _ => exact .inl rfl
  | record _ _ _ _ _ _ => exact .inl rfl
  | redeem _ => exact .inl rfl
  | convert _ => exact .inl rfl
  | rewrap _ _ => exact .inl rfl
  | payOut _ _ => exact .inl rfl

theorem Step.credentialEffect {act : Action K} (h : Step s act s') :
    CredentialEffect s act s' := by
  cases h with
  | @vault now c v ev _ hexec =>
      by_cases hissue : ∃ a p, c = .issueCredential a p
      · obtain ⟨a, p, rfl⟩ := hissue
        obtain ⟨vs, cred, hw, hnone, hkey, hwallet, hexp, -⟩ :=
          OragamiVault.issueCredential_spec hexec
        refine .issued hw.vaultState hw.authority hnone hkey hwallet hexp ?_
        rw [hw.state]
        rfl
      by_cases hrevoke : ∃ a, c = .revokeCredential a
      · obtain ⟨a, rfl⟩ := hrevoke
        obtain ⟨vs, cred, hw, hcred, -⟩ := OragamiVault.revokeCredential_spec hexec
        refine .revoked hcred ?_
        rw [hw.state]
        rfl
      refine .kept (fun _ a p hact => hissue ⟨a, p, ?_⟩) (fun _ a hact => hrevoke ⟨a, ?_⟩) ?_
      · cases hact
        rfl
      · cases hact
        rfl
      · rcases vault_credentials (OragamiVault.exec_effect hexec) with hsame | hi | hr
        · exact hsame
        · exact absurd hi hissue
        · exact absurd hr hrevoke
  | multi _ _ =>
      refine .kept ?_ ?_ rfl
      · intro _ _ _ hact
        cases hact
      · intro _ _ hact
        cases hact
  | token _ _ =>
      refine .kept ?_ ?_ rfl
      · intro _ _ _ hact
        cases hact
      · intro _ _ hact
        cases hact

end Effects

/-! ## The history of a credential -/

/-- What the run says about the credentials stored, and about those that are not. -/
structure CredentialHistory (ts : List (Transition (Chain K) (Action K))) (s : Chain K) :
    Prop where
  address : ∀ {k cred}, s.vault.credentials k = some cred → k = credentialKey cred.wallet
  issued : ∀ {k cred}, s.vault.credentials k = some cred →
    IssuedOnce ts cred.wallet cred.expiresAt
  unrevoked : ∀ {k cred}, s.vault.credentials k = some cred →
    cred.status ≠ credentialStatusRevoked → ∀ t ∈ ts, ¬ Revokes cred.wallet t
  absent : ∀ {w}, s.vault.credentials (credentialKey w) = none →
    ∀ t ∈ ts, ¬ Issues w t ∧ ¬ Revokes w t

theorem credentialHistory_genesis (ledger : Ledger K) :
    CredentialHistory [] (genesis ledger) where
  address h := by cases h
  issued h := by cases h
  unrevoked h := by cases h
  absent _ t ht := by cases ht

section Preserved

variable {ts : List (Transition (Chain K) (Action K))} {s s' : Chain K}

theorem CredentialHistory.kept {act : Action K} (h : CredentialHistory ts s)
    (hissue : ∀ now a p, act ≠ .vault now (.issueCredential a p))
    (hrevoke : ∀ now a, act ≠ .vault now (.revokeCredential a))
    (hs : s'.vault.credentials = s.vault.credentials) :
    CredentialHistory (ts ++ [⟨s, act, s'⟩]) s' := by
  have hni : ∀ w, ¬ Issues w ⟨s, act, s'⟩ := fun w ⟨now, a, p, hl, _⟩ => hissue now a p hl
  have hnr : ∀ w, ¬ Revokes w ⟨s, act, s'⟩ := fun w ⟨now, a, _, hl, _⟩ => hrevoke now a hl
  refine ⟨?_, ?_, ?_, ?_⟩
  · intro k c hc
    rw [hs] at hc
    exact h.address hc
  · intro k c hc
    rw [hs] at hc
    exact (h.issued hc).snoc (hni _)
  · intro k c hc hst
    rw [hs] at hc
    exact forall_mem_snoc (h.unrevoked hc hst) (hnr _)
  · intro w hc
    rw [hs] at hc
    exact forall_mem_snoc (h.absent hc) ⟨hni _, hnr _⟩

variable [DecidableEq K] {now : Int64}

/-- Issuing puts the credential where nothing was, so nothing of that wallet's was issued
before. -/
theorem CredentialHistory.issue {a : OragamiVault.IssueCredential K}
    {p : OragamiVault.IssueCredentialParams K} {vs : OragamiVault.VaultState K}
    {cred : OragamiVault.ComplianceCredential K} (h : CredentialHistory ts s)
    (hvs : s.vault.vaultState = some vs) (hauth : a.authority = vs.authority)
    (hnone : s.vault.credentials a.credential = none)
    (hkey : a.credential = credentialKey p.wallet) (hwallet : cred.wallet = p.wallet)
    (hexp : cred.expiresAt = p.expiresAt)
    (hs : s'.vault.credentials = Function.update s.vault.credentials a.credential (some cred)) :
    CredentialHistory (ts ++ [⟨s, .vault now (.issueCredential a p), s'⟩]) s' := by
  have hnr : ∀ w, ¬ Revokes w ⟨s, .vault now (.issueCredential a p), s'⟩ := by
    rintro w ⟨_, _, _, hl, _⟩
    cases hl
  have hissues : ∀ {w}, Issues w ⟨s, .vault now (.issueCredential a p), s'⟩ →
      credentialKey w = a.credential := by
    rintro w ⟨_, _, _, hl, rfl⟩
    cases hl
    exact hkey.symm
  rw [hkey] at hnone
  have hnever := h.absent hnone
  refine ⟨?_, ?_, ?_, ?_⟩
  · intro k c hc
    rw [hs] at hc
    rcases update_some hc with ⟨hk, rfl⟩ | ⟨-, hold⟩
    · rw [hk, hkey, hwallet]
    · exact h.address hold
  · intro k c hc
    rw [hs] at hc
    rcases update_some hc with ⟨-, rfl⟩ | ⟨hk, hold⟩
    · rw [hwallet, hexp]
      exact .first (fun u hu => (hnever u hu).1) ⟨now, a, p, vs, rfl, rfl, rfl, hvs, hauth⟩
    · exact (h.issued hold).snoc fun hi => hk ((h.address hold).trans (hissues hi))
  · intro k c hc hst
    rw [hs] at hc
    rcases update_some hc with ⟨-, rfl⟩ | ⟨-, hold⟩
    · rw [hwallet]
      exact forall_mem_snoc (fun u hu => (hnever u hu).2) (hnr _)
    · exact forall_mem_snoc (h.unrevoked hold hst) (hnr _)
  · intro w hc
    rw [hs] at hc
    obtain ⟨hk, hold⟩ := update_none hc
    exact forall_mem_snoc (h.absent hold) ⟨fun hi => hk (hissues hi), hnr _⟩

/-- A revoked credential keeps its place, its wallet and its expiry. -/
theorem CredentialHistory.revoke {a : OragamiVault.RevokeCredential K}
    {cred : OragamiVault.ComplianceCredential K} (h : CredentialHistory ts s)
    (hcred : s.vault.credentials a.credential = some cred)
    (hs : s'.vault.credentials = Function.update s.vault.credentials a.credential
      (some { cred with status := credentialStatusRevoked })) :
    CredentialHistory (ts ++ [⟨s, .vault now (.revokeCredential a), s'⟩]) s' := by
  have hni : ∀ w, ¬ Issues w ⟨s, .vault now (.revokeCredential a), s'⟩ := by
    rintro w ⟨_, _, _, hl, _⟩
    cases hl
  have hrevokes : ∀ {w}, Revokes w ⟨s, .vault now (.revokeCredential a), s'⟩ →
      credentialKey w = a.credential := by
    rintro w ⟨_, _, c, hl, hc, rfl⟩
    cases hl
    exact (h.address hc).symm
  refine ⟨?_, ?_, ?_, ?_⟩
  · intro k c hc
    rw [hs] at hc
    rcases update_some hc with ⟨hk, rfl⟩ | ⟨-, hold⟩
    · have hplace := h.address hcred
      exact hk.trans hplace
    · exact h.address hold
  · intro k c hc
    rw [hs] at hc
    rcases update_some hc with ⟨-, rfl⟩ | ⟨-, hold⟩
    · have honce := h.issued hcred
      exact honce.snoc (hni _)
    · exact (h.issued hold).snoc (hni _)
  · intro k c hc hst
    rw [hs] at hc
    rcases update_some hc with ⟨-, rfl⟩ | ⟨hk, hold⟩
    · exact absurd rfl hst
    · refine forall_mem_snoc (h.unrevoked hold hst) fun hr => hk ?_
      exact (h.address hold).trans (hrevokes hr)
  · intro w hc
    rw [hs] at hc
    obtain ⟨hk, hold⟩ := update_none hc
    exact forall_mem_snoc (h.absent hold) ⟨hni _, fun hr => hk (hrevokes hr)⟩

variable [TokenProgram K]

theorem CredentialHistory.step {act : Action K} (h : CredentialHistory ts s)
    (hs : Step s act s') : CredentialHistory (ts ++ [⟨s, act, s'⟩]) s' := by
  cases hs.credentialEffect with
  | issued hvs hauth hnone hkey hwallet hexp hs =>
      exact h.issue hvs hauth hnone hkey hwallet hexp hs
  | revoked hcred hs => exact h.revoke hcred hs
  | kept hissue hrevoke hs => exact h.kept hissue hrevoke hs

theorem Reaches.credentialHistory {ledger : Ledger K} (h : Reaches ledger ts s) :
    CredentialHistory ts s :=
  Run.history (I := CredentialHistory) (credentialHistory_genesis ledger)
    (fun _ hI hs => hI.step hs) h

end Preserved

/-! ## The gates -/

/-- At time `now` the transition goes through a gate with the credential of `w`. -/
inductive Passes (w : K) (now : Int64) (t : Transition (Chain K) (Action K)) : Prop
  | payer {a amount} : t.label = .vault now (.deposit a amount) → a.payer = w → Passes w now t
  | depositor {a amount} : t.label = .multi now (.deposit a amount) → a.depositor = w →
      Passes w now t
  | sender {a amount} : t.label = .multi now (.transferShares a amount) → a.sender = w →
      Passes w now t
  | receiver {a amount acc} : t.label = .multi now (.transferShares a amount) →
      t.pre.ledger.account a.receiverShareAccount = some acc → acc.owner = w → Passes w now t

section Gates

variable [DecidableEq K] [TokenProgram K] {ledger : Ledger K}
  {ts : List (Transition (Chain K) (Action K))} {s s' : Chain K} {w : K} {now : Int64}

/-- Whoever passes a gate holds an active and unexpired credential. -/
theorem Passes.credential {t : Transition (Chain K) (Action K)} (h : Passes w now t)
    (hstep : Step t.pre t.label t.post) (hist : CredentialHistory ts t.pre) :
    ∃ cred, t.pre.vault.credentials (credentialKey w) = some cred ∧ cred.wallet = w ∧
      cred.status = credentialStatusActive ∧ now < cred.expiresAt := by
  -- the wallet of a credential is that of its address
  have howner : ∀ {c : OragamiVault.ComplianceCredential K} {w},
      t.pre.vault.credentials (credentialKey w) = some c → c.wallet = w :=
    fun hc => (credentialKey_inj (hist.address hc)).symm
  have hgate : ∀ {k w cred}, MultiAssetVault.Credentialed now t.pre.view k w cred →
      ∃ c, t.pre.vault.credentials (credentialKey w) = some c ∧ c.wallet = w ∧
        c.status = credentialStatusActive ∧ now < c.expiresAt := by
    intro k w cred hcred
    obtain ⟨c, hc, -, hstatus, hexp⟩ := credentialed_stored hcred
    exact ⟨c, hc, howner hc, hstatus, hexp⟩
  cases h with
  | payer hl hw =>
      rw [hl] at hstep
      obtain ⟨v, ev, hexec, -⟩ := hstep.of_vault
      obtain ⟨vs, cred, shares, L, hd⟩ := OragamiVault.deposit_spec hexec
      have hcred : t.pre.vault.credentials _ = some cred := hd.credential
      have hk := hist.address hcred
      rw [hd.wallet, hw] at hk
      exact ⟨cred, hk ▸ hcred, hd.wallet.trans hw, hd.status, hd.unexpired⟩
  | depositor hl hw =>
      rw [hl] at hstep
      obtain ⟨m, ev, hexec, -⟩ := hstep.of_multi
      obtain ⟨v, cred, shares, L, hd⟩ := MultiAssetVault.deposit_spec hexec
      exact hw ▸ hgate hd.credential
  | sender hl hw =>
      rw [hl] at hstep
      obtain ⟨m, ev, hexec, -⟩ := hstep.of_multi
      obtain ⟨v, source, destination, sc, rc, L, ht, -⟩ :=
        MultiAssetVault.transferShares_spec hexec
      exact hw ▸ hgate ht.sender
  | receiver hl hacc hw =>
      rw [hl] at hstep
      obtain ⟨m, ev, hexec, -⟩ := hstep.of_multi
      obtain ⟨v, source, destination, sc, rc, L, ht, -⟩ :=
        MultiAssetVault.transferShares_spec hexec
      cases hacc.symm.trans ht.destinationAccount
      exact hw ▸ hgate ht.receiver

theorem active_ne_revoked : credentialStatusActive ≠ credentialStatusRevoked := by decide

/-- Whoever passes a gate of either program was issued a credential by oragami-vault exactly
once before, good beyond that time, and it was not revoked since.  So after a revocation
nothing passes for that wallet again. -/
theorem credential_gates (h : Reaches ledger ts s)
    {before after : List (Transition (Chain K) (Action K))} {t : Transition (Chain K) (Action K)}
    (hts : ts = before ++ t :: after) (hpass : Passes w now t) :
    (∃ expiresAt, now < expiresAt ∧ IssuedOnce before w expiresAt) ∧
      ∀ u ∈ before, ¬ Revokes w u := by
  subst hts
  obtain ⟨hbefore, hstep, -⟩ := Run.split h
  have hist := Reaches.credentialHistory hbefore
  obtain ⟨cred, hcred, hwallet, hstatus, hexp⟩ := hpass.credential hstep hist
  have honce := hist.issued hcred
  have hnone := hist.unrevoked hcred fun hrev => active_ne_revoked (hstatus.symm.trans hrev)
  rw [hwallet] at honce hnone
  exact ⟨⟨cred.expiresAt, hexp, honce⟩, hnone⟩

end Gates

/-- Alice's deposit with multi-asset-vault goes through on the credential the other program
issued her. -/
theorem credential_gates_deposit :
    ∃ before t after, play (genesis Cluster.ledger) Cluster.twoDeposits = before ++ t :: after ∧
      Passes OragamiVault.Cluster.alice 0 t ∧
      (∃ expiresAt, 0 < expiresAt ∧ IssuedOnce before OragamiVault.Cluster.alice expiresAt) ∧
      ∀ u ∈ before, ¬ Revokes OragamiVault.Cluster.alice u := by
  obtain ⟨t, ht, hlabel⟩ := Option.map_eq_some_iff.mp Cluster.twoDeposits_played.1
  obtain ⟨before, after, hts⟩ := List.append_of_mem (List.mem_of_getElem? ht)
  have hpass : Passes OragamiVault.Cluster.alice 0 t := .depositor hlabel rfl
  exact ⟨before, t, after, hts, hpass, credential_gates Cluster.twoDeposits_reaches hts hpass⟩

end Chain
