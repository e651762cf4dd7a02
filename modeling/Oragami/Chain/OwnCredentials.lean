/-
# `Oragami.Chain.OwnCredentials` — the credentials multi-asset-vault issues itself

multi-asset-vault has `issue_credential` and `revoke_credential` of its own, which
write accounts at its own addresses; its gates read those of oragami-vault.  What
it wrote is tied to the run as for any tickets: a credential is unrevoked exactly
if it was issued and not revoked since (`Tickets.unused_iff`).  What the gates let
through is what oragami-vault stored (`CredentialHistory.accepts_iff`).  So the
instructions decide what the gates do just where the two programs happen to agree
on the wallet.
-/
import Oragami.Chain.Settlement
import Oragami.Lib.SingleUse

namespace Chain

open Lts
open MultiAssetVault (ownCredentialKey credentialRevoked)

variable {K : Type} [Addresses K] [Deployment K]

/-! ## Issue and revocation by multi-asset-vault -/

/-- The authority of the factory issued `w` a credential, good until `expiresAt`. -/
def IssuesHere (w : K) (expiresAt : Int64) (t : Transition (Chain K) (Action K)) : Prop :=
  ∃ now a p f, t.label = .multi now (.issueCredential a p) ∧ a.wallet = w ∧
    p.expiresAt = expiresAt ∧ t.pre.multi.factory = some f ∧ a.authority = f.authority

/-- It revoked the credential of `w`. -/
def RevokesHere (w : K) (t : Transition (Chain K) (Action K)) : Prop :=
  ∃ now a f, t.label = .multi now (.revokeCredential a) ∧ a.credential = ownCredentialKey w ∧
    t.pre.multi.factory = some f ∧ a.authority = f.authority

/-- It issued `w` a credential good beyond `time`, and has not revoked it since. -/
def IssuedHere (ts : List (Transition (Chain K) (Action K))) (time : Int64) (w : K) : Prop :=
  Since ts (fun t => ∃ expiresAt, time < expiresAt ∧ IssuesHere w expiresAt t) (RevokesHere w)

/-- multi-asset-vault keeps a credential of `w`, unrevoked and good beyond `time`. -/
def HoldsHere (s : Chain K) (time : Int64) (w : K) : Prop :=
  ∃ cred, s.multi.credentials (ownCredentialKey w) = some cred ∧
    cred.status ≠ credentialRevoked ∧ time < cred.expiresAt

/-! ## Its credentials as tickets -/

/-- When a credential expires, and whether it was revoked. -/
def ownTicket {K : Type} (c : MultiAssetVault.ComplianceCredential K) : Int64 × Bool :=
  (c.expiresAt, c.status = credentialRevoked)

/-- A credential was issued at the address `k`. -/
def OwnIssued (t : Transition (Chain K) (Action K)) (k : K) (expiresAt : Int64) : Prop :=
  ∃ w, k = ownCredentialKey w ∧ IssuesHere w expiresAt t

/-- The credential at `k` was revoked. -/
def OwnRevoked (t : Transition (Chain K) (Action K)) (k : K) (expiresAt : Int64) : Prop :=
  ∃ now a f cred, t.label = .multi now (.revokeCredential a) ∧ a.credential = k ∧
    t.pre.multi.factory = some f ∧ a.authority = f.authority ∧
    t.pre.multi.credentials k = some cred ∧ cred.expiresAt = expiresAt

theorem ownCredentialKey_inj {w w' : K} (h : ownCredentialKey w = ownCredentialKey w') :
    w = w' := by
  have hseeds := (Addresses.find_inj h).2
  simp only [List.cons.injEq, Seed.key.injEq, and_true, true_and] at hseeds
  exact hseeds

section Steps

variable [DecidableEq K] [TokenProgram K] {s s' : Chain K}

theorem Step.own_change {act : Action K} (h : Step s act s') :
    Change (OwnIssued ⟨s, act, s'⟩) (OwnRevoked ⟨s, act, s'⟩)
      (Option.map ownTicket ∘ s.multi.credentials)
      (Option.map ownTicket ∘ s'.multi.credentials) := by
  cases h with
  | @multi now c m ev _ hexec =>
      have hsame : m.credentials = s.multi.credentials →
          Option.map ownTicket ∘ (s.setMultiSide m).multi.credentials =
            Option.map ownTicket ∘ s.multi.credentials :=
        fun hm => congrArg (Option.map ownTicket ∘ ·) hm
      cases MultiAssetVault.exec_effect hexec with
      | openFactory _ _ => exact .same rfl
      | register hr => exact .same (hsame (by rw [hr.state]; rfl))
      | setNav _ _ _ => exact .same rfl
      | pause _ _ => exact .same rfl
      | record _ _ _ _ _ _ => exact .same rfl
      | deposit hd => exact .same (hsame hd.credentials)
      | redeem hr => exact .same (hsame (by rw [hr.state]; rfl))
      | transfer _ => exact .same rfl
      | @issue a p cred hadmin hnone hkey hwallet hexp hactive _ =>
          obtain ⟨f, hf, hauth⟩ := hadmin
          refine .issue_record (p := p.expiresAt)
            ⟨a.wallet, hkey, now, a, p, f, rfl, rfl, rfl, hf, hauth.symm⟩ hnone ?_ rfl
          rw [ownTicket, hexp, hactive]
          rfl
      | @revoke a cred hadmin hcred hst =>
          obtain ⟨f, hf, hauth⟩ := hadmin
          refine .use_record (p := cred.expiresAt)
            ⟨now, a, f, cred, rfl, rfl, hf, hauth.symm, hcred, rfl⟩ hcred ?_ ?_ rfl
          · rw [ownTicket, decide_eq_false hst]
          · rw [ownTicket, decide_eq_true rfl]
  | vault _ _ => exact .same rfl
  | token _ _ => exact .same rfl

variable {t : Transition (Chain K) (Action K)} {w : K} {expiresAt : Int64}

/-- An issued credential is there afterwards, unrevoked. -/
theorem OwnIssued.stored {k : K} (h : OwnIssued t k expiresAt)
    (hstep : Step t.pre t.label t.post) :
    (Option.map ownTicket ∘ t.post.multi.credentials) k = some (expiresAt, false) := by
  obtain ⟨w, rfl, now, a, p, f, hlabel, rfl, rfl, -, -⟩ := h
  rw [hlabel] at hstep
  obtain ⟨m, ev, hexec, hpost⟩ := hstep.of_multi
  rw [hpost]
  cases MultiAssetVault.exec_effect hexec with
  | issue _ _ hkey _ hexp hactive _ =>
      rw [← hkey]
      refine written_record ?_ rfl
      rw [ownTicket, hexp, hactive]
      rfl

theorem OwnRevoked.stored {k : K} (h : OwnRevoked t k expiresAt)
    (hstep : Step t.pre t.label t.post) :
    (Option.map ownTicket ∘ t.pre.multi.credentials) k = some (expiresAt, false) ∧
      (Option.map ownTicket ∘ t.post.multi.credentials) k = some (expiresAt, true) := by
  obtain ⟨now, a, f, cred, hlabel, rfl, -, -, hcred, rfl⟩ := h
  rw [hlabel] at hstep
  obtain ⟨m, ev, hexec, hpost⟩ := hstep.of_multi
  rw [hpost]
  cases MultiAssetVault.exec_effect hexec with
  | revoke _ hcred' hst =>
      cases hcred.symm.trans hcred'
      refine used_record hcred ?_ ?_ rfl
      · rw [ownTicket, decide_eq_false hst]
      · rw [ownTicket, decide_eq_true rfl]

/-- A successful `revoke_credential` revokes the credential that is there. -/
theorem revokesHere_iff (hstep : Step t.pre t.label t.post) :
    RevokesHere w t ↔ ∃ expiresAt, OwnRevoked t (ownCredentialKey w) expiresAt := by
  constructor
  · rintro ⟨now, a, f, hlabel, hkey, hf, hauth⟩
    rw [hlabel] at hstep
    obtain ⟨m, ev, hexec, -⟩ := hstep.of_multi
    cases MultiAssetVault.exec_effect hexec with
    | revoke _ hcred _ =>
        rw [hkey] at hcred
        exact ⟨_, now, a, f, _, hlabel, hkey, hf, hauth, hcred, rfl⟩
  · rintro ⟨e, now, a, f, cred, hlabel, hkey, hf, hauth, -, -⟩
    exact ⟨now, a, f, hlabel, hkey, hf, hauth⟩

/-- The credentials of multi-asset-vault. -/
def ownTickets : Tickets (Step (K := K)) K Int64 where
  store s := Option.map ownTicket ∘ s.multi.credentials
  Issues := OwnIssued
  Uses := OwnRevoked
  issues_unique := by
    rintro t k k' e e' ⟨w, rfl, _, _, _, _, hl, rfl, -⟩ ⟨w', rfl, _, _, _, _, hl', rfl, -⟩
    cases hl.symm.trans hl'
    rfl
  uses_unique := by
    rintro t k k' e e' ⟨_, _, _, _, hl, rfl, -⟩ ⟨_, _, _, _, hl', rfl, -⟩
    cases hl.symm.trans hl'
    rfl
  change := Step.own_change
  use hstep huse := huse.stored hstep

end Steps

/-! ## What its instructions control -/

variable [DecidableEq K] [TokenProgram K] {ledger : Ledger K}
  {ts : List (Transition (Chain K) (Action K))} {s : Chain K} {time : Int64} {w : K}

/-- The credential multi-asset-vault keeps of a wallet is the one it issued and did not revoke. -/
theorem Reaches.issuedHere_iff (h : Reaches ledger ts s) :
    IssuedHere ts time w ↔ HoldsHere s time w := by
  have hunused : ∀ expiresAt, Since ts (IssuesHere w expiresAt) (RevokesHere w) ↔
      (Option.map ownTicket ∘ s.multi.credentials) (ownCredentialKey w) =
        some (expiresAt, false) := by
    intro expiresAt
    refine Iff.trans ?_ (ownTickets.unused_iff (fun _ => rfl)
      (fun hstep hi => hi.stored hstep) h).symm
    constructor
    · intro hsince
      refine hsince.imp ?_ ?_
      · intro t _ hi
        exact ⟨w, rfl, hi⟩
      · intro t ht hu
        exact (revokesHere_iff (h.of_mem ht).2).mpr hu
    · intro hsince
      refine hsince.imp ?_ ?_
      · rintro t _ ⟨w', hw, hi⟩
        cases ownCredentialKey_inj hw
        exact hi
      · intro t ht hr
        exact (revokesHere_iff (h.of_mem ht).2).mp hr
  constructor
  · rintro ⟨before, t, after, hts, ⟨expiresAt, hexp, hi⟩, hafter⟩
    obtain ⟨cred, hcred, hticket⟩ :=
      Option.map_eq_some_iff.mp ((hunused expiresAt).mp ⟨before, t, after, hts, hi, hafter⟩)
    obtain ⟨rfl, hst⟩ := Prod.mk.inj hticket
    exact ⟨cred, hcred, of_decide_eq_false hst, hexp⟩
  · rintro ⟨cred, hcred, hst, hexp⟩
    have hsince := (hunused cred.expiresAt).mpr (by
      rw [Function.comp_apply, hcred, Option.map_some, ownTicket, decide_eq_false hst])
    exact hsince.imp (fun t _ hi => ⟨cred.expiresAt, hexp, hi⟩) fun t _ hr => hr

/-- After any run, the gates of multi-asset-vault let exactly those through whom its authority
issued a credential, unexpired and not revoked since, where the credentials of the two programs
agree on the wallet; and nowhere else. -/
theorem own_credentials_control (h : Reaches ledger ts s) (time : Int64) (w : K) :
    (Accepts s time w ↔ IssuedHere ts time w) ↔ (Holds s time w ↔ HoldsHere s time w) := by
  rw [(Reaches.credentialHistory h).accepts_iff, h.issuedHere_iff]

/-- Alice has a credential of either program. -/
def both : List (Action FreeKey) := Cluster.setUp ++ [Cluster.issueHere]

theorem own_credentials_control_both :
    Accepts (final (genesis Cluster.ledger) both) 0 OragamiVault.Cluster.alice ↔
      IssuedHere (play (genesis Cluster.ledger) both) 0 OragamiVault.Cluster.alice := by
  refine (own_credentials_control (Cluster.reaches_final (by decide)) 0
    OragamiVault.Cluster.alice).mpr (iff_of_true ?_ ?_)
  · exact holds_of_record (k := OragamiVault.credentialKey OragamiVault.Cluster.alice) rfl
      (show (0 : Int64) < 1000 by decide)
  · obtain ⟨cred, hcred, hfields⟩ := Option.map_eq_some_iff.mp
      (show ((final (genesis Cluster.ledger) both).multi.credentials
        (ownCredentialKey OragamiVault.Cluster.alice)).map (fun c => (c.status, c.expiresAt)) =
        some (MultiAssetVault.credentialActive, 1000) from rfl)
    obtain ⟨hstatus, hexp⟩ := Prod.mk.inj hfields
    exact ⟨cred, hcred, by rw [hstatus]; decide, by rw [hexp]; decide⟩

/-- multi-asset-vault revoked hers. -/
def revokedHere : List (Action FreeKey) :=
  Cluster.setUp ++ [Cluster.issueHere, Cluster.revokeHere]

/-- Its gates let Alice through all the same, by the credential of oragami-vault. -/
theorem own_revocation_ignored :
    ∃ ts s time w, Reaches Cluster.ledger ts s ∧ ¬ (Accepts s time w ↔ IssuedHere ts time w) := by
  have h : Reaches Cluster.ledger _ (final (genesis Cluster.ledger) revokedHere) :=
    Cluster.reaches_final (by decide)
  have hholds : Holds (final (genesis Cluster.ledger) revokedHere) 0 OragamiVault.Cluster.alice :=
    holds_of_record (k := OragamiVault.credentialKey OragamiVault.Cluster.alice) rfl
      (show (0 : Int64) < 1000 by decide)
  refine ⟨_, _, 0, OragamiVault.Cluster.alice, h, ?_⟩
  intro hiff
  have haccepts := (Reaches.credentialHistory h).accepts_iff.mpr hholds
  obtain ⟨cred, hcred, hst, -⟩ := h.issuedHere_iff.mp (hiff.mp haccepts)
  have hrevoked := congrArg (Option.map (·.status)) hcred
  exact hst (Option.some.inj hrevoked).symm

end Chain
