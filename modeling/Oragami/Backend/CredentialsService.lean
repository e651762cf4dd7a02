/-
# `Oragami.Backend.CredentialsService` — credentials issued by the backend

`issue` writes a credential to the chain and a row for it to the database.  The one
way it knows is the creation of the account, and where there is an account already it
asks the administrator to revoke the credential first.  Revoking keeps the account.
So a wallet whose credential has ended gets no other one (`issue_never_renews`).
-/
import Oragami.Backend.World
import Oragami.OragamiVault.Credentials
import Oragami.OragamiVault.Scenario

namespace Backend

open Idl Lts OragamiVault

variable {K : Type}

/-! ## Requests -/

/-- `IssueCredentialDto`, with what its validators ask for. -/
structure IssueCredentialDto (K : Type) where
  wallet : Option K
  institutionName : String
  jurisdiction : String
  tier : UInt8
  kycLevel : UInt8
  amlScore : Int
  expiresAt : String
  institutionName_le : utf16Length institutionName.toList ≤ 64
  jurisdiction_le : utf16Length jurisdiction.toList ≤ 4
  tier_mem : tier ∈ [1, 2, 3]
  kycLevel_mem : kycLevel ∈ [1, 2, 3]
  amlScore_mem : 0 ≤ amlScore ∧ amlScore ≤ 100

structure IssueResult (K : Type) where
  success : Bool
  credentialPda : K
  txSignature : String

/-! ## `issue` -/

section Issue

variable [Platform K]

def attestationHashFromDto (wallet : K) (dto : IssueCredentialDto K) : Vector UInt8 32 :=
  let canonical := jsonObject [("wallet", jsonString (Platform.toBase58 wallet)),
    ("institutionName", jsonString dto.institutionName),
    ("jurisdiction", jsonString dto.jurisdiction), ("tier", toString dto.tier),
    ("kycLevel", toString dto.kycLevel), ("amlScore", toString dto.amlScore),
    ("expiresAt", jsonString dto.expiresAt)]
  Platform.sha256 K (utf8 canonical.toList)

/-- The second `expiresAt` names, if it is later than `issuedAt`. -/
def expiryOf (K : Type) [Platform K] (issuedAt : Int) (expiresAt : String) : Option Int :=
  match Platform.getTime K expiresAt with
  | none => none
  | some ms => if ms / 1000 ≤ issuedAt then none else some (ms / 1000)

/-- A request that may be sent. -/
structure CheckedIssue (K : Type) where
  walletPk : K
  issuedAt : Int
  expiresAt : Int

def checkIssue (dateNow : Int) (dto : IssueCredentialDto K) :
    Except (Exception K) (CheckedIssue K) := do
  let walletPk ← orThrow dto.wallet
  let issuedAt := dateNow / 1000
  match expiryOf K issuedAt dto.expiresAt with
  | none => .error (.badRequest "expiresAt must be a future ISO datetime")
  | some expiresAt => pure { walletPk, issuedAt, expiresAt }

def issueParams (dto : IssueCredentialDto K) (c : CheckedIssue K) : IssueCredentialParams K where
  wallet := c.walletPk
  institutionName := strToBytes64 dto.institutionName
  jurisdiction := jurisdictionToBytes K dto.jurisdiction
  tier := dto.tier
  kycLevel := dto.kycLevel
  amlCoverage := UInt8.ofNat (min 255 (max 0 dto.amlScore)).toNat
  attestationHash := attestationHashFromDto c.walletPk dto
  issuedAt := Int64.ofInt c.issuedAt
  expiresAt := Int64.ofInt c.expiresAt

variable [Addresses K] [Deployment K]

/-- The row of a wallet just credentialed. -/
def issuedInstitution (dto : IssueCredentialDto K) (c : CheckedIssue K) : Institution K where
  walletAddress := c.walletPk
  name := dto.institutionName
  jurisdiction := String.ofList (slice 2 dto.jurisdiction.toList)
  tier := dto.tier
  kycLevel := dto.kycLevel
  amlScore := dto.amlScore
  credentialPda := some (credentialKey c.walletPk)
  credentialStatus := "active"
  credentialIssuedAt := some (c.issuedAt * 1000)
  credentialExpiresAt := some (c.expiresAt * 1000)
  attestationHash := some (hex (attestationHashFromDto c.walletPk dto).toList)

omit [Platform K] in
/-- The account must not be there yet; a read that fails for another reason counts as that. -/
def refuseReissue (net : Network) (walletPk : K) : Request K Unit := fun world =>
  if (readCredential net world.chain walletPk).isSome then
    .error (.conflict "A credential already exists for this wallet. Revoke it before re-issuing.") world
  else .ok () world

variable [DecidableEq K] [TokenProgram K]

def issue (authority : K) (net : Network) (dateNow : Int) (dto : IssueCredentialDto K) :
    Request K (IssueResult K) := do
  let c ← ofExcept (checkIssue dateNow dto)
  let credentialPda := credentialKey c.walletPk
  refuseReissue net c.walletPk
  let txSignature ← rpc net (.issueCredential
    { credential := credentialPda, vaultState := vaultStateKey, authority } (issueParams dto c))
  upsertInstitution net (issuedInstitution dto c)
  createAuditEvent net {
    actor := authority
    role := "admin"
    action := "issue_credential"
    result := "success"
    txSignature := some txSignature
    metadata := c.walletPk }
  pure { success := true, credentialPda, txSignature }

end Issue

/-! ## `revoke` -/

structure RevokeResult where
  success : Bool
  txSignature : String

def revoke [DecidableEq K] [Addresses K] [Deployment K] [TokenProgram K] (authority : K)
    (net : Network) (wallet : Option K) : Request K RevokeResult := do
  let walletPk ← ofExcept (orThrow wallet)
  let credentialPda := credentialKey walletPk
  let txSignature ← rpc net (.revokeCredential
    { credential := credentialPda, vaultState := vaultStateKey, authority })
  updateInstitutions net walletPk fun row => { row with credentialStatus := "revoked" }
  createAuditEvent net {
    actor := authority
    role := "admin"
    action := "revoke_credential"
    result := "success"
    txSignature := some txSignature
    metadata := walletPk }
  pure { success := true, txSignature }

/-! ## Issuing again -/

/-- A request is checked for the wallet it names. -/
theorem checkIssue_wallet [Platform K] {dateNow : Int} {dto : IssueCredentialDto K}
    {c : CheckedIssue K} {w : K} (h : checkIssue dateNow dto = .ok c) (hw : dto.wallet = some w) :
    c.walletPk = w := by
  simp only [checkIssue, Anchor.bind_eq_ok, orThrow_eq_ok, hw] at h
  obtain ⟨_, hwallet, h⟩ := h
  cases hwallet
  split at h
  · cases h
  · cases h
    rfl

variable [DecidableEq K] [Addresses K] [Deployment K]

/-- The program refuses a second credential for a wallet. -/
theorem issueCredential_refused {s : State K} {a : IssueCredential K} {p : IssueCredentialParams K}
    {c : ComplianceCredential K} (hc : s.credentials (credentialKey p.wallet) = some c)
    (o : Outcome K) : issueCredential a p s ≠ .ok o := by
  intro h
  obtain ⟨s', ev⟩ := o
  obtain ⟨vs, cred, -, hnone, hkey, -⟩ := issueCredential_spec h
  rw [hkey] at hnone
  cases hnone.symm.trans hc

variable [TokenProgram K] [Platform K]

/-- Where a credential is, `issue` fails and changes nothing, whatever gets through. -/
theorem issue_refused (world : World K) {w : K} {c : ComplianceCredential K}
    (hc : world.chain.credentials (credentialKey w) = some c) (authority : K) (net : Network)
    (dateNow : Int) (dto : IssueCredentialDto K) (hw : dto.wallet = some w) :
    ∃ e, issue authority net dateNow dto world = .error e world ∧
      ∀ checked, checkIssue dateNow dto = .ok checked → net.credential = true →
        e = .conflict "A credential already exists for this wallet. Revoke it before re-issuing." := by
  cases hcheck : checkIssue dateNow dto with
  | error e =>
      refine ⟨e, request_error ?_, nofun⟩
      rw [hcheck]
      rfl
  | ok checked =>
      have hwallet : checked.walletPk = w := checkIssue_wallet hcheck hw
      have hgo : ofExcept (checkIssue dateNow dto) world = .ok checked world := by
        rw [hcheck]
        rfl
      cases hread : net.credential with
      | true =>
          refine ⟨_, (request_ok hgo).trans (request_error ?_), fun _ _ _ => rfl⟩
          unfold refuseReissue
          rw [readCredential_eq, hread, hwallet, hc]
          rfl
      | false =>
          refine ⟨.uncaught, (request_ok hgo).trans ((request_ok (a := ()) ?_).trans
            (request_error (rpc_refused ?_))), nofun⟩
          · unfold refuseReissue
            rw [readCredential_eq, hread]
            rfl
          · exact issueCredential_refused (p := issueParams dto checked) (hwallet ▸ hc)

/-- A credential that has ended is the wallet's last.  In every state a further run leads to,
`issue` fails and changes nothing, as long as the clock runs on the gate stays closed, and
no deposit of the wallet gets through. -/
theorem issue_never_renews {ledger : Ledger K} {ts : List (Transition (State K) (Action K))}
    {s : State K} (h : Reaches ledger ts s) {k w : K} {c : ComplianceCredential K} {now : Int64}
    (hc : s.credentials k = some c) (hwallet : c.wallet = w) (hended : Ended c now) :
    ∀ ts' s', Run Step s ts' s' →
      (∀ (authority : K) (net : Network) (dateNow : Int) (dto : IssueCredentialDto K)
        (db : Database K), dto.wallet = some w →
          ∃ e, issue authority net dateNow dto ⟨s', db⟩ = .error e ⟨s', db⟩ ∧
            ∀ checked, checkIssue dateNow dto = .ok checked → net.credential = true →
              e = .conflict
                "A credential already exists for this wallet. Revoke it before re-issuing.") ∧
      ∀ now', now ≤ now' → ¬ GateOpen s' now' w ∧
        ∀ (a : Deposit K) (amount : UInt64) (o : Outcome K), a.payer = w →
          deposit now' a amount s' ≠ .ok o := by
  have hk : k = credentialKey w := hwallet ▸ h.located k c hc
  rw [hk] at hc
  intro ts' s' hrun
  refine ⟨fun authority net dateNow dto db hw => ?_, fun now' hnow => ?_⟩
  · obtain ⟨c', hc', -⟩ := run_ages hrun hc
    exact issue_refused ⟨s', db⟩ hc' authority net dateNow dto hw
  · have hclosed : ¬ GateOpen s' now' w := ended_lasts hc hended hnow hrun
    refine ⟨hclosed, fun a amount o hpayer hdeposit => hclosed ?_⟩
    rw [← hpayer]
    exact deposit_gateOpen (Reaches.located (Run.append_iff.mpr ⟨s, h, hrun⟩)) hdeposit

/-! ## A wallet revoked -/

namespace Cluster

open OragamiVault.Cluster

/-- What the platform makes of the one request below. -/
instance : Platform FreeKey where
  toBase58
    | .num 21 => "1111111111111111111111111111111N"
    | _ => ""
  sha256 _ := #v[168, 46, 54, 188, 183, 185, 255, 178, 254, 182, 11, 122, 248, 42, 198, 25, 21, 140,
    93, 137, 119, 150, 97, 219, 3, 98, 175, 177, 124, 77, 28, 107]
  toUpperCase cs := cs.map Char.toUpper
  getTime
    | "2030-01-01T00:00:00.000Z" => some 1893456000000
    | _ => none

def revoke : Action FreeKey :=
  .program 10 (.revokeCredential
    { credential := credentialKey alice, vaultState := vaultStateKey, authority := admin })

def revoking : List (Action FreeKey) := [opening, credential, revoke]

def revoked : State FreeKey := final (.genesis OragamiVault.Cluster.ledger) revoking

theorem revoked_reaches : Reaches OragamiVault.Cluster.ledger
    (play (.genesis OragamiVault.Cluster.ledger) revoking) revoked :=
  reaches_final (by decide)

set_option maxRecDepth 5000 in
theorem revoked_credential :
    ∃ c, revoked.credentials (credentialKey alice) = some c ∧ c.wallet = alice ∧
      c.status = credentialStatusRevoked := by
  obtain ⟨c, hc, heq⟩ := Option.map_eq_some_iff.mp
    (show (revoked.credentials (credentialKey alice)).map (fun c => (c.wallet, c.status)) =
      some (alice, credentialStatusRevoked) from rfl)
  simp only [Prod.mk.injEq] at heq
  exact ⟨c, hc, heq⟩

/-- A credential for Alice until 2030. -/
def reissue : IssueCredentialDto FreeKey where
  wallet := some alice
  institutionName := "Alice"
  jurisdiction := "CH"
  tier := 1
  kycLevel := 1
  amlScore := 10
  expiresAt := "2030-01-01T00:00:00.000Z"
  institutionName_le := by decide
  jurisdiction_le := by decide
  tier_mem := by decide
  kycLevel_mem := by decide
  amlScore_mem := by decide

/-- Everything gets through. -/
def net : Network where
  clock := 20
  transaction := true
  confirmation := some "signature"
  credential := true
  vaultState := true
  institution := true
  auditEvent := true

def db : Database FreeKey := ⟨fun _ => none, []⟩

end Cluster

open OragamiVault.Cluster (alice admin) in
/-- Alice, revoked, is refused. -/
theorem issue_never_renews_alice :
    ∃ e, issue admin Cluster.net 20000 Cluster.reissue ⟨Cluster.revoked, Cluster.db⟩ =
        .error e ⟨Cluster.revoked, Cluster.db⟩ ∧
      ¬ GateOpen Cluster.revoked 20 alice := by
  obtain ⟨c, hc, hwallet, hstatus⟩ := Cluster.revoked_credential
  have hended : Ended c 10 := .inl hstatus
  obtain ⟨hissue, hgate⟩ :=
    issue_never_renews Cluster.revoked_reaches hc hwallet hended _ _ .nil
  obtain ⟨e, he, -⟩ := hissue admin Cluster.net 20000 Cluster.reissue Cluster.db rfl
  exact ⟨e, he, (hgate 20 (by decide)).1⟩

open OragamiVault.Cluster (alice admin) in
/-- Her request is valid, asks for a later expiry and finds the answer the service has for a
wallet that was not revoked. -/
theorem issue_does_not_renew :
    ∃ ts s c, Reaches OragamiVault.Cluster.ledger ts s ∧
      s.credentials (credentialKey alice) = some c ∧ c.status = credentialStatusRevoked ∧
      (∃ checked, checkIssue 20000 Cluster.reissue = .ok checked ∧ checked.walletPk = alice ∧
        checked.issuedAt < checked.expiresAt) ∧
      issue admin Cluster.net 20000 Cluster.reissue ⟨s, Cluster.db⟩ = .error (.conflict
        "A credential already exists for this wallet. Revoke it before re-issuing.")
          ⟨s, Cluster.db⟩ ∧
      ¬ GateOpen s 20 alice := by
  obtain ⟨c, hc, -, hstatus⟩ := Cluster.revoked_credential
  have hended : Ended c 10 := .inl hstatus
  obtain ⟨e, he, hconflict⟩ := issue_refused ⟨Cluster.revoked, Cluster.db⟩ hc admin Cluster.net
    20000 Cluster.reissue rfl
  cases hconflict ⟨alice, 20, 1893456000⟩ rfl rfl
  exact ⟨_, Cluster.revoked, c, Cluster.revoked_reaches, hc, hstatus,
    ⟨⟨alice, 20, 1893456000⟩, rfl, rfl, by decide⟩, he, ended_lasts hc hended (by decide) .nil⟩

end Backend
