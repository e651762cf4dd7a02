/-
# `Oragami.Backend.CredentialVerification` — who calls a credential active

Three places classify a credential by its status and its expiry: the gate of a deposit, `verify`
of the credentials service and `verifyCredential` of the custody service.  The gate wants `now`
before the expiry.  Both services compare the other way for "expired", and so call a credential
active for one second more; `verifyCredential` says in the same answer that it does not admit to
a deposit.  Before that second they differ only where a service cannot read the account or write
its dates (`verify_agrees_iff`).
-/
import Oragami.Backend.CredentialsService
import Oragami.Backend.Faithful

namespace Backend

open Idl Anchor OragamiVault

variable {K : Type}

/-! ## `verify` -/

/-- `requiresTravelRule`. -/
def requiresTravelRule (tier : Int) (usdcAmount : Option Int) : Bool :=
  if tier ≤ 1 then true
  else match usdcAmount with
    | some amount => 1000000000 ≤ amount
    | none => false

/-- `BN.toNumber`, which throws beyond 53 bits. -/
def toNumber (n : Int) : Option Int := if n.natAbs < 2 ^ 53 then some n else none

structure VerifyResult (K : Type) where
  wallet : K
  status : CredentialStatus
  tier : Int
  /-- Empty where the row has none. -/
  expiresAt : Option Js.IsoString
  requiresTravelRule : Bool

/-- The status of a credential read.  `Date.now() / 1000` is not rounded to seconds. -/
def verifyStatus (statusByte expiresAtSec dateNow : Int) : CredentialStatus :=
  if statusByte = 3 then .revoked
  else if expiresAtSec * 1000 < dateNow then .expired
  else if statusByte = 1 then .active
  else .notFound

/-- The answer for a credential read. -/
def verifyRead (dateNow : Int) (wallet : K) (chain : Record K CredentialField) :
    Except (Exception K) (VerifyResult K) := do
  let statusByte := (chain.num .status).getD 0
  let expiresAtSec ← orThrow (toNumber ((chain.num .expiresAt).getD 0))
  let tier := (chain.num .tier).getD 0
  let expiresAt ← orThrow (Js.isoSeconds expiresAtSec)
  pure {
    wallet
    status := verifyStatus statusByte expiresAtSec dateNow
    tier
    expiresAt := some expiresAt
    requiresTravelRule := requiresTravelRule tier none }

/-- `toISOString` of a date there may be. -/
def rowDate : Option Int → Except (Exception K) (Option Js.IsoString)
  | some ms => (orThrow (Js.toISOString ms)).map some
  | none => .ok none

/-- The answer from the row, where no credential was read. -/
def verifyRecorded (net : Network) (db : Database K) (wallet : K) :
    Except (Exception K) (VerifyResult K) :=
  if net.institution then
    match db.institutions wallet with
    | none => .ok {
        wallet
        status := .notFound
        tier := 0
        expiresAt := some ⟨0⟩
        requiresTravelRule := true }
    | some row => do
        let expiresAt ← rowDate row.credentialExpiresAt
        pure {
          wallet
          status := if row.credentialStatus = "revoked" then .revoked else .notFound
          tier := row.tier.toNat
          expiresAt
          requiresTravelRule := requiresTravelRule row.tier.toNat none }
  else .error .uncaught

variable [Addresses K] [Deployment K]

def verify (net : Network) (world : World K) (dateNow : Int) (wallet : Option K) :
    Except (Exception K) (VerifyResult K) := do
  let walletPk ← orThrow wallet
  match readCredential net world.chain walletPk with
  | some chain => verifyRead dateNow walletPk chain
  | none => verifyRecorded net world.db walletPk

/-! ## Active for `verify` -/

theorem statusShown_active {status expiresAt now : Int} :
    statusShown status expiresAt now = .active ↔ status = 1 ∧ now ≤ expiresAt := by
  unfold statusShown
  grind

section Verify

variable {net : Network} {world : World K} {dateNow : Int} {wallet : K} {r : VerifyResult K}

theorem verifyStatus_active {status expiresAt : Int} :
    verifyStatus status expiresAt dateNow = .active ↔ status = 1 ∧ dateNow ≤ expiresAt * 1000 := by
  unfold verifyStatus
  grind

theorem toNumber_eq {n seconds : Int} (h : toNumber n = some seconds) : seconds = n := by
  unfold toNumber at h
  split at h
  · exact (Option.some.inj h).symm
  · cases h

/-- A second count is read and dated where a `Date` can hold it. -/
theorem dated_iff {n : Int} {date : Js.IsoString} :
    (∃ seconds, toNumber n = some seconds ∧ Js.isoSeconds seconds = some date) ↔
      Js.Datable n ∧ date = ⟨n * 1000⟩ := by
  have hiso := Js.isoSeconds_number n
  unfold toNumber
  by_cases hsafe : n.natAbs < 2 ^ 53
  · rw [if_pos hsafe]
    rw [Js.number_of_le (Nat.le_of_lt hsafe)] at hiso
    simp only [Option.some.injEq, exists_eq_left', hiso]
    split
    · next hdatable => simp [hdatable, eq_comm]
    · next hundated => simp [hundated]
  · rw [if_neg hsafe]
    constructor
    · rintro ⟨seconds, hnone, -⟩
      cases hnone
    · rintro ⟨hdatable, -⟩
      have hle : n.natAbs ≤ 8640000000000 := hdatable
      omega

omit [Addresses K] [Deployment K] in
/-- No row makes a credential active. -/
theorem verifyRecorded_inactive {db : Database K} (h : verifyRecorded net db wallet = .ok r) :
    r.status ≠ .active := by
  unfold verifyRecorded at h
  split at h
  · split at h
    · cases h
      intro hactive
      cases hactive
    · simp only [bind_eq_ok, pure_eq_ok] at h
      obtain ⟨expiresAt, -, rfl⟩ := h
      intro hactive
      split at hactive
      · cases hactive
      · cases hactive
  · cases h

omit [Addresses K] [Deployment K] in
/-- The answer for a credential read, where there is one. -/
theorem verifyRead_active_iff (c : ComplianceCredential K) :
    (∃ r, verifyRead dateNow wallet (record (credentialStored c).values) = .ok r ∧
        r.status = .active) ↔
      Js.Datable c.expiresAt.toInt ∧ c.status = credentialStatusActive ∧
        dateNow ≤ c.expiresAt.toInt * 1000 := by
  have hexpires : (record (credentialStored c).values).num .expiresAt =
      some c.expiresAt.toInt := rfl
  have hstatus : (record (credentialStored c).values).num .status =
      some (c.status.toNat : Int) := rfl
  have hbyte : (c.status.toNat : Int) = 1 ↔ c.status = credentialStatusActive :=
    byte_eq_iff (y := 1)
  simp only [verifyRead, bind_eq_ok, orThrow_eq_ok, pure_eq_ok, hexpires, hstatus, Option.getD_some]
  constructor
  · rintro ⟨r, ⟨seconds, hseconds, date, hdate, rfl⟩, hactive⟩
    obtain ⟨hdatable, -⟩ := dated_iff.mp ⟨seconds, hseconds, hdate⟩
    have hsame : seconds = c.expiresAt.toInt := toNumber_eq hseconds
    rw [verifyStatus_active, hbyte, hsame] at hactive
    exact ⟨hdatable, hactive⟩
  · rintro ⟨hdatable, hactive⟩
    obtain ⟨seconds, hseconds, hdate⟩ := dated_iff.mpr ⟨hdatable, rfl⟩
    refine ⟨_, ⟨seconds, hseconds, _, hdate, rfl⟩, ?_⟩
    rw [verifyStatus_active, hbyte, toNumber_eq hseconds]
    exact hactive

/-- `verify` calls a credential active that it reads, has a date for, and finds with the status
of one and not past its expiry. -/
theorem verify_active_iff (world : World K) {c : ComplianceCredential K}
    (hc : world.chain.credentials (credentialKey wallet) = some c) :
    (∃ r, verify net world dateNow (some wallet) = .ok r ∧ r.status = .active) ↔
      net.credential = true ∧ Js.Datable c.expiresAt.toInt ∧ c.status = credentialStatusActive ∧
        dateNow ≤ c.expiresAt.toInt * 1000 := by
  have hread := readCredential_eq net world.chain wallet
  rw [hc, Option.map_some] at hread
  cases hnet : net.credential with
  | true =>
      rw [hnet, if_pos rfl] at hread
      have hverify : verify net world dateNow (some wallet) =
          verifyRead dateNow wallet (record (credentialStored c).values) := by
        simp only [verify, orThrow, bind, Except.bind, hread]
      rw [hverify, verifyRead_active_iff]
      simp
  | false =>
      rw [hnet, if_neg Bool.false_ne_true] at hread
      have hverify : verify net world dateNow (some wallet) =
          verifyRecorded net world.db wallet := by
        simp only [verify, orThrow, bind, Except.bind, hread]
      rw [hverify]
      constructor
      · rintro ⟨r, hr, hactive⟩
        exact absurd hactive (verifyRecorded_inactive hr)
      · rintro ⟨htrue, -⟩
        cases htrue

end Verify

/-! ## Active for `verifyCredential` -/

/-- A credential that is called active is not admitted in the second it expires. -/
theorem describeCredential_split (now : Int) (wallet : K) (raw : Record K CredentialField)
    {issuedAt expiresAt status : Int} (hissued : raw.num .issuedAt = some issuedAt)
    (hexpires : raw.num .expiresAt = some expiresAt) (hstatus : raw.num .status = some status) :
    let r := (describeCredential (now * 1000) wallet raw).getD (credentialNotFound wallet)
    (r.status = .active ↔ r.canDeposit = true) ↔
      ¬ (status = 1 ∧ expiresAt = now ∧ Js.Datable issuedAt ∧ Js.Datable expiresAt) := by
  intro r
  have hseconds : now * 1000 / 1000 = now := Int.mul_ediv_cancel _ (by decide)
  by_cases hdated : Js.Datable issuedAt ∧ Js.Datable expiresAt
  · obtain ⟨r', -, hr, -, -, -, hshown, hcan⟩ := describeCredential_dated (now * 1000) wallet
      hissued hexpires hstatus hdated.1 hdated.2
    have hsame : r = r' := by simp only [r, hr, Option.getD_some]
    rw [hsame, hshown, hcan, hseconds, statusShown_active]
    constructor
    · rintro hiff ⟨hone, heq, -⟩
      obtain ⟨-, hlt⟩ := hiff.mp ⟨hone, by omega⟩
      omega
    · intro hnot
      refine and_congr_right ?_
      intro hone
      have hne : expiresAt ≠ now := fun heq => hnot ⟨hone, heq, hdated⟩
      omega
  · have hnone : r = credentialNotFound wallet := by
      simp only [r, describeCredential_undated (now * 1000) wallet hissued hexpires hdated,
        Option.getD_none]
    rw [hnone]
    constructor
    · rintro - ⟨-, -, hdated'⟩
      exact hdated hdated'
    · intro _
      exact ⟨fun h => (by cases h), fun h => (by cases h)⟩

/-! ## The three of them -/

variable [DecidableEq K] {s : Chain K} {c : ComplianceCredential K}

omit [DecidableEq K] in
theorem verifyCredential_whole (hc : s.vault.credentials (credentialKey c.wallet) = some c)
    (dateNow : Int) : verifyCredential (.stored s) dateNow (some c.wallet) =
      .ok ((describeCredential dateNow c.wallet (record (credentialStored c).values)).getD
        (credentialNotFound c.wallet)) := by
  have hfetch : (MultiAssetVaultProgram.stored s).complianceCredential
      (deriveCredentialPda c.wallet) = some (record (credentialStored c).values) := by
    show (s.vault.credentials (credentialKey c.wallet)).map _ = _
    rw [hc]
    rfl
  rw [verifyCredential, hfetch]
  rfl

/-- `verify` and the gate, on a credential that is there. -/
theorem verify_gate_iff (hc : s.vault.credentials (credentialKey c.wallet) = some c)
    (net : Network) (db : Database K) (now : Int64) :
    ((∃ r, verify net ⟨s.vaultSide, db⟩ (now.toInt * 1000) (some c.wallet) = .ok r ∧
        r.status = .active) ↔ credentialGate now c.wallet c = .ok ()) ↔
      (c.status = credentialStatusActive →
        (now < c.expiresAt → net.credential = true ∧ Js.Datable c.expiresAt.toInt) ∧
        (c.expiresAt = now → ¬ (net.credential = true ∧ Js.Datable now.toInt))) := by
  rw [verify_active_iff ⟨s.vaultSide, db⟩ hc, credentialGate_eq_ok, Int64.lt_iff_toInt_lt,
    ← Int64.toInt_inj]
  constructor
  · intro hiff hactive
    constructor
    · intro hlt
      obtain ⟨hread, hdatable, -⟩ := hiff.mpr ⟨hactive, hlt, rfl⟩
      exact ⟨hread, hdatable⟩
    · rintro heq ⟨hread, hdatable⟩
      obtain ⟨-, hlt, -⟩ := hiff.mp ⟨hread, heq ▸ hdatable, hactive, by omega⟩
      omega
  · intro h
    constructor
    · rintro ⟨hread, hdatable, hactive, hle⟩
      have hne : c.expiresAt.toInt ≠ now.toInt := fun heq =>
        (h hactive).2 heq ⟨hread, heq ▸ hdatable⟩
      exact ⟨hactive, by omega, rfl⟩
    · rintro ⟨hactive, hlt, -⟩
      obtain ⟨hread, hdatable⟩ := (h hactive).1 hlt
      exact ⟨hread, hdatable, hactive, by omega⟩

omit [DecidableEq K] in
/-- `verifyCredential` and its own `canDeposit`, of a record with these dates and this status. -/
theorem verifyCredential_split {program : MultiAssetVaultProgram K} {wallet : K} {now : Int64}
    {raw : Record K CredentialField} {issuedAt expiresAt : Int64} {status : UInt8}
    (h : verifyCredential program (now.toInt * 1000) (some wallet) =
      .ok ((describeCredential (now.toInt * 1000) wallet raw).getD (credentialNotFound wallet)))
    (hissued : raw.num .issuedAt = some issuedAt.toInt)
    (hexpires : raw.num .expiresAt = some expiresAt.toInt)
    (hstatus : raw.num .status = some (status.toNat : Int)) :
    (∃ r, verifyCredential program (now.toInt * 1000) (some wallet) = .ok r ∧
        (r.status = .active ↔ r.canDeposit = true)) ↔
      ¬ (status = credentialStatusActive ∧ expiresAt = now ∧
        Js.Datable issuedAt.toInt ∧ Js.Datable now.toInt) := by
  have hbyte : (status.toNat : Int) = 1 ↔ status = credentialStatusActive := byte_eq_iff (y := 1)
  simp only [h, Except.ok.injEq, exists_eq_left',
    describeCredential_split now.toInt wallet raw hissued hexpires hstatus, hbyte, Int64.toInt_inj]
  refine not_congr (and_congr_right fun _ => and_congr_right ?_)
  rintro rfl
  rfl

/-- `verify` agrees with the gate on an active credential if and only if it can read and date it
as long as it is good, and cannot in the second it expires.  `verifyCredential` agrees with
itself but in that second, of the credential as it takes it from the attestation hash, and would
of the credential as it is. -/
theorem verify_agrees_iff (hc : s.vault.credentials (credentialKey c.wallet) = some c)
    (net : Network) (db : Database K) (now : Int64) :
    (((∃ r, verify net ⟨s.vaultSide, db⟩ (now.toInt * 1000) (some c.wallet) = .ok r ∧
          r.status = .active) ↔ credentialGate now c.wallet c = .ok ()) ↔
      (c.status = credentialStatusActive →
        (now < c.expiresAt → net.credential = true ∧ Js.Datable c.expiresAt.toInt) ∧
        (c.expiresAt = now → ¬ (net.credential = true ∧ Js.Datable now.toInt)))) ∧
    ((∃ r, verifyCredential (.ofChain s) (now.toInt * 1000) (some c.wallet) = .ok r ∧
        (r.status = .active ↔ r.canDeposit = true)) ↔
      ¬ (hashStatus c = credentialStatusActive ∧ Borsh.leInt64 (hashBytes c 8 8) = now ∧
        Js.Datable (Borsh.leInt64 (hashBytes c 0 8)).toInt ∧ Js.Datable now.toInt)) ∧
    ((∃ r, verifyCredential (.stored s) (now.toInt * 1000) (some c.wallet) = .ok r ∧
        (r.status = .active ↔ r.canDeposit = true)) ↔
      ¬ (c.status = credentialStatusActive ∧ c.expiresAt = now ∧
        Js.Datable c.issuedAt.toInt ∧ Js.Datable now.toInt)) :=
  ⟨verify_gate_iff hc net db now,
    verifyCredential_split (verifyCredential_ofChain hc _) rfl rfl rfl,
    verifyCredential_split (verifyCredential_whole hc _) rfl rfl rfl⟩

/-! ## The second a credential expires -/

namespace Cluster

open OragamiVault.Cluster (alice)

/-- Alice has a credential until 1000, attested by a hash that says the same. -/
def expiring : Chain FreeKey := Chain.final (Chain.genesis Chain.Cluster.ledger) (attested lucky)

set_option maxRecDepth 5000 in
theorem expiring_credential :
    ∃ c, expiring.vault.credentials (credentialKey c.wallet) = some c ∧ c.wallet = alice ∧
      c.attestationHash = lucky ∧ c.issuedAt = 0 ∧ c.expiresAt = 1000 ∧
      c.status = credentialStatusActive := by
  obtain ⟨c, hc, heq⟩ := Option.map_eq_some_iff.mp
    (show (expiring.vault.credentials (credentialKey alice)).map
        (fun c => (c.wallet, c.attestationHash, c.issuedAt, c.expiresAt, c.status)) =
      some (alice, lucky, 0, 1000, credentialStatusActive) from rfl)
  simp only [Prod.mk.injEq] at heq
  exact ⟨c, heq.1 ▸ hc, heq⟩

/-- The custody service takes the dates and the status from the hash. -/
theorem expiring_seen {c : ComplianceCredential FreeKey} (hhash : c.attestationHash = lucky) :
    Borsh.leInt64 (hashBytes c 0 8) = 0 ∧ Borsh.leInt64 (hashBytes c 8 8) = 1000 ∧
      hashStatus c = 1 := by
  rw [hashBytes, hashBytes, hashStatus, hhash]
  decide

end Cluster

open OragamiVault.Cluster (alice) in
/-- A second before, they agree. -/
theorem verify_agrees_unexpired :
    ∃ c, Cluster.expiring.vault.credentials (credentialKey alice) = some c ∧
      ((∃ r, verify Cluster.net ⟨Cluster.expiring.vaultSide, Cluster.db⟩ 999000 (some alice) =
        .ok r ∧ r.status = .active) ↔ credentialGate 999 alice c = .ok ()) ∧
      ∃ r, verifyCredential (.ofChain Cluster.expiring) 999000 (some alice) = .ok r ∧
        (r.status = .active ↔ r.canDeposit = true) := by
  obtain ⟨c, hc, hwallet, hhash, -, hexpires, -⟩ := Cluster.expiring_credential
  obtain ⟨hgate, hservice, -⟩ := verify_agrees_iff hc Cluster.net Cluster.db 999
  rw [hwallet] at hc hgate hservice
  refine ⟨c, hc, hgate.mpr fun _ => ⟨fun _ => ⟨rfl, ?_⟩, fun heq => ?_⟩, hservice.mpr ?_⟩
  · rw [hexpires]
    decide
  · rw [hexpires] at heq
    cases heq
  · rintro ⟨-, hseen, -⟩
    rw [(Cluster.expiring_seen hhash).2.1] at hseen
    exact absurd hseen (by decide)

open OragamiVault.Cluster (alice) in
/-- In the second it expires, both services call it active, while the gate is closed and
`verifyCredential` knows that it is. -/
theorem verify_disagrees :
    ∃ ts s c, Chain.Reaches Chain.Cluster.ledger ts s ∧
      s.vault.credentials (credentialKey alice) = some c ∧ c.wallet = alice ∧
      (∃ r, verify Cluster.net ⟨s.vaultSide, Cluster.db⟩ 1000000 (some alice) = .ok r ∧
        r.status = .active) ∧
      credentialGate 1000 alice c ≠ .ok () ∧
      ∃ r, verifyCredential (.ofChain s) 1000000 (some alice) = .ok r ∧
        r.status = .active ∧ r.canDeposit = false := by
  obtain ⟨c, hc, hwallet, hhash, -, hexpires, hactive⟩ := Cluster.expiring_credential
  rw [hwallet] at hc
  refine ⟨_, Cluster.expiring, c, Chain.Cluster.reaches_final (by decide), hc, hwallet, ?_, ?_, ?_⟩
  · refine (verify_active_iff ⟨Cluster.expiring.vaultSide, Cluster.db⟩ hc).mpr
      ⟨rfl, ?_, hactive, ?_⟩
    · rw [hexpires]
      decide
    · rw [hexpires]
      decide
  · intro hgate
    obtain ⟨-, hlt, -⟩ := credentialGate_eq_ok.mp hgate
    rw [hexpires] at hlt
    exact absurd hlt (by decide)
  · obtain ⟨hfirst, hsecond, hbyte⟩ := Cluster.expiring_seen hhash
    have hissued : (record (credentialSeen c).values).num .issuedAt = some (0 : Int64).toInt :=
      congrArg (fun i : Int64 => some i.toInt) hfirst
    have hseen : (record (credentialSeen c).values).num .expiresAt = some (1000 : Int64).toInt :=
      congrArg (fun i : Int64 => some i.toInt) hsecond
    have hstatus : (record (credentialSeen c).values).num .status =
        some ((1 : UInt8).toNat : Int) :=
      congrArg (fun b : UInt8 => some (b.toNat : Int)) hbyte
    obtain ⟨r, -, hr, -, -, -, hshown, hcan⟩ := describeCredential_dated 1000000 alice hissued
      hseen hstatus (by decide) (by decide)
    refine ⟨r, ?_, ?_, ?_⟩
    · rw [verifyCredential_ofChain hc, hr]
      rfl
    · rw [hshown]
      decide
    · rw [← Bool.not_eq_true, hcan]
      decide

end Backend
