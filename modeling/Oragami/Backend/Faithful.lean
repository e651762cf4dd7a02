/-
# `Oragami.Backend.Faithful` — when the custody backend reads what is stored

Its IDL lacks a field in the middle of either account, and the client has no way to
notice: the bytes of the next field decode as well as any.  Of a credential it takes
the dates and the status from the attestation hash; of a vault it takes
`travel_rule_required` for `paused`, and has no `travelRuleRequired` at all.

So both answers are right for some accounts: `verifyCredential_faithful` and
`formatVault_faithful` say for which.
-/
import Oragami.Backend.MultiAssetVaultService
import Oragami.Chain.Scenario

namespace Backend

open Idl

variable {K : Type}

/-! ## Credentials -/

/-- Two statuses are shown alike. -/
theorem statusShown_eq_iff {a b expiresAt now : Int} :
    statusShown a expiresAt now = statusShown b expiresAt now ↔
      (a = 3 ↔ b = 3) ∧ (expiresAt < now ∨ (a = 1 ↔ b = 1)) := by
  unfold statusShown
  grind

section Describe

variable [Addresses K] [Deployment K] (dateNow : Int) (wallet : K)
  {raw : Record K CredentialField} {issuedAt expiresAt status : Int}

/-- A credential whose dates are in range is described by its fields, -/
theorem describeCredential_dated (hissued : raw.num .issuedAt = some issuedAt)
    (hexpires : raw.num .expiresAt = some expiresAt) (hstatus : raw.num .status = some status)
    (hi : Js.Datable issuedAt) (he : Js.Datable expiresAt) :
    ∃ r details, describeCredential dateNow wallet raw = some r ∧ r.details = some details ∧
      details.issuedAt = ⟨issuedAt * 1000⟩ ∧ details.expiresAt = ⟨expiresAt * 1000⟩ ∧
      r.status = statusShown status expiresAt (dateNow / 1000) ∧
      (r.canDeposit = true ↔ status = 1 ∧ dateNow / 1000 < expiresAt) := by
  have hdate := Js.isoSeconds_number issuedAt
  have hdate' := Js.isoSeconds_number expiresAt
  rw [if_pos hi] at hdate
  rw [if_pos he] at hdate'
  simp only [describeCredential, hissued, hexpires, hstatus, Option.getD_some, hdate, hdate',
    Option.bind_eq_bind, Option.bind_some, Option.pure_def]
  rw [Js.number_of_datable he]
  exact ⟨_, _, rfl, rfl, rfl, rfl, rfl, decide_eq_true_iff⟩

/-- and any other not at all. -/
theorem describeCredential_undated (hissued : raw.num .issuedAt = some issuedAt)
    (hexpires : raw.num .expiresAt = some expiresAt)
    (h : ¬ (Js.Datable issuedAt ∧ Js.Datable expiresAt)) :
    describeCredential dateNow wallet raw = none := by
  have hdate := Js.isoSeconds_number issuedAt
  have hdate' := Js.isoSeconds_number expiresAt
  simp only [describeCredential, hissued, hexpires, Option.getD_some, Option.bind_eq_bind]
  by_cases hi : Js.Datable issuedAt
  · rw [if_pos hi] at hdate
    rw [if_neg fun he => h ⟨hi, he⟩] at hdate'
    rw [hdate, hdate']
    rfl
  · rw [if_neg hi] at hdate
    rw [hdate]
    rfl

end Describe

theorem statusShown_byte_iff {x y : UInt8} {expiresAt now : Int} :
    statusShown x.toNat expiresAt now = statusShown y.toNat expiresAt now ↔
      (x = 3 ↔ y = 3) ∧ (expiresAt < now ∨ (x = 1 ↔ y = 1)) := by
  have three : ∀ z : UInt8, (z.toNat : Int) = 3 ↔ z = 3 := fun z => byte_eq_iff (y := 3)
  have one : ∀ z : UInt8, (z.toNat : Int) = 1 ↔ z = 1 := fun z => byte_eq_iff (y := 1)
  rw [statusShown_eq_iff, three, three, one, one]

variable [Addresses K] [Deployment K] {s : Chain K}

theorem verifyCredential_ofChain {wallet : K} {c : OragamiVault.ComplianceCredential K}
    (hc : s.vault.credentials (OragamiVault.credentialKey wallet) = some c) (dateNow : Int) :
    verifyCredential (.ofChain s) dateNow (some wallet) =
      .ok ((describeCredential dateNow wallet (record (credentialSeen c).values)).getD
        (credentialNotFound wallet)) := by
  have hfetch : (MultiAssetVaultProgram.ofChain s).complianceCredential
      (deriveCredentialPda wallet) = some (record (credentialSeen c).values) := by
    show (s.vault.credentials (OragamiVault.credentialKey wallet)).bind _ = _
    rw [hc]
    exact decode_credential_multi c
  rw [verifyCredential, hfetch]
  rfl

/-- The answer for a stored credential says what is stored if and only if the attestation hash
begins with its dates, within the range of a `Date`, and goes on with its status. -/
theorem verifyCredential_faithful {wallet : K} {c : OragamiVault.ComplianceCredential K}
    (hc : s.vault.credentials (OragamiVault.credentialKey wallet) = some c) (dateNow : Int) :
    (∃ r details, verifyCredential (.ofChain s) dateNow (some wallet) = .ok r ∧
      r.details = some details ∧ details.issuedAt = ⟨c.issuedAt.toInt * 1000⟩ ∧
      details.expiresAt = ⟨c.expiresAt.toInt * 1000⟩ ∧
      r.status = statusShown c.status.toNat c.expiresAt.toInt (dateNow / 1000) ∧
      (r.canDeposit = true ↔ c.status = 1 ∧ dateNow / 1000 < c.expiresAt.toInt)) ↔
    Borsh.leInt64 (hashBytes c 0 8) = c.issuedAt ∧
      Borsh.leInt64 (hashBytes c 8 8) = c.expiresAt ∧
      Js.Datable c.issuedAt.toInt ∧ Js.Datable c.expiresAt.toInt ∧
      (hashStatus c = 3 ↔ c.status = 3) ∧
      (c.expiresAt.toInt < dateNow / 1000 ∨ (hashStatus c = 1 ↔ c.status = 1)) := by
  have hissued : (record (credentialSeen c).values).num .issuedAt =
      some (Borsh.leInt64 (hashBytes c 0 8)).toInt := rfl
  have hexpires : (record (credentialSeen c).values).num .expiresAt =
      some (Borsh.leInt64 (hashBytes c 8 8)).toInt := rfl
  have hstatus : (record (credentialSeen c).values).num .status =
      some ((hashStatus c).toNat : Int) := rfl
  rw [verifyCredential_ofChain hc]
  constructor
  · rintro ⟨r, details, hr, hdetails, hi, he, hshown, -⟩
    by_cases hdated : Js.Datable (Borsh.leInt64 (hashBytes c 0 8)).toInt ∧
        Js.Datable (Borsh.leInt64 (hashBytes c 8 8)).toInt
    · obtain ⟨r', details', hr', hdetails', hi', he', hshown', -⟩ :=
        describeCredential_dated dateNow wallet hissued hexpires hstatus hdated.1 hdated.2
      rw [hr', Option.getD_some] at hr
      cases hr
      cases hdetails.symm.trans hdetails'
      rw [hi', Js.IsoString.mk.injEq] at hi
      rw [he', Js.IsoString.mk.injEq] at he
      have hi : Borsh.leInt64 (hashBytes c 0 8) = c.issuedAt := Int64.toInt_inj.mp (by omega)
      have he : Borsh.leInt64 (hashBytes c 8 8) = c.expiresAt := Int64.toInt_inj.mp (by omega)
      rw [hi, he] at hdated
      rw [hshown', he, statusShown_byte_iff] at hshown
      exact ⟨hi, he, hdated.1, hdated.2, hshown⟩
    · rw [describeCredential_undated dateNow wallet hissued hexpires hdated] at hr
      cases hr
      cases hdetails
  · rintro ⟨hi, he, hdi, hde, hshows⟩
    rw [hi] at hissued
    rw [he] at hexpires
    obtain ⟨r, details, hr, hdetails, hri, hre, hshown, hcan⟩ :=
      describeCredential_dated dateNow wallet hissued hexpires hstatus hdi hde
    refine ⟨r, details, by rw [hr]; rfl, hdetails, hri, hre, ?_, ?_⟩
    · rw [hshown, statusShown_byte_iff]
      exact hshows
    · rw [hcan]
      refine and_congr_left fun hlt => (byte_eq_iff (y := 1)).trans (hshows.2.resolve_left ?_)
      omega

namespace Cluster

open Chain.Cluster (lift)
open OragamiVault.Cluster (admin alice)

/-- Alice is issued a credential for the first thousand seconds, attested by `hash`. -/
def attested (hash : Vector UInt8 32) : List (Chain.Action FreeKey) :=
  [lift OragamiVault.Cluster.opening,
    .vault 0 (.issueCredential
      { credential := OragamiVault.credentialKey alice, vaultState := OragamiVault.vaultStateKey,
        authority := admin }
      { wallet := alice, institutionName := .replicate 64 0, jurisdiction := .replicate 4 0,
        tier := 1, kycLevel := 1, amlCoverage := 1, attestationHash := hash, issuedAt := 0,
        expiresAt := 1000 })]

/-- A hash that begins with these dates and the active status. -/
def lucky : Vector UInt8 32 :=
  #v[0, 0, 0, 0, 0, 0, 0, 0, 0xE8, 0x03, 0, 0, 0, 0, 0, 0, 1, 0, 0, 0, 0, 0, 0, 0, 0, 0, 0, 0, 0,
    0, 0, 0]

end Cluster

set_option maxRecDepth 5000 in
/-- The credential so issued. -/
theorem attested_credential (hash : Vector UInt8 32) :
    ∃ c, (Chain.final (Chain.genesis Chain.Cluster.ledger)
        (Cluster.attested hash)).vault.credentials
          (OragamiVault.credentialKey OragamiVault.Cluster.alice) = some c ∧
      c.attestationHash = hash ∧ c.issuedAt = 0 ∧ c.expiresAt = 1000 ∧ c.status = 1 := by
  obtain ⟨c, hc, heq⟩ := Option.map_eq_some_iff.mp
    (show ((Chain.final (Chain.genesis Chain.Cluster.ledger)
      (Cluster.attested hash)).vault.credentials
        (OragamiVault.credentialKey OragamiVault.Cluster.alice)).map
          (fun c => (c.attestationHash, c.issuedAt, c.expiresAt, c.status)) =
            some (hash, 0, 1000, 1) from rfl)
  simp only [Prod.mk.injEq] at heq
  exact ⟨c, hc, heq⟩

/-- With that hash the answer is right. -/
theorem verifyCredential_faithful_lucky :
    ∃ r details, verifyCredential (.ofChain (Chain.final (Chain.genesis Chain.Cluster.ledger)
        (Cluster.attested Cluster.lucky))) 10000 (some OragamiVault.Cluster.alice) = .ok r ∧
      r.details = some details ∧ details.expiresAt = ⟨1000000⟩ ∧ r.status = .active := by
  obtain ⟨c, hc, hhash, hissued, hexpires, hstatus⟩ := attested_credential Cluster.lucky
  obtain ⟨r, details, hr, hdetails, -, he, hshown, -⟩ :=
    (verifyCredential_faithful hc 10000).mpr (by
      rw [hashBytes, hashBytes, hashStatus, hissued, hexpires, hstatus, hhash]
      decide)
  rw [hexpires] at he hshown
  rw [hstatus] at hshown
  exact ⟨r, details, hr, hdetails, he, hshown⟩

/-- With a hash of zeros an active credential is shown as expired in 1970, and does not admit to
a deposit the program accepts. -/
theorem verifyCredential_unfaithful :
    ∃ ts s c, Chain.Reaches Chain.Cluster.ledger ts s ∧
      s.vault.credentials (OragamiVault.credentialKey OragamiVault.Cluster.alice) = some c ∧
      c.status = 1 ∧ 10 < c.expiresAt.toInt ∧
      ∃ r, verifyCredential (.ofChain s) 10000 (some OragamiVault.Cluster.alice) = .ok r ∧
        r.status = .expired ∧ r.canDeposit = false := by
  obtain ⟨c, hc, hhash, -, hexpires, hstatus⟩ := attested_credential (.replicate 32 0)
  have zeros : ∀ hash : Vector UInt8 32, hash = .replicate 32 0 →
      Borsh.leInt64 (hash.toList.take 8) = 0 ∧
        Borsh.leInt64 ((hash.toList.drop 8).take 8) = 0 ∧ hash[16] = 0 := by
    rintro hash rfl
    decide
  obtain ⟨hfirst, hsecond, hbyte⟩ := zeros c.attestationHash hhash
  have hissued : (record (credentialSeen c).values).num .issuedAt = some (0 : Int64).toInt :=
    congrArg (fun i : Int64 => some i.toInt) hfirst
  have hexpires' : (record (credentialSeen c).values).num .expiresAt = some (0 : Int64).toInt :=
    congrArg (fun i : Int64 => some i.toInt) hsecond
  have hstatus' : (record (credentialSeen c).values).num .status = some ((0 : UInt8).toNat : Int) :=
    congrArg (fun b : UInt8 => some (b.toNat : Int)) hbyte
  obtain ⟨r, -, hr, -, -, -, hshown, hcan⟩ := describeCredential_dated 10000
    OragamiVault.Cluster.alice hissued hexpires' hstatus' (by decide) (by decide)
  refine ⟨_, _, c, Chain.Cluster.reaches_final (by decide), hc, hstatus, ?_, r, ?_, hshown, ?_⟩
  · rw [hexpires]
    decide
  · rw [verifyCredential_ofChain hc, hr]
    rfl
  · rw [← Bool.not_eq_true, hcan]
    decide

/-! ## Vaults -/

/-- An entry says of a vault what is stored of it.  But what it calls paused is whether records are
required, and whether they are it never says. -/
structure AssetVaultInfo.Shows [BpsText] (info : AssetVaultInfo K)
    (v : MultiAssetVault.AssetVault K) : Prop where
  assetMint : info.assetMint = some v.assetMint
  shareMint : info.shareMint = some v.shareMint
  vaultTokenAccount : info.vaultTokenAccount = some v.vaultTokenAccount
  ticker : info.ticker = tickerFromBytes v.ticker.toList
  navPriceBps : info.navPriceBps = v.navPriceBps.toNat
  navDisplay : info.navDisplay = navToDisplay v.navPriceBps.toNat
  totalDeposits : info.totalDeposits = v.totalDeposits.toNat
  totalSupply : info.totalSupply = v.totalSupply.toNat
  minDeposit : info.minDeposit = v.minDeposit.toNat
  maxDeposit : info.maxDeposit = v.maxDeposit.toNat
  paused : info.paused = v.travelRuleRequired
  travelRuleRequired : info.travelRuleRequired = false

omit [Addresses K] [Deployment K] in
theorem formatVault_shows [BpsText] (v : MultiAssetVault.AssetVault K) :
    (formatVault (record (assetVaultSeen v).values)).Shows v :=
  ⟨rfl, rfl, rfl, rfl, rfl, rfl, rfl, rfl, rfl, rfl, rfl, rfl⟩

theorem getVaultByMint_ofChain [BpsText] {assetMint : K} {v : MultiAssetVault.AssetVault K}
    (hv : s.multi.vaults (MultiAssetVault.assetVaultKey assetMint) = some v) :
    getVaultByMint (.ofChain s) (some assetMint) =
      .ok (formatVault (record (assetVaultSeen v).values)) := by
  have hfetch : (MultiAssetVaultProgram.ofChain s).assetVault (deriveVaultPda assetMint) =
      some (record (assetVaultSeen v).values) := by
    show (s.multi.vaults (MultiAssetVault.assetVaultKey assetMint)).bind _ = _
    rw [hv]
    exact decode_assetVault v
  rw [getVaultByMint, hfetch]

/-- What is said of a stored vault, alone and in a preflight, is what is stored if and only if
the vault is neither paused nor asks for Travel Rule records. -/
theorem formatVault_faithful [BpsText] {assetMint : K} {v : MultiAssetVault.AssetVault K}
    (hv : s.multi.vaults (MultiAssetVault.assetVaultKey assetMint) = some v) :
    ((∃ info, getVaultByMint (.ofChain s) (some assetMint) = .ok info ∧
        info.navPriceBps = v.navPriceBps.toNat ∧ info.totalDeposits = v.totalDeposits.toNat ∧
        info.totalSupply = v.totalSupply.toNat ∧ info.minDeposit = v.minDeposit.toNat ∧
        info.maxDeposit = v.maxDeposit.toNat ∧ info.paused = v.paused ∧
        info.travelRuleRequired = v.travelRuleRequired) ∧
      ∀ dateNow wallet (amount : UInt64) r,
        preflightDeposit (.ofChain s) dateNow (some wallet) (some assetMint)
            (some (amount.toNat : Int)) = .ok r →
          r.vault.paused = v.paused ∧
          (r.requiresTravelRule = true ↔
            v.travelRuleRequired = true ∧ MultiAssetVault.travelRuleThreshold ≤ amount)) ↔
    v.paused = false ∧ v.travelRuleRequired = false := by
  rw [getVaultByMint_ofChain hv]
  constructor
  · rintro ⟨⟨info, hinfo, -, -, -, -, -, hpaused, hrequired⟩, -⟩
    cases hinfo
    have hrequired : v.travelRuleRequired = false := hrequired.symm
    exact ⟨hpaused.symm.trans hrequired, hrequired⟩
  · rintro ⟨hpaused, hrequired⟩
    refine ⟨⟨_, rfl, rfl, rfl, rfl, rfl, rfl, hrequired.trans hpaused.symm, hrequired.symm⟩, ?_⟩
    intro dateNow wallet amount r hr
    obtain ⟨cred, vault, -, hvault, -, rfl⟩ := preflightDeposit_eq_ok.mp hr
    rw [getVaultByMint_ofChain hv] at hvault
    cases hvault
    have hnever : (formatVault (record (assetVaultSeen v).values)).travelRuleRequired = false := rfl
    refine ⟨hrequired.trans hpaused.symm, ?_⟩
    rw [hrequired, preflightAnswer, hnever]
    simp

/-- Four decimals, as a double prints them while it resolves them. -/
instance : BpsText where
  toFixed bps :=
    let decimals := toString (bps % 10000)
    toString (bps / 10000) ++ "." ++ String.ofList (.replicate (4 - decimals.length) '0') ++ decimals

/-- A vault that asks for no records is read as it is. -/
theorem formatVault_faithful_over :
    ∃ info, getVaultByMint
        (.ofChain (Chain.final (Chain.genesis Chain.Cluster.ledger)
          (Chain.Cluster.setUp ++ [Chain.Cluster.registerOver])))
        (some (MultiAssetVault.shareMintKey OragamiVault.Cluster.usdc)) = .ok info ∧
      info.paused = false ∧ info.travelRuleRequired = false := by
  obtain ⟨v, hv, heq⟩ := Option.map_eq_some_iff.mp
    (show ((Chain.final (Chain.genesis Chain.Cluster.ledger)
      (Chain.Cluster.setUp ++ [Chain.Cluster.registerOver])).multi.vaults
        (MultiAssetVault.assetVaultKey
          (MultiAssetVault.shareMintKey OragamiVault.Cluster.usdc))).map
            (fun v => (v.paused, v.travelRuleRequired)) = some (false, false) from rfl)
  obtain ⟨hpaused, hrequired⟩ := Prod.mk.inj heq
  obtain ⟨info, hinfo, -, -, -, -, -, hp, hr⟩ :=
    ((formatVault_faithful hv).mpr ⟨hpaused, hrequired⟩).1
  exact ⟨info, hinfo, hp.trans hpaused, hr.trans hrequired⟩

/-- A vault just registered that asks for records is shown as paused and asking for none. -/
theorem formatVault_unfaithful :
    ∃ ts s v, Chain.Reaches Chain.Cluster.ledger ts s ∧
      s.multi.vaults (MultiAssetVault.assetVaultKey OragamiVault.Cluster.usdc) = some v ∧
      v.paused = false ∧ v.travelRuleRequired = true ∧
      ∃ info, getVaultByMint (.ofChain s) (some OragamiVault.Cluster.usdc) = .ok info ∧
        info.paused = true ∧ info.travelRuleRequired = false := by
  obtain ⟨v, hv, heq⟩ := Option.map_eq_some_iff.mp
    (show ((Chain.final (Chain.genesis Chain.Cluster.ledger) Chain.Cluster.setUp).multi.vaults
      (MultiAssetVault.assetVaultKey OragamiVault.Cluster.usdc)).map
        (fun v => (v.paused, v.travelRuleRequired)) = some (false, true) from rfl)
  obtain ⟨hpaused, hrequired⟩ := Prod.mk.inj heq
  exact ⟨_, _, v, Chain.Cluster.reaches_final (by decide), hv, hpaused, hrequired, _,
    getVaultByMint_ofChain hv, hrequired, rfl⟩

end Backend
