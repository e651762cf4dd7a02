/-
# `Oragami.Backend.CustodyPreflight` — the preflight of the custody vault and its handler

`preflightDeposit` repeats the checks of the multi-asset-vault handler in unbounded
integers, on a credential it only describes if it can write its dates.  Given the
stored values it agrees with the handler but for three things it leaves out (the
product that may overflow, shares that round down to zero, the wallet the credential
names) and one it adds, the range of a `Date`.
-/
import Oragami.Backend.Faithful
import Oragami.Chain.Settlement
import Oragami.MultiAssetVault.Guards

namespace Backend

open Idl

variable {K : Type} [Addresses K] [Deployment K] {s : Chain K}

/-! ## Answers from stored values -/

/-- The credential of a wallet is one the service admits deposits with. -/
def Admits (c : OragamiVault.ComplianceCredential K) (now : Int64) : Prop :=
  c.status = 1 ∧ now < c.expiresAt ∧ Js.Datable c.issuedAt.toInt ∧ Js.Datable c.expiresAt.toInt

theorem verifyCredential_stored (now : Int64) (wallet : K) :
    ∃ cred, verifyCredential (.stored s) (now.toInt * 1000) (some wallet) = .ok cred ∧
      (cred.canDeposit = true ↔
        ∃ c, s.vault.credentials (OragamiVault.credentialKey wallet) = some c ∧ Admits c now) := by
  have hseconds : now.toInt * 1000 / 1000 = now.toInt := Int.mul_ediv_cancel _ (by decide)
  have hfetch : (MultiAssetVaultProgram.stored s).complianceCredential (deriveCredentialPda wallet) =
      (s.vault.credentials (OragamiVault.credentialKey wallet)).map
        fun c => record (credentialStored c).values := rfl
  rw [verifyCredential, hfetch]
  rcases hc : s.vault.credentials (OragamiVault.credentialKey wallet) with _ | c
  · refine ⟨_, rfl, ?_, ?_⟩
    · intro hcan
      cases hcan
    · rintro ⟨_, hnone, -⟩
      cases hnone
  · have hissued : (record (credentialStored c).values).num .issuedAt = some c.issuedAt.toInt := rfl
    have hexpires : (record (credentialStored c).values).num .expiresAt =
        some c.expiresAt.toInt := rfl
    have hstatus : (record (credentialStored c).values).num .status =
        some (c.status.toNat : Int) := rfl
    rw [Option.map_some, Option.bind_some]
    by_cases hdated : Js.Datable c.issuedAt.toInt ∧ Js.Datable c.expiresAt.toInt
    · obtain ⟨r, -, hr, -, -, -, -, hcan⟩ := describeCredential_dated (now.toInt * 1000) wallet
        hissued hexpires hstatus hdated.1 hdated.2
      rw [hr]
      refine ⟨r, rfl, ?_⟩
      rw [hcan, hseconds, ← Int64.lt_iff_toInt_lt]
      constructor
      · rintro ⟨hone, hlt⟩
        exact ⟨c, rfl, (byte_eq_iff (y := 1)).mp hone, hlt, hdated⟩
      · rintro ⟨c', hc', hone, hlt, -⟩
        cases hc'
        exact ⟨(byte_eq_iff (y := 1)).mpr hone, hlt⟩
    · rw [describeCredential_undated _ _ hissued hexpires hdated]
      refine ⟨_, rfl, ?_, ?_⟩
      · intro hcan
        cases hcan
      · rintro ⟨c', hc', -, -, hdated'⟩
        cases hc'
        exact absurd hdated' hdated

theorem getVaultByMint_stored [BpsText] {assetMint : K} {v : MultiAssetVault.AssetVault K}
    (hv : s.multi.vaults (MultiAssetVault.assetVaultKey assetMint) = some v) :
    getVaultByMint (.stored s) (some assetMint) =
      .ok (formatVault (record (assetVaultStored v).values)) := by
  have hfetch : (MultiAssetVaultProgram.stored s).assetVault (deriveVaultPda assetMint) =
      some (record (assetVaultStored v).values) := by
    show (s.multi.vaults (MultiAssetVault.assetVaultKey assetMint)).map _ = _
    rw [hv]
    rfl
  rw [getVaultByMint, hfetch]

/-! ## Agreement -/

variable [DecidableEq K] [TokenProgram K]

/-- The checks both sides make. -/
structure Common (s : Chain K) (now : Int64) (wallet : K) (v : MultiAssetVault.AssetVault K)
    (amount : UInt64) (c : OragamiVault.ComplianceCredential K) : Prop where
  credential : s.vault.credentials (OragamiVault.credentialKey wallet) = some c
  status : c.status = 1
  unexpired : now < c.expiresAt
  unpaused : v.paused = false
  minDeposit : v.minDeposit ≤ amount
  maxDeposit : amount ≤ v.maxDeposit

/-- What the handler asks beyond them. -/
structure Further (wallet : K) (v : MultiAssetVault.AssetVault K) (amount : UInt64)
    (c : OragamiVault.ComplianceCredential K) : Prop where
  wallet : c.wallet = wallet
  fits : amount.toNat * 10000 < 2 ^ 64
  nonzero : v.navPriceBps.toNat ≤ amount.toNat * 10000

variable {now : Int64} {wallet assetMint : K} {v : MultiAssetVault.AssetVault K} {amount : UInt64}

omit [TokenProgram K] in
theorem guards_iff (hnav : v.navPriceBps.toNat ≠ 0) :
    (∃ shares, MultiAssetVault.depositGuards now s.view (MultiAssetVault.gateCredentialKey wallet)
        wallet amount v = .ok shares) ↔
      ∃ c, Common s now wallet v amount c ∧ Further wallet v amount c := by
  simp only [MultiAssetVault.depositGuards_eq_ok]
  constructor
  · rintro ⟨shares, hpaused, hmin, hmax, ⟨cred, hcred, hwallet⟩, hshares, hpos⟩
    obtain ⟨c, hc, rfl, hstatus, hexp⟩ := Chain.credentialed_stored hcred
    obtain ⟨hfits, -, hq⟩ := MultiAssetVault.sharesFor_eq_ok.mp hshares
    have hpos : 0 < shares.toNat := hpos
    refine ⟨c, ⟨hc, hstatus, hexp, hpaused, hmin, hmax⟩, hwallet, hfits, ?_⟩
    rw [hq] at hpos
    exact (Nat.div_pos_iff.mp hpos).2
  · rintro ⟨c, h, hwallet, hfits, hle⟩
    obtain ⟨shares, hshares⟩ : ∃ shares, MultiAssetVault.sharesFor amount v.navPriceBps = .ok shares :=
      Anchor.exists_mulDiv hfits hnav
    obtain ⟨-, -, hq⟩ := MultiAssetVault.sharesFor_eq_ok.mp hshares
    refine ⟨shares, h.unpaused, h.minDeposit, h.maxDeposit,
      ⟨_, Chain.credentialed_of_stored h.credential h.status h.unexpired, hwallet⟩, hshares, ?_⟩
    show 0 < shares.toNat
    rw [hq]
    exact Nat.div_pos hle (Nat.pos_of_ne_zero hnav)

omit [DecidableEq K] [TokenProgram K] in
theorem answer_iff [BpsText] (amount : UInt64) {cred : CredentialCheck K} {shares : Int}
    (hcred : cred.canDeposit = true ↔
      ∃ c, s.vault.credentials (OragamiVault.credentialKey wallet) = some c ∧ Admits c now) :
    (preflightAnswer cred (formatVault (record (assetVaultStored v).values)) amount.toNat
        shares).canDeposit = true ↔
      ∃ c, Common s now wallet v amount c ∧
        Js.Datable c.issuedAt.toInt ∧ Js.Datable c.expiresAt.toInt := by
  have hmin : ((v.minDeposit.toNat : Int) ≤ amount.toNat) ↔ v.minDeposit ≤ amount := Int.ofNat_le
  have hmax : ((amount.toNat : Int) ≤ v.maxDeposit.toNat) ↔ amount ≤ v.maxDeposit := Int.ofNat_le
  refine decide_eq_true_iff.trans ?_
  show (cred.canDeposit = true ∧ v.paused = false ∧ (v.minDeposit.toNat : Int) ≤ amount.toNat ∧
    (amount.toNat : Int) ≤ v.maxDeposit.toNat) ↔ _
  rw [hcred, hmin, hmax]
  constructor
  · rintro ⟨⟨c, hc, hstatus, hexp, hdated⟩, hpaused, hlo, hhi⟩
    exact ⟨c, ⟨hc, hstatus, hexp, hpaused, hlo, hhi⟩, hdated⟩
  · rintro ⟨c, h, hdated⟩
    exact ⟨⟨c, h.credential, h.status, h.unexpired, hdated⟩, h.unpaused, h.minDeposit, h.maxDeposit⟩

omit [DecidableEq K] [TokenProgram K] in
/-- What the preflight answers of a vault, given what it says of the credential. -/
theorem preflightDeposit_stored [BpsText] {cred : CredentialCheck K} {r : PreflightResult}
    (hv : s.multi.vaults (MultiAssetVault.assetVaultKey assetMint) = some v)
    (hcred : verifyCredential (.stored s) (now.toInt * 1000) (some wallet) = .ok cred) :
    preflightDeposit (.stored s) (now.toInt * 1000) (some wallet) (some assetMint)
        (some (amount.toNat : Int)) = .ok r ↔
      v.navPriceBps ≠ 0 ∧
        r = preflightAnswer cred (formatVault (record (assetVaultStored v).values)) amount.toNat
          ((amount.toNat * 10000 : Int).tdiv v.navPriceBps.toNat) := by
  have hinfo := getVaultByMint_stored hv
  rw [preflightDeposit_eq_ok]
  constructor
  · rintro ⟨cred', vault, hcred', hvault, hnav, rfl⟩
    cases hcred.symm.trans hcred'
    cases hinfo.symm.trans hvault
    refine ⟨fun hzero => hnav ?_, rfl⟩
    show (v.navPriceBps.toNat : Int) = 0
    rw [hzero]
    rfl
  · rintro ⟨hnav, rfl⟩
    refine ⟨cred, _, hcred, hinfo, ?_, rfl⟩
    show (v.navPriceBps.toNat : Int) ≠ 0
    intro hzero
    exact hnav (UInt64.toNat_inj.mp (Int.ofNat_inj.mp hzero))

/-- The estimate is what a deposit buys. -/
theorem estimatedShares_eq {a : MultiAssetVault.Deposit K} {m : MultiAssetVault.State K}
    {ev : Option (MultiAssetVault.Event K)}
    (hv : s.multi.vaults (MultiAssetVault.assetVaultKey assetMint) = some v)
    (hdepositor : a.depositor = wallet)
    (hvault : a.assetVault = MultiAssetVault.assetVaultKey assetMint)
    (h : MultiAssetVault.deposit now s.view a amount s.multiSide = .ok (m, ev)) :
    ∃ shares : UInt64, ev = some (.depositMade wallet v.assetMint amount shares v.navPriceBps now) ∧
      (amount.toNat * 10000 : Int).tdiv v.navPriceBps.toNat = shares.toNat := by
  obtain ⟨v', tr, rules, shares, L, L', td, ts, ha, -, hguards, -, -, -, -, -, hout⟩ :=
    MultiAssetVault.deposit_eq_ok.mp h
  have hload := (MultiAssetVault.loadVault_eq_ok.mp ha.vault).1
  rw [hvault] at hload
  cases hv.symm.trans hload
  obtain ⟨-, hev⟩ := Prod.mk.inj hout
  obtain ⟨-, -, -, -, hshares, -⟩ := MultiAssetVault.depositGuards_eq_ok.mp hguards
  obtain ⟨-, -, hq⟩ := MultiAssetVault.sharesFor_eq_ok.mp hshares
  refine ⟨shares, by rw [hev, hdepositor], ?_⟩
  rw [hq]
  rfl

/-- On stored values the preflight answers as the handler decides, for every amount and time, if
and only if there is a NAV to divide by and, where the common checks pass, the dates of the
credential are within a `Date`'s range exactly when it names the wallet, the product does not
overflow and at least one share is minted. -/
theorem preflightDeposit_agrees [BpsText] (now : Int64) (wallet : K) (amount : UInt64)
    (hv : s.multi.vaults (MultiAssetVault.assetVaultKey assetMint) = some v) :
    (∃ r, preflightDeposit (.stored s) (now.toInt * 1000) (some wallet) (some assetMint)
        (some (amount.toNat : Int)) = .ok r ∧
      (r.canDeposit = true ↔ ∃ shares, MultiAssetVault.depositGuards now s.view
        (MultiAssetVault.gateCredentialKey wallet) wallet amount v = .ok shares) ∧
      (r.requiresTravelRule = true ↔ MultiAssetVault.travelRuleGate v.travelRuleRequired amount wallet
        none s.multi.travelRules = .error (.code .travelRuleRequired)) ∧
      ∀ a m ev, a.depositor = wallet → a.assetVault = MultiAssetVault.assetVaultKey assetMint →
        MultiAssetVault.deposit now s.view a amount s.multiSide = .ok (m, ev) →
        ∃ shares : UInt64, ev = some (.depositMade wallet v.assetMint amount shares v.navPriceBps now) ∧
          r.estimatedShares = shares.toNat) ↔
    v.navPriceBps ≠ 0 ∧ ∀ c, Common s now wallet v amount c →
      (Js.Datable c.issuedAt.toInt ∧ Js.Datable c.expiresAt.toInt ↔ Further wallet v amount c) := by
  obtain ⟨cred, hcred, hcan⟩ := verifyCredential_stored (s := s) now wallet
  have positive : v.navPriceBps ≠ 0 → v.navPriceBps.toNat ≠ 0 :=
    fun hnav hzero => hnav (UInt64.toNat_inj.mp hzero)
  constructor
  · rintro ⟨r, hr, hagree, -, -⟩
    obtain ⟨hnav, rfl⟩ := (preflightDeposit_stored hv hcred).mp hr
    rw [answer_iff amount hcan, guards_iff (positive hnav)] at hagree
    refine ⟨hnav, fun c hc => ⟨fun hdated => ?_, fun hfurther => ?_⟩⟩
    · obtain ⟨c', hc', hfurther⟩ := hagree.mp ⟨c, hc, hdated⟩
      cases hc.credential.symm.trans hc'.credential
      exact hfurther
    · obtain ⟨c', hc', hdated⟩ := hagree.mpr ⟨c, hc, hfurther⟩
      cases hc.credential.symm.trans hc'.credential
      exact hdated
  · rintro ⟨hnav, hagree⟩
    refine ⟨_, (preflightDeposit_stored hv hcred).mpr ⟨hnav, rfl⟩, ?_, ?_, ?_⟩
    · rw [answer_iff amount hcan, guards_iff (positive hnav)]
      exact exists_congr fun c => and_congr_right (hagree c)
    · rw [MultiAssetVault.travelRuleGate_none]
      exact decide_eq_true_iff.trans (and_congr_right fun _ => Int.ofNat_le)
    · intro a m ev hdepositor hvault hok
      exact estimatedShares_eq hv hdepositor hvault hok

namespace Cluster

open OragamiVault.Cluster (usdc admin alice)

/-- The vault of the cluster, after a rise of its NAV. -/
def repriced : List (Chain.Action FreeKey) :=
  Chain.Cluster.setUp ++
    [.multi 0 (.setNav ⟨MultiAssetVault.factoryKey, MultiAssetVault.assetVaultKey usdc, admin⟩ 15000)]

abbrev priced : Chain FreeKey := Chain.final (Chain.genesis Chain.Cluster.ledger) repriced

set_option maxRecDepth 5000 in
theorem priced_vault :
    ∃ v, priced.multi.vaults (MultiAssetVault.assetVaultKey usdc) = some v ∧
      v.navPriceBps = 15000 ∧ v.minDeposit = 1 ∧ v.maxDeposit = 1000000000000 ∧
      v.paused = false := by
  obtain ⟨v, hv, heq⟩ := Option.map_eq_some_iff.mp
    (show (priced.multi.vaults (MultiAssetVault.assetVaultKey usdc)).map
      (fun v => (v.navPriceBps, v.minDeposit, v.maxDeposit, v.paused)) =
        some (15000, 1, 1000000000000, false) from rfl)
  simp only [Prod.mk.injEq] at heq
  exact ⟨v, hv, heq⟩

set_option maxRecDepth 5000 in
theorem priced_credential :
    ∃ c, priced.vault.credentials (OragamiVault.credentialKey alice) = some c ∧ c.wallet = alice ∧
      c.issuedAt = 0 ∧ c.expiresAt = 1000 ∧ c.status = 1 := by
  obtain ⟨c, hc, heq⟩ := Option.map_eq_some_iff.mp
    (show (priced.vault.credentials (OragamiVault.credentialKey alice)).map
      (fun c => (c.wallet, c.issuedAt, c.expiresAt, c.status)) = some (alice, 0, 1000, 1) from rfl)
  simp only [Prod.mk.injEq] at heq
  exact ⟨c, hc, heq⟩

end Cluster

/-- For a hundred units preflight and handler agree. -/
theorem preflightDeposit_agrees_hundred :
    ∃ r v, preflightDeposit (.stored Cluster.priced) 10000 (some OragamiVault.Cluster.alice)
        (some OragamiVault.Cluster.usdc) (some 100) = .ok r ∧
      Cluster.priced.multi.vaults (MultiAssetVault.assetVaultKey OragamiVault.Cluster.usdc) =
        some v ∧
      (r.canDeposit = true ↔ ∃ shares, MultiAssetVault.depositGuards 10 Cluster.priced.view
        (MultiAssetVault.gateCredentialKey OragamiVault.Cluster.alice) OragamiVault.Cluster.alice
        100 v = .ok shares) := by
  obtain ⟨v, hv, hnav, -⟩ := Cluster.priced_vault
  obtain ⟨c, hc, hwallet, hissued, hexpires, -⟩ := Cluster.priced_credential
  obtain ⟨r, hr, hcan, -⟩ := (preflightDeposit_agrees 10 OragamiVault.Cluster.alice 100 hv).mpr (by
      refine ⟨by rw [hnav]; decide, fun c' hcommon => ?_⟩
      cases hc.symm.trans hcommon.credential
      rw [hissued, hexpires]
      refine ⟨fun _ => ⟨hwallet, by decide, by rw [hnav]; decide⟩, fun _ => by decide⟩)
  exact ⟨r, v, hr, hv, hcan⟩

/-- One unit buys no share: the preflight admits it, the handler does not. -/
theorem preflightDeposit_disagrees :
    ∃ ts s v, Chain.Reaches Chain.Cluster.ledger ts s ∧
      s.multi.vaults (MultiAssetVault.assetVaultKey OragamiVault.Cluster.usdc) = some v ∧
      (∃ r, preflightDeposit (.stored s) 10000 (some OragamiVault.Cluster.alice)
        (some OragamiVault.Cluster.usdc) (some 1) = .ok r ∧ r.canDeposit = true) ∧
      ¬ ∃ shares, MultiAssetVault.depositGuards 10 s.view
        (MultiAssetVault.gateCredentialKey OragamiVault.Cluster.alice) OragamiVault.Cluster.alice
        1 v = .ok shares := by
  obtain ⟨v, hv, hnav, hmin, hmax, hpaused⟩ := Cluster.priced_vault
  obtain ⟨c, hc, -, hissued, hexpires, hstatus⟩ := Cluster.priced_credential
  obtain ⟨cred, hcred, hcan⟩ :=
    verifyCredential_stored (s := Cluster.priced) 10 OragamiVault.Cluster.alice
  have hpositive : v.navPriceBps.toNat ≠ 0 := by
    rw [hnav]
    decide
  refine ⟨_, Cluster.priced, v, Chain.Cluster.reaches_final (by decide), hv, ⟨_,
    preflightDeposit_eq_ok.mpr ⟨cred, _, hcred, getVaultByMint_stored hv, ?_, rfl⟩, ?_⟩, ?_⟩
  · show (v.navPriceBps.toNat : Int) ≠ 0
    omega
  · refine (answer_iff 1 hcan).mpr ⟨c, ⟨hc, hstatus, ?_, hpaused, ?_, ?_⟩, ?_⟩
    · rw [hexpires]
      decide
    · rw [hmin]
      decide
    · rw [hmax]
      decide
    · rw [hissued, hexpires]
      decide
  · rw [guards_iff hpositive]
    rintro ⟨c', -, hfurther⟩
    have hle := hfurther.nonzero
    rw [hnav] at hle
    exact absurd hle (by decide)

end Backend
