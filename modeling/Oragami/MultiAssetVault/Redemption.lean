/-
# `Oragami.MultiAssetVault.Redemption` — shares can be redeemed, paused or not

`redeem` is the one instruction of a vault that does not look at `paused`, and the
one that asks its signer for no credential.  In a run that never raised the NAV of a
vault its custody covers its shares, so nothing on the vault's side is left to
refuse a redemption but the 64 bits of `shares * nav`.  What remains is the holder's:
shares the token program will burn for them, an account to be paid on, and no account
passed twice.

Every vault loads, since the bump it records is the one its address was found with
(`Loadable`).
-/
import Oragami.MultiAssetVault.Authority
import Oragami.MultiAssetVault.Solvency

namespace MultiAssetVault

open Anchor Addresses Lts

variable {K : Type} [DecidableEq K] [Addresses K] [Deployment K]

/-! ## Loading -/

/-- Every vault passes the constraints of the contexts that name it. -/
def Loadable (s : State K) : Prop := ∀ k v, s.vaults k = some v → s.loadVault k = .ok v

theorem loadable_genesis (ledger : Ledger K) : Loadable (State.genesis ledger) := by
  intro k v hv
  cases hv

variable [TokenProgram K]

theorem step_loadable {s s' : State K} {act : Action K} (hg : Guarded s) (hl : Loadable s)
    (h : Step s act s') : Loadable s' := by
  intro k v' hv'
  cases h with
  | program hsig hexec =>
      have heff := exec_effect hexec
      rcases effect_cases hg hsig heff hv' with ⟨a, p, f, hreg, rfl, rfl⟩ | ⟨v, hv, -⟩
      · exact loadVault_eq_ok.mpr ⟨hv', hreg.assetVault⟩
      · obtain ⟨w, hw, hterms⟩ := effect_terms heff k v hv
        cases hv'.symm.trans hw
        obtain ⟨-, hkey⟩ := loadVault_eq_ok.mp (hl k v hv)
        have hasset : v'.assetMint = v.assetMint := congrArg Terms.assetMint hterms
        have hbump : v'.bump = v.bump := congrArg Terms.bump hterms
        exact loadVault_eq_ok.mpr ⟨hv', by rw [hasset, hbump]; exact hkey⟩
  | token _ _ =>
      obtain ⟨-, hkey⟩ := loadVault_eq_ok.mp (hl k v' hv')
      exact loadVault_eq_ok.mpr ⟨hv', hkey⟩

theorem Reaches.loadable {ledger : Ledger K} {ts : List (Transition (State K) (Action K))}
    {s : State K} (h : Reaches ledger ts s) : Loadable s := by
  have hboth : Guarded s ∧ Loadable s := by
    refine Run.invariant (I := fun s => Guarded s ∧ Loadable s)
      ⟨guarded_genesis ledger, loadable_genesis ledger⟩ ?_ h
    rintro s act s' ⟨hg, hl⟩ hstep
    exact ⟨step_guarded hg hstep, step_loadable hg hl hstep⟩
  exact hboth.2

/-! ## The instruction -/

/-- The accounts passed are those of the vault at `k`. -/
structure Redeem.Names (a : Redeem K) (k : K) (v : AssetVault K) : Prop where
  assetVault : a.assetVault = k
  shareMint : a.shareMint = v.shareMint
  vaultTokenAccount : a.vaultTokenAccount = v.vaultTokenAccount
  tokenProgram : a.tokenProgram = TokenProgram.id

section Redeem

variable {s : State K} {k : K} {v : AssetVault K} {a : Redeem K} {x : UInt64} {now : Int64}

/-- A redemption goes through exactly if no account is passed twice, its amounts fit and the token
program makes both calls. -/
theorem redeem_isOk_iff (hload : s.loadVault k = .ok v) (hn : a.Names k v) :
    (∃ out, redeem now a x s = .ok out) ↔
      a.mutable.Nodup ∧ ∃ paid : UInt64, 0 < x ∧ payoutFor x v.navPriceBps = .ok paid ∧
        paid.toNat ≤ s.ledger.amount v.vaultTokenAccount ∧ x.toNat ≤ v.totalSupply.toNat ∧
        ∃ L L', TokenProgram.burn s.ledger a.redeemerShareAccount v.shareMint a.redeemer x = some L ∧
          TokenProgram.transfer L v.vaultTokenAccount a.redeemerAssetAccount k paid = some L' := by
  have hk := hn.assetVault
  have hm := hn.shareMint
  have ht := hn.vaultTokenAccount
  subst hk
  simp only [redeem, bind_eq_ok, address_eq_ok, tokenProgram_eq_ok, distinct_eq_ok, loadMint_eq_ok,
    loadTokenAccount_eq_ok, orFail_eq_ok, require_eq_ok, cpi_eq_ok, Checked.sub_eq_some, pure_eq_ok]
  constructor
  · rintro ⟨_, v', hv', _, hmint, _, -, _, hvault, acc, ⟨hacc, -⟩, _, -, _, -, _, -, _, hdistinct,
      _, hpos, paid, hpay, _, hfunds, L, hburn, L', htransfer, supply, hsupply, -⟩
    cases hload.symm.trans hv'
    rw [hvault] at hacc htransfer
    rw [hmint] at hburn
    refine ⟨hdistinct, paid, hpos, hpay, ?_, by omega, L, L', hburn, htransfer⟩
    rw [Ledger.amount_of_account hacc]
    exact UInt64.le_iff_toNat_le.mp hfunds
  · rintro ⟨hdistinct, paid, hpos, hpay, hfunds, hsupply, L, L', hburn, htransfer⟩
    obtain ⟨c, M, hc, hM, hcp, hMp, -⟩ := TokenProgram.burn_ok hburn
    have hb := TokenProgram.burn_evolves hburn
    obtain ⟨w, d, hw, hd, hwp, hdp, -⟩ := TokenProgram.transfer_ok htransfer
    obtain ⟨acc, hacc, haccp⟩ := hb.isAccount_iff.mp ⟨w, hw, hwp⟩
    obtain ⟨dest, hdest, hdestp⟩ := hb.isAccount_iff.mp ⟨d, hd, hdp⟩
    rw [Ledger.amount_of_account hacc, ← UInt64.le_iff_toNat_le] at hfunds
    obtain ⟨supply, hsub⟩ := Checked.exists_sub.mpr hsupply
    rw [← hm] at hM hburn
    rw [← ht] at hacc htransfer
    exact ⟨_, v, hload, (), hm, M, ⟨hM, hMp⟩, (), ht, acc, ⟨hacc, haccp⟩, c, ⟨hc, hcp⟩, dest,
      ⟨hdest, hdestp⟩, (), hn.tokenProgram, (), hdistinct, (), hpos, paid, hpay, (), hfunds, L, hburn,
      L', htransfer, supply, Checked.sub_eq_some.mp hsub, rfl⟩

end Redeem

/-! ## Solvency of one vault -/

/-- A `set_nav` of the vault at `k` to more than its NAV was. -/
def raisesNav (k : K) (t : Transition (State K) (Action K)) : Bool :=
  match t.label, t.pre.vaults k with
  | .program _ _ (.setNav a nav), some v => a.assetVault = k && v.navPriceBps < nav
  | _, _ => false

/-- No `set_nav` of the run raised the NAV of the vault at `k`. -/
def NavNeverRaised (k : K) (ts : List (Transition (State K) (Action K))) : Prop :=
  ∀ t ∈ ts, raisesNav k t = false

instance (k : K) (ts : List (Transition (State K) (Action K))) : Decidable (NavNeverRaised k ts) :=
  inferInstanceAs (Decidable (∀ t ∈ ts, _))

section Runs

variable {ledger : Ledger K} {ts : List (Transition (State K) (Action K))} {s s' : State K} {k : K}
  {v : AssetVault K} {act : Action K}

/-- Only a rise of its own NAV lifts the books of a vault; a new one has no shares to lift. -/
theorem Step.no_lift (hg : Guarded s) (h : Step s act s') (hnav : raisesNav k ⟨s, act, s'⟩ = false) :
    ShareVault.lift (s.book k) (s'.book k) = 0 := by
  rcases hv : s.vaults k with _ | v
  · simp [ShareVault.lift, State.book, hv]
  · refine ShareVault.lift_of_le ?_
    cases h with
    | @program _ now view c _ hsig hexec =>
        have heff := exec_effect hexec
        obtain ⟨v', hv', -⟩ := effect_moved hg hsig heff hv
        rw [State.book_of hv, State.book_of hv']
        by_cases hc : ∀ a nav, c ≠ .setNav a nav
        · exact Nat.le_of_eq (congrArg UInt64.toNat (effect_price heff hc hv hv'))
        · simp only [not_forall, not_not] at hc
          obtain ⟨a, nav, rfl⟩ := hc
          cases heff with
          | setNav _ hload _ =>
              rcases update_some hv' with ⟨rfl, rfl⟩ | ⟨-, hk⟩
              · simp only [raisesNav, hv, decide_true, Bool.true_and, decide_eq_false_iff_not,
                  UInt64.not_lt] at hnav
                exact UInt64.le_iff_toNat_le.mp hnav
              · cases hv.symm.trans hk
                exact Nat.le_refl _
    | @token _ L _ _ =>
        have hv' : ({ s with ledger := L } : State K).vaults k = some v := hv
        rw [State.book_of hv, State.book_of hv']
        exact Nat.le_refl _

/-- A vault whose NAV never rose holds what its shares are worth. -/
theorem Reaches.solvent (h : Reaches ledger ts s) (hnav : NavNeverRaised k ts)
    (hv : s.vaults k = some v) :
    v.navPriceBps.toNat * v.totalSupply.toNat ≤ 10000 * s.ledger.amount v.vaultTokenAccount := by
  have hrun := ShareVault.Run.surplus (h.moves k)
  have hzero : ShareVault.lifts (ts.map (·.map (State.book k) (·.label))) = 0 := by
    refine List.sum_eq_zero ?_
    intro n hn
    obtain ⟨t, ht, rfl⟩ := List.mem_map.mp hn
    obtain ⟨t', ht', rfl⟩ := List.mem_map.mp ht
    obtain ⟨⟨before, hbefore⟩, hstep⟩ := h.of_mem ht'
    exact hstep.no_lift (Reaches.guarded hbefore) (hnav t' ht')
  rw [hzero, State.book_of hv] at hrun
  simp only [ShareVault.surplus, AssetVault.book] at hrun
  omega

/-- In a run that never raised the NAV of a vault and burned no shares directly, paused or not,
a redemption on the accounts of the vault succeeds exactly if no account is passed twice and it is
of some shares, whose number times the NAV fits 64 bits, which the token program would burn for
the redeemer, and for which the vault's account and the redeemer's can settle. -/
theorem shares_redeemable (h : Reaches ledger ts s) (hburns : NoShareBurns ts)
    (hnav : NavNeverRaised k ts) (hv : s.vaults k = some v) {a : Redeem K} (hn : a.Names k v)
    (hsig : ¬ Owned a.redeemer) (now : Int64) (x : UInt64) :
    (∃ out, redeem now a x s = .ok out) ↔
      a.mutable.Nodup ∧ 0 < x ∧ x.toNat * v.navPriceBps.toNat < 2 ^ 64 ∧
        s.ledger.BurnOk a.redeemerShareAccount v.shareMint a.redeemer x ∧
        s.ledger.PayOk v.vaultTokenAccount a.redeemerAssetAccount
          (x.toNat * v.navPriceBps.toNat / 10000) := by
  have hr := h.guarded k v hv
  rw [redeem_isOk_iff (h.loadable k v hv) hn]
  refine and_congr_right fun _ => ?_
  constructor
  · rintro ⟨paid, hpos, hpay, -, -, hcalls⟩
    obtain ⟨hlt, hfloor⟩ := payoutFor_eq_ok.mp hpay
    obtain ⟨hburn, hpayable, -⟩ := (hr.held.sell_iff hr.owned hsig).mp hcalls
    exact ⟨hpos, hlt, hburn, hfloor ▸ hpayable⟩
  · rintro ⟨hpos, hlt, hburn, hpayable⟩
    obtain ⟨paid, hpay⟩ : ∃ paid, payoutFor x v.navPriceBps = .ok paid :=
      exists_mulDiv hlt (by decide)
    obtain ⟨-, hfloor⟩ := payoutFor_eq_ok.mp hpay
    -- nobody can burn more shares than there are
    have hsupply : x.toNat ≤ v.totalSupply.toNat := by
      obtain ⟨_, M, -, hM, -, -, -, -, -, -, hle⟩ := hburn
      rw [(h.supplied hburns) k v hv, Ledger.supply_of_mint hM]
      exact UInt64.le_iff_toNat_le.mp hle
    have hfunds : paid.toNat ≤ s.ledger.amount v.vaultTokenAccount := by
      rw [hfloor]
      exact ShareVault.payout_le (h.solvent hnav hv) hsupply
    refine ⟨paid, hpos, hpay, hfunds, hsupply, ?_⟩
    exact (hr.held.sell_iff hr.owned hsig).mpr ⟨hburn, hfloor ▸ hpayable, hfunds⟩

end Runs

/-- Alice's deposit, marked down, in a vault that has been paused since. -/
def paused : List (Action FreeKey) :=
  Cluster.setUp ++ [Cluster.deposit Cluster.usdc Cluster.aliceUsdc Cluster.aliceShares 1000,
    Cluster.setNav Cluster.usdc 9000,
    .program 0 Cluster.view (.pauseVault ⟨factoryKey, assetVaultKey Cluster.usdc, Cluster.admin⟩ true)]

def redeemAccounts : Redeem FreeKey where
  assetVault := assetVaultKey Cluster.usdc
  shareMint := shareMintKey Cluster.usdc
  vaultTokenAccount := vaultTokenKey Cluster.usdc
  redeemerShareAccount := Cluster.aliceShares
  redeemerAssetAccount := Cluster.aliceUsdc
  redeemer := Cluster.alice
  tokenProgram := TokenProgram.id

set_option maxRecDepth 2000 in
theorem shares_redeemable_paused :
    ∃ v out, (final (.genesis Cluster.ledger) paused).vaults (assetVaultKey Cluster.usdc) = some v ∧
      v.paused = true ∧ redeem 0 redeemAccounts 700 (final (.genesis Cluster.ledger) paused) = .ok out := by
  have hburns : NoShareBurns (play (.genesis Cluster.ledger) paused) := by
    intro t ht k v _
    have hnone : paused.all (·.burns.isNone) = true := by decide
    have hlabel := List.all_eq_true.mp hnone _ (label_mem_of_play ht)
    rw [Option.isNone_iff_eq_none.mp hlabel]
    exact nofun
  obtain ⟨v, hv, hfields⟩ := Option.map_eq_some_iff.mp
    (show ((final (.genesis Cluster.ledger) paused).vaults (assetVaultKey Cluster.usdc)).map
      (fun v => (v.paused, v.shareMint, v.vaultTokenAccount, v.navPriceBps)) =
        some (true, shareMintKey Cluster.usdc, vaultTokenKey Cluster.usdc, 9000) from rfl)
  simp only [Prod.mk.injEq] at hfields
  obtain ⟨hpaused, hshare, haccount, hnav⟩ := hfields
  have hn : redeemAccounts.Names (assetVaultKey Cluster.usdc) v :=
    ⟨rfl, hshare.symm, haccount.symm, rfl⟩
  obtain ⟨out, hout⟩ := (shares_redeemable (Cluster.reaches_final (by decide)) hburns (by decide) hv
    hn FreeKey.not_derivedBy_num 0 700).mpr (by
      rw [hnav, hshare, haccount]
      refine ⟨by decide, by decide, by decide, ⟨_, _, rfl, rfl, ?_⟩, ⟨_, _, rfl, rfl, ?_⟩⟩ <;> decide)
  exact ⟨v, out, hv, hpaused, hout⟩

end MultiAssetVault
