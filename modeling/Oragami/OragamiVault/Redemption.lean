/-
# `Oragami.OragamiVault.Redemption` — what can stand in the way of an exit

Shares leave by two instructions, `redeem` and the direct `redeem_tradeable`.  Both
stop while the vault is paused, and both compute `shares * nav` in 64 bits.  Their
other checks are about the vault itself: that it holds the payout, that it counted
the shares, and in the direct exit that it recorded the deposits.  In a run that
never raised the NAV none of those can fail (`Reaches.funded`, `Reaches.recorded`,
`Issued.burn_le`), so what is left is the holder's to provide: shares the token
program burns for them, and an account it can pay.

The tradeable token is held in custody like the other one, if it is not the token
deposits are made in.
-/
import Oragami.OragamiVault.Authority
import Oragami.OragamiVault.Exits
import Oragami.OragamiVault.Fairness
import Oragami.OragamiVault.Supply
import Oragami.OragamiVault.Tradeable

namespace OragamiVault

open Anchor Addresses Lts

variable {K : Type} [DecidableEq K] [Addresses K] [Deployment K]

/-! ## Loading -/

/-- The vault state loads, and the share mint is of the token program the vault calls. -/
structure Loadable (s : State K) (vs : VaultState K) : Prop where
  vaultState : s.loadVaultState vaultStateKey = .ok vs
  isMint : s.ledger.IsMint cvaultMintKey

variable [TokenProgram K]

section Steps

variable {s s' : State K} {vs vs' : VaultState K}

/-- A vault that was not there before has been opened. -/
theorem effect_opened {now : Int64} {c : Call K} (h : Effect now s c s')
    (hnone : s.vaultState = none) (hvs' : s'.vaultState = some vs') :
    ∃ a p, c = .initializeVault a p ∧ Initialized a p s s' vs' := by
  have stored : ∀ {k : K} {w : VaultState K}, s.loadVaultState k ≠ .ok w := by
    intro k w hload
    cases hnone.symm.trans (loadVaultState_eq_ok.mp hload).2.1
  cases h with
  | quiet hq => cases (hq.fresh hnone).symm.trans hvs'
  | init hi =>
      cases hi.vaultState.symm.trans hvs'
      exact ⟨_, _, rfl, hi⟩
  | setNav hvs => cases hnone.symm.trans hvs
  | issue hw _ _ _ _ _ =>
      rw [hw.state] at hvs'
      cases hnone.symm.trans hvs'
  | revoke hw _ _ =>
      rw [hw.state] at hvs'
      cases hnone.symm.trans hvs'
  | record _ _ _ _ _ _ => cases hnone.symm.trans hvs'
  | deposit hd => exact absurd hd.vaultState stored
  | redeem hr => exact absurd hr.vaultState stored
  | convert hc => exact absurd hc.vaultState stored
  | rewrap hu _ => exact absurd hu.vaultState stored
  | payOut hu _ => exact absurd hu.vaultState stored

theorem initializeVault_bump {now : Int64} {a : InitializeVault K} {p : InitializeVaultParams K}
    {ev : Option (Event K)} (h : initializeVault now a p s = .ok (s', ev))
    (hvs' : s'.vaultState = some vs') :
    vs'.bump = canonicalBump (programId : K) [.text vaultStateSeed] := by
  simp only [initializeVault, bind_eq_ok, pure_eq_ok, Prod.mk.injEq] at h
  obtain ⟨_, -, _, -, _, -, _, -, _, -, _, -, _, -, _, -, _, -, rfl, -⟩ := h
  cases hvs'
  rfl

theorem step_loadable {act : Action K} (hl : ∀ vs, s.vaultState = some vs → Loadable s vs)
    (h : Step s act s') (hvs' : s'.vaultState = some vs') : Loadable s' vs' := by
  rcases hvs : s.vaultState with _ | vs
  · cases h with
    | program _ hexec =>
        obtain ⟨a, p, rfl, hi⟩ := effect_opened (exec_effect hexec) hvs hvs'
        refine ⟨loadVaultState_eq_ok.mpr ⟨rfl, hvs', ?_⟩, ?_⟩
        · rw [initializeVault_bump hexec hvs']
          rfl
        · exact ⟨⟨.token, some vaultStateKey, 0⟩, by rw [hi.ledger]; exact Ledger.setMint_mint_self ..,
            rfl⟩
    | token _ _ => cases hvs.symm.trans hvs'
  · obtain ⟨w, hw, hid⟩ := (h.authorised hvs).identity
    cases hvs'.symm.trans hw
    have hbump : vs'.bump = vs.bump := congrArg Identity.bump hid
    obtain ⟨-, -, hkey⟩ := loadVaultState_eq_ok.mp (hl vs hvs).vaultState
    exact ⟨loadVaultState_eq_ok.mpr ⟨rfl, hvs', hbump ▸ hkey⟩, h.isMint (hl vs hvs).isMint⟩

end Steps

theorem Reaches.loadable {ledger : Ledger K} {ts : List (Transition (State K) (Action K))}
    {s : State K} {vs : VaultState K} (h : Reaches ledger ts s) (hvs : s.vaultState = some vs) :
    Loadable s vs := by
  have hall : ∀ vs, s.vaultState = some vs → Loadable s vs := by
    refine Run.invariant (I := fun s => ∀ vs, s.vaultState = some vs → Loadable s vs) ?_ ?_ h
    · intro vs hvs
      cases hvs
    · intro s act s' hl hstep vs' hvs'
      exact step_loadable hl hstep hvs'
  exact hall vs hvs

/-! ## The accounts -/

/-- The accounts passed are the vault's. -/
structure Redeem.Names (a : Redeem K) : Prop where
  vaultState : a.vaultState = vaultStateKey
  cvaultMint : a.cvaultMint = cvaultMintKey
  vaultTokenAccount : a.vaultTokenAccount = vaultTokenKey
  tokenProgram : a.tokenProgram = TokenProgram.id

/-- The accounts passed are the vault's; the cVAULT account, which a payment does not touch, is
some token account. -/
structure RedeemTradeable.Names (a : RedeemTradeable K) (s : State K) (vs : VaultState K) :
    Prop where
  vaultState : a.vaultState = vaultStateKey
  cvaultTradeMint : a.cvaultTradeMint = vs.cvaultTradeMint
  cvaultMint : a.cvaultMint = cvaultMintKey
  vaultTokenAccount : a.vaultTokenAccount = vaultTokenKey
  userCvaultAccount : s.ledger.IsAccount a.userCvaultAccount
  tokenProgram : a.tokenProgram = TokenProgram.id

section Exits

variable {s : State K} {vs : VaultState K} {x : UInt64}

/-- A redemption goes through exactly if its amounts fit and the token program makes both calls. -/
theorem redeem_isOk_iff (hl : Loadable s vs) (hc : Custody s.ledger vs) {a : Redeem K}
    (hn : a.Names) :
    (∃ out, redeem a x s = .ok out) ↔
      ∃ usdc : UInt64, vs.paused = false ∧ payoutFor x vs.navPriceBps = .ok usdc ∧
        usdc.toNat ≤ s.ledger.amount vaultTokenKey ∧ x.toNat ≤ vs.totalSupply.toNat ∧
        ∃ L L', TokenProgram.burn s.ledger a.redeemerCvaultAccount cvaultMintKey a.redeemer x =
            some L ∧
          TokenProgram.transfer L vaultTokenKey a.redeemerDepositAccount vaultStateKey usdc =
            some L' := by
  constructor
  · rintro ⟨out, hout⟩
    obtain ⟨w, usdc, supply, L, L', hr, -⟩ := redeem_eq_ok.mp hout
    have hload := hr.vaultState
    rw [hn.vaultState] at hload
    cases hl.vaultState.symm.trans hload
    have hsupply := hr.totalSupply
    refine ⟨usdc, hr.unpaused, hr.payout, ?_, by omega, L, L', ?_, ?_⟩
    · rw [← hn.vaultTokenAccount]
      exact hr.funds
    · rw [← hn.cvaultMint]
      exact hr.burn
    · rw [← hn.vaultTokenAccount, ← hn.vaultState]
      exact hr.transfer
  · rintro ⟨usdc, hpaused, hpay, hfunds, hsupply, L, L', hburn, htransfer⟩
    obtain ⟨supply, hsub⟩ := Checked.exists_sub.mpr hsupply
    rw [← hn.vaultTokenAccount] at hfunds
    rw [← hn.cvaultMint] at hburn
    rw [← hn.vaultTokenAccount, ← hn.vaultState] at htransfer
    exact ⟨_, redeem_eq_ok.mpr ⟨vs, usdc, supply, L, L', ⟨hn.vaultState ▸ hl.vaultState,
      hn.cvaultMint.trans hc.cvaultMint.symm, hn.vaultTokenAccount, hn.tokenProgram, hpaused, hpay,
      hfunds, hburn, htransfer, Checked.sub_eq_some.mp hsub⟩, rfl⟩⟩

/-- So does a direct exit, with the recorded deposits to be reduced besides. -/
theorem payOut_isOk_iff (hl : Loadable s vs) (hc : Custody s.ledger vs) {a : RedeemTradeable K}
    (hn : a.Names s vs) :
    (∃ out, redeemTradeable a x false s = .ok out) ↔
      ∃ usdc : UInt64, vs.paused = false ∧ payoutFor x vs.navPriceBps = .ok usdc ∧
        usdc.toNat ≤ s.ledger.amount vaultTokenKey ∧ usdc.toNat ≤ vs.totalDeposits.toNat ∧
        x.toNat ≤ vs.totalSupply.toNat ∧
        ∃ L L', TokenProgram.burn s.ledger a.userCvaultTradeAccount vs.cvaultTradeMint a.authority
            x = some L ∧
          TokenProgram.transfer L vaultTokenKey a.userDestination vaultStateKey usdc = some L' := by
  constructor
  · rintro ⟨out, hout⟩
    obtain ⟨w, usdc, deposits, supply, L, L', hu, hp, -⟩ := payOut_eq_ok.mp hout
    have hload := hu.vaultState
    rw [hn.vaultState] at hload
    cases hl.vaultState.symm.trans hload
    have hdeposits := hp.totalDeposits
    have hsupply := hp.totalSupply
    refine ⟨usdc, hu.unpaused, hp.payout, ?_, by omega, by omega, L, L', ?_, ?_⟩
    · rw [← hn.vaultTokenAccount]
      exact hp.funds
    · rw [← hn.cvaultTradeMint]
      exact hu.burn
    · rw [← hn.vaultTokenAccount, ← hn.vaultState]
      exact hp.transfer
  · rintro ⟨usdc, hpaused, hpay, hfunds, hdeposits, hsupply, L, L', hburn, htransfer⟩
    obtain ⟨deposits, hsubd⟩ := Checked.exists_sub.mpr hdeposits
    obtain ⟨supply, hsub⟩ := Checked.exists_sub.mpr hsupply
    obtain ⟨v, d, hv, hd, hvp, hdp, -⟩ := TokenProgram.transfer_ok htransfer
    have hb := TokenProgram.burn_evolves hburn
    have hvault := hb.isAccount_iff.mp ⟨v, hv, hvp⟩
    have hdest := hb.isAccount_iff.mp ⟨d, hd, hdp⟩
    rw [← hn.vaultTokenAccount] at hfunds hvault
    rw [← hn.cvaultTradeMint] at hburn
    rw [← hn.vaultTokenAccount, ← hn.vaultState] at htransfer
    exact ⟨_, payOut_eq_ok.mpr ⟨vs, usdc, deposits, supply, L, L',
      ⟨hn.vaultState ▸ hl.vaultState, hn.cvaultTradeMint, hn.cvaultMint.trans hc.cvaultMint.symm,
        hn.cvaultMint ▸ hl.isMint, hn.vaultTokenAccount, hvault, hn.userCvaultAccount, hdest,
        hn.tokenProgram, hpaused, hburn⟩,
      ⟨hpay, hfunds, htransfer, Checked.sub_eq_some.mp hsubd, Checked.sub_eq_some.mp hsub⟩, rfl⟩⟩

omit [DecidableEq K] [TokenProgram K] in
/-- The tradeable token is in custody too, where it is not what the vault holds. -/
theorem Issued.held {burned : Nat} (hi : Issued s.ledger vs burned) (hc : Custody s.ledger vs)
    (hdistinct : s.assetMint ≠ some vs.cvaultTradeMint) :
    s.ledger.Custody vaultStateKey vaultTokenKey vs.cvaultTradeMint := by
  obtain ⟨v, hv, howner, hdel, -, hprog⟩ := hc.account
  refine ⟨⟨v, hv, howner, hdel, ?_, hprog⟩, hi.trade⟩
  rintro heq
  exact hdistinct (by rw [State.assetMint, hv]; exact congrArg some heq)

end Exits

/-! ## Runs -/

section Runs

variable {ledger : Ledger K} {ts : List (Transition (State K) (Action K))} {s : State K}
  {vs : VaultState K}

/-- What a holder needs for `x` shares of `mint` at a NAV: the product fits, the token program
burns them, and the vault's account and the one to be paid can settle. -/
structure Redeemable (s : State K) (src mint dst holder : K) (x nav : UInt64) : Prop where
  fits : x.toNat * nav.toNat < 2 ^ 64
  burn : s.ledger.BurnOk src mint holder x
  pay : s.ledger.PayOk vaultTokenKey dst (x.toNat * nav.toNat / 10000)

/-- In a run that never raised the NAV, of a vault whose tradeable token was its own and new,
both exits are open to whoever has shares to burn and an account to be paid on, as long as the
vault is not paused: nothing in the books of the vault ever refuses one. -/
theorem exits_stay_open (h : Reaches ledger ts s) (hfresh : OpensOverFreshMint ts)
    (hnav : NavNeverRaised ts) (hvs : s.vaultState = some vs)
    (hdistinct : s.assetMint ≠ some vs.cvaultTradeMint) (x : UInt64) :
    (∀ a : Redeem K, a.Names → ¬ Owned a.redeemer →
      ((∃ out, redeem a x s = .ok out) ↔ vs.paused = false ∧
        Redeemable s a.redeemerCvaultAccount cvaultMintKey a.redeemerDepositAccount a.redeemer x
          vs.navPriceBps)) ∧
    (∀ a : RedeemTradeable K, a.Names s vs → ¬ Owned a.authority →
      ((∃ out, redeemTradeable a x false s = .ok out) ↔ vs.paused = false ∧
        Redeemable s a.userCvaultTradeAccount vs.cvaultTradeMint a.userDestination a.authority x
          vs.navPriceBps)) := by
  have hc := h.guarded vs hvs
  have hl := h.loadable hvs
  have hi := (h.supplied hfresh).issued hvs
  have hsolvent : 0 ≤ surplus s.ledger vs := by
    have hle := h.surplus_lifts hvs
    rw [h.no_lifts hnav] at hle
    simpa using hle
  -- the vault's side of a payout of shares that can be burned
  have payable : ∀ {src m auth : K}, m = cvaultMintKey ∨ m = vs.cvaultTradeMint →
      s.ledger.BurnOk src m auth x → x.toNat * vs.navPriceBps.toNat < 2 ^ 64 →
      ∃ usdc : UInt64, payoutFor x vs.navPriceBps = .ok usdc ∧
        usdc.toNat = x.toNat * vs.navPriceBps.toNat / 10000 ∧
        usdc.toNat ≤ s.ledger.amount vaultTokenKey ∧ usdc.toNat ≤ vs.totalDeposits.toNat ∧
        x.toNat ≤ vs.totalSupply.toNat := by
    intro src m auth hm hburn hlt
    obtain ⟨L, hb⟩ := Option.isSome_iff_exists.mp ((TokenProgram.burn_isSome ..).mpr hburn)
    have hsupply := hi.burn_le hm hb
    have hx : x ≤ vs.totalSupply := UInt64.le_iff_toNat_le.mpr hsupply
    obtain ⟨usdc, hpay⟩ : ∃ usdc, payoutFor x vs.navPriceBps = .ok usdc :=
      exists_mulDiv hlt (by decide)
    exact ⟨usdc, hpay, (payoutFor_eq_ok.mp hpay).2, h.funded hvs hsolvent hx hpay,
      h.recorded hvs hnav hx hpay, hsupply⟩
  constructor
  · intro a hn hsig
    rw [redeem_isOk_iff hl hc hn]
    constructor
    · rintro ⟨usdc, hpaused, hpay, -, -, hcalls⟩
      obtain ⟨hlt, hfloor⟩ := payoutFor_eq_ok.mp hpay
      obtain ⟨hburn, hsettle, -⟩ := (hc.held.sell_iff owned_vaultStateKey hsig).mp hcalls
      exact ⟨hpaused, hlt, hburn, hfloor ▸ hsettle⟩
    · rintro ⟨hpaused, hlt, hburn, hsettle⟩
      obtain ⟨usdc, hpay, hfloor, hfunds, -, hsupply⟩ := payable (.inl rfl) hburn hlt
      refine ⟨usdc, hpaused, hpay, hfunds, hsupply, ?_⟩
      exact (hc.held.sell_iff owned_vaultStateKey hsig).mpr ⟨hburn, hfloor ▸ hsettle, hfunds⟩
  · intro a hn hsig
    have htrade := hi.held hc hdistinct
    rw [payOut_isOk_iff hl hc hn]
    constructor
    · rintro ⟨usdc, hpaused, hpay, -, -, -, hcalls⟩
      obtain ⟨hlt, hfloor⟩ := payoutFor_eq_ok.mp hpay
      obtain ⟨hburn, hsettle, -⟩ := (htrade.sell_iff owned_vaultStateKey hsig).mp hcalls
      exact ⟨hpaused, hlt, hburn, hfloor ▸ hsettle⟩
    · rintro ⟨hpaused, hlt, hburn, hsettle⟩
      obtain ⟨usdc, hpay, hfloor, hfunds, hdeposits, hsupply⟩ := payable (.inr rfl) hburn hlt
      refine ⟨usdc, hpaused, hpay, hfunds, hdeposits, hsupply, ?_⟩
      exact (htrade.sell_iff owned_vaultStateKey hsig).mpr ⟨hburn, hfloor ▸ hsettle, hfunds⟩

end Runs

/-- Deposits, some of the shares tradeable, marked down since: both exits are open. -/
theorem exits_stay_open_marked :
    (∃ out, redeem Cluster.unwrapAccounts.asRedeem 500 (final (.genesis Cluster.ledger) marked) =
      .ok out) ∧
    ∃ out, redeemTradeable Cluster.unwrapAccounts 300 false
      (final (.genesis Cluster.ledger) marked) = .ok out := by
  obtain ⟨vs, hvs, hfields⟩ := Option.map_eq_some_iff.mp
    (show (final (.genesis Cluster.ledger) marked).vaultState.map
      (fun vs => (vs.paused, vs.cvaultTradeMint, vs.navPriceBps)) =
        some (false, Cluster.tradeMint, 9000) from rfl)
  simp only [Prod.mk.injEq] at hfields
  obtain ⟨hpaused, htrade, hnav⟩ := hfields
  have hdistinct : (final (.genesis Cluster.ledger) marked).assetMint ≠ some vs.cvaultTradeMint := by
    rw [htrade]
    decide
  have hopen := exits_stay_open (Cluster.reaches_final (show marked.all _ = true by decide))
    (by decide) (by decide) hvs hdistinct
  constructor
  · refine ((hopen 500).1 Cluster.unwrapAccounts.asRedeem ⟨rfl, rfl, rfl, rfl⟩
      FreeKey.not_derivedBy_num).mpr ⟨hpaused, ?_⟩
    rw [hnav]
    refine ⟨by decide, ⟨_, _, rfl, rfl, ?_⟩, ⟨_, _, rfl, rfl, ?_⟩⟩ <;> decide
  · refine ((hopen 300).2 Cluster.unwrapAccounts ⟨rfl, htrade.symm, rfl, rfl, ⟨_, rfl, rfl⟩, rfl⟩
      FreeKey.not_derivedBy_num).mpr ⟨hpaused, ?_⟩
    rw [hnav, htrade]
    refine ⟨by decide, ⟨_, _, rfl, rfl, ?_⟩, ⟨_, _, rfl, rfl, ?_⟩⟩ <;> decide

end OragamiVault
