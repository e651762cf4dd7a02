/-
# `Oragami.OragamiVault.Exits` — the two ways out of the tradeable token

    direct      redeemTradeable(x, redeem_to_cvault = false)
    two-step    redeemTradeable(x, redeem_to_cvault = true); redeem(x)

Both burn `x` of the tradeable token, pay the same USDC and take `x` off the
supply.  What they ask for in common is `ExitOk`, a condition on the state before
and the accounts passed.  Beyond it each has one condition of its own:

    direct      payout ≤ totalDeposits      (checked_sub on the deposits)
    two-step    RewrapOk                    (the cVAULT account takes x and lets it be burned)

so they agree exactly where the two coincide (`exits_agree_iff`).  `redeem`
subtracts with saturation and asks nothing of the deposits; once the NAV has risen
and somebody has topped up the vault, a payout can exceed them, and the direct
exit fails where the two-step one goes through.
-/
import Oragami.OragamiVault.Accounting
import Oragami.OragamiVault.Scenario

namespace OragamiVault

open Anchor Addresses Lts TokenProgram

/-! ## The two-step exit -/

/-- The accounts of the redemption after the re-wrap. -/
def RedeemTradeable.asRedeem {K : Type} (a : RedeemTradeable K) : Redeem K where
  vaultState := a.vaultState
  cvaultMint := a.cvaultMint
  vaultTokenAccount := a.vaultTokenAccount
  redeemerCvaultAccount := a.userCvaultAccount
  redeemerDepositAccount := a.userDestination
  redeemer := a.authority
  tokenProgram := a.tokenProgram

variable {K : Type} [DecidableEq K] [Addresses K] [Deployment K]

section Conditions

/-- The vault's token account can pay `usdc` to `dst`, from which `y` was taken before. -/
def Payable (L : Ledger K) (dst : K) (y : Nat) (usdc : UInt64) : Prop :=
  ∃ v d, L.account vaultTokenKey = some v ∧ L.account dst = some d ∧ v.program = .token ∧
    d.program = .token ∧ v.mint = d.mint ∧ v.frozen = false ∧ d.frozen = false ∧
    usdc ≤ v.amount ∧ (vaultTokenKey ≠ dst → d.amount.toNat - y + usdc.toNat < 2 ^ 64)

/-- What both exits ask for. -/
structure ExitOk (a : RedeemTradeable K) (x : UInt64) (s : State K) (vs : VaultState K)
    (usdc : UInt64) [TokenProgram K] : Prop where
  vaultState : s.loadVaultState a.vaultState = .ok vs
  cvaultTradeMint : a.cvaultTradeMint = vs.cvaultTradeMint
  cvaultMint : a.cvaultMint = vs.cvaultMint
  isMint : s.ledger.IsMint a.cvaultMint
  vaultTokenAccount : a.vaultTokenAccount = vaultTokenKey
  isCvaultAccount : s.ledger.IsAccount a.userCvaultAccount
  tokenProgram : a.tokenProgram = TokenProgram.id
  unpaused : vs.paused = false
  burn : s.ledger.BurnOk a.userCvaultTradeAccount a.cvaultTradeMint a.authority x
  payout : payoutFor x vs.navPriceBps = .ok usdc
  payable : Payable s.ledger a.userDestination
    (if a.userDestination = a.userCvaultTradeAccount then x.toNat else 0) usdc
  supply : x ≤ vs.totalSupply

/-- The cVAULT account passed can be credited with `x` and debited again by the user.  If it
is the tradeable account itself, the allowance has been used once already. -/
def RewrapOk (a : RedeemTradeable K) (x : UInt64) (L : Ledger K) : Prop :=
  ∃ c, L.account a.userCvaultAccount = some c ∧ c.mint = a.cvaultMint ∧ c.frozen = false ∧
    (if a.userCvaultAccount = a.userCvaultTradeAccount then
      (c.spend a.authority x).CanDebit a.authority x
    else c.CanDebit a.authority x ∧ c.amount.toNat + x.toNat < 2 ^ 64) ∧
    (a.cvaultTradeMint = a.cvaultMint ∨ L.supply a.cvaultMint + x.toNat < 2 ^ 64)

end Conditions

/-! ## The payment -/

section Payment

variable {L L' : Ledger K} {vs : VaultState K} {dst : K} {y : Nat} {usdc : UInt64}
  {d c b m : K → Nat}

/-- Whether the payment goes through depends on what happened before it only by what was
taken from the destination. -/
theorem transferOk_iff (hc : Custody L vs) (he : L.Evolves L' d c b m)
    (hv : L'.amount vaultTokenKey = L.amount vaultTokenKey)
    (hd : L'.amount dst + y = L.amount dst) :
    L'.TransferOk vaultTokenKey dst vaultStateKey usdc ↔ Payable L dst y usdc := by
  obtain ⟨v, hvacc, howner, hdel, -, -⟩ := hc.account
  obtain ⟨v', hv', hsv⟩ := he.account hvacc
  rw [Ledger.amount_of_account hv', Ledger.amount_of_account hvacc] at hv
  constructor
  · rintro ⟨v₁, d', hv₁, hd', hvp, hdp, hm, hvf, hdf, hle, -, hlt⟩
    cases hv'.symm.trans hv₁
    obtain ⟨d₀, hd₀, hsd⟩ := he.account_back hd'
    rw [Ledger.amount_of_account hd', Ledger.amount_of_account hd₀] at hd
    refine ⟨v, d₀, hvacc, hd₀, hsv.program.symm.trans hvp, hsd.program.symm.trans hdp,
      hsv.mint.symm.trans (hm.trans hsd.mint), hsv.frozen.symm.trans hvf,
      hsd.frozen.symm.trans hdf, ?_, ?_⟩
    · exact UInt64.le_iff_toNat_le.mpr (hv ▸ UInt64.le_iff_toNat_le.mp hle)
    · intro hne
      have hfit := hlt hne
      omega
  · rintro ⟨v₁, d₀, hv₁, hd₀, hvp, hdp, hm, hvf, hdf, hle, hlt⟩
    cases hvacc.symm.trans hv₁
    obtain ⟨d', hd', hsd⟩ := he.account hd₀
    rw [Ledger.amount_of_account hd', Ledger.amount_of_account hd₀] at hd
    have hnodel : v'.delegate = none := by
      rcases hsv.delegate with h | h
      · exact h.trans hdel
      · exact h
    refine ⟨v', d', hv', hd', hsv.program.trans hvp, hsd.program.trans hdp,
      hsv.mint.trans (hm.trans hsd.mint.symm), hsv.frozen.trans hvf, hsd.frozen.trans hdf, ?_, ?_,
      ?_⟩
    · exact UInt64.le_iff_toNat_le.mpr (hv ▸ UInt64.le_iff_toNat_le.mp hle)
    · rw [TokenAccount.CanDebit, if_neg (by simp [hnodel])]
      exact hsv.owner.trans howner
    · intro hne
      have hfit := hlt hne
      omega

end Payment

variable [TokenProgram K] {a : RedeemTradeable K} {x : UInt64} {s : State K}

/-! ## The direct exit -/

theorem direct_isOk_iff (hg : Guarded s) (hsig : ¬ Owned a.authority) :
    (∃ out, redeemTradeable a x false s = .ok out) ↔
      ∃ vs usdc, ExitOk a x s vs usdc ∧ usdc ≤ vs.totalDeposits := by
  constructor
  · rintro ⟨out, hout⟩
    obtain ⟨vs, usdc, deposits, supply, L, L', hu, hp, -⟩ := payOut_eq_ok.mp hout
    obtain ⟨hkey, hvs, -⟩ := loadVaultState_eq_ok.mp hu.vaultState
    have hc := hg vs hvs
    have htransfer := transfer_ok hp.transfer
    rw [hu.vaultTokenAccount, hkey] at htransfer
    have hpay := (transferOk_iff hc (burn_evolves hu.burn) (hc.burn hsig hu.burn).2
      (burn_amount hu.burn _)).mp htransfer
    have hdeposits := hp.totalDeposits
    have hsupply := hp.totalSupply
    exact ⟨vs, usdc, ⟨hu.vaultState, hu.cvaultTradeMint, hu.cvaultMint, hu.isMint,
      hu.vaultTokenAccount, hu.isCvaultAccount, hu.tokenProgram, hu.unpaused, burn_ok hu.burn,
      hp.payout, hpay, UInt64.le_iff_toNat_le.mpr (by omega)⟩,
      UInt64.le_iff_toNat_le.mpr (by omega)⟩
  · rintro ⟨vs, usdc, h, hle⟩
    obtain ⟨hkey, hvs, -⟩ := loadVaultState_eq_ok.mp h.vaultState
    have hc := hg vs hvs
    obtain ⟨L, hburn⟩ := Option.isSome_iff_exists.mp ((burn_isSome ..).mpr h.burn)
    have hpay := (transferOk_iff hc (burn_evolves hburn) (hc.burn hsig hburn).2
      (burn_amount hburn _)).mpr h.payable
    rw [← h.vaultTokenAccount, ← hkey] at hpay
    obtain ⟨L', htransfer⟩ := Option.isSome_iff_exists.mp ((transfer_isSome ..).mpr hpay)
    obtain ⟨v, d, hv, hd, hvp, hdp, -, -, -, hfunds, -⟩ := h.payable
    refine ⟨_, payOut_eq_ok.mpr ⟨vs, usdc, vs.totalDeposits - usdc, vs.totalSupply - x, L, L',
      ⟨h.vaultState, h.cvaultTradeMint, h.cvaultMint, h.isMint, h.vaultTokenAccount, ?_,
        h.isCvaultAccount, ⟨d, hd, hdp⟩, h.tokenProgram, h.unpaused, hburn⟩,
      ⟨h.payout, ?_, htransfer, ?_, ?_⟩, rfl⟩⟩
    · rw [h.vaultTokenAccount]
      exact ⟨v, hv, hvp⟩
    · rw [h.vaultTokenAccount, Ledger.amount_of_account hv]
      exact UInt64.le_iff_toNat_le.mp hfunds
    · rw [UInt64.toNat_sub_of_le _ _ hle]
      exact Nat.sub_add_cancel (UInt64.le_iff_toNat_le.mp hle)
    · rw [UInt64.toNat_sub_of_le _ _ h.supply]
      exact Nat.sub_add_cancel (UInt64.le_iff_toNat_le.mp h.supply)

/-! ## The two-step exit -/

/-- Re-wrap, then redeem. -/
def redeemTwoStep (a : RedeemTradeable K) (x : UInt64) (s : State K) : Ix (Outcome K) := do
  let (s, _) ← redeemTradeable a x true s
  redeem a.asRedeem x s

section Rewrap

variable {L : Ledger K} {vs : VaultState K}

/-- cVAULT can be minted to the account and burned from it by the user exactly when
`RewrapOk` held before the tradeable tokens were burned. -/
theorem rewrap_iff (hc : Custody s.ledger vs) (hkey : a.vaultState = vaultStateKey)
    (hmint : a.cvaultMint = cvaultMintKey) (hM : s.ledger.IsMint a.cvaultMint)
    (hb : burn s.ledger a.userCvaultTradeAccount a.cvaultTradeMint a.authority x = some L)
    (hacc : s.ledger.IsAccount a.userCvaultAccount) :
    (∃ L₁ L₂, mintTo L a.cvaultMint a.userCvaultAccount a.vaultState x = some L₁ ∧
      burn L₁ a.userCvaultAccount a.cvaultMint a.authority x = some L₂) ↔
      RewrapOk a x s.ledger := by
  obtain ⟨c, hcacc, hcp⟩ := hacc
  obtain ⟨b, hbacc, hsb⟩ := (burn_evolves hb).account hcacc
  have hallow := allowance_after_burn hb hcacc hbacc
  have hamount := burn_amount hb a.userCvaultAccount
  rw [Ledger.amount_of_account hbacc, Ledger.amount_of_account hcacc] at hamount
  obtain ⟨C, hC, hCp⟩ := hM
  obtain ⟨C', hC', hsC⟩ := (burn_evolves hb).mint hC
  have hsupply := burn_supply hb a.cvaultMint
  rw [Ledger.supply_of_mint hC', Ledger.supply_of_mint hC] at hsupply
  constructor
  · rintro ⟨L₁, L₂, hm, hb₁⟩
    obtain ⟨M, b₁, hM₁, hb₁acc, -, -, hmint₁, hfrozen, -, hMlt, hblt⟩ := mintTo_ok hm
    cases hbacc.symm.trans hb₁acc
    cases hC'.symm.trans hM₁
    obtain ⟨e, M₂, he, -, -, -, -, -, -, hdebit, -⟩ := burn_ok hb₁
    obtain ⟨e', he', hse⟩ := (mintTo_evolves hm).account hbacc
    cases he.symm.trans he'
    rw [TokenAccount.canDebit_congr hse.owner (allowance_after_mint hm hbacc he)] at hdebit
    refine ⟨c, hcacc, hsb.mint.symm.trans hmint₁, hsb.frozen.symm.trans hfrozen, ?_, ?_⟩
    · split
      · next heq =>
          rw [if_pos heq] at hallow
          exact (TokenAccount.canDebit_congr (hsb.owner.trans (c.spend_owner _ _).symm) hallow).mp
            hdebit
      · next hne =>
          rw [if_neg hne] at hallow hamount
          exact ⟨(TokenAccount.canDebit_congr hsb.owner hallow).mp hdebit, by omega⟩
    · by_cases heq : a.cvaultTradeMint = a.cvaultMint
      · exact .inl heq
      · rw [if_neg (Ne.symm heq)] at hsupply
        rw [Ledger.supply_of_mint hC]
        exact .inr (by omega)
  · rintro ⟨c₀, hc₀, hcm, hcf, hspend, hroom⟩
    cases hcacc.symm.trans hc₀
    have hc64 := c.amount.toNat_lt
    have hC64 := C.supply.toNat_lt
    have hdebit : b.CanDebit a.authority x := by
      split at hspend
      · next heq =>
          rw [if_pos heq] at hallow
          exact (TokenAccount.canDebit_congr (hsb.owner.trans (c.spend_owner _ _).symm) hallow).mpr
            hspend
      · next hne =>
          rw [if_neg hne] at hallow
          exact (TokenAccount.canDebit_congr hsb.owner hallow).mpr hspend.1
    have hfits : b.amount.toNat + x.toNat < 2 ^ 64 := by
      split at hspend
      · next heq =>
          rw [if_pos heq] at hamount
          omega
      · next hne =>
          rw [if_neg hne] at hamount
          omega
    have hissue : C'.supply.toNat + x.toNat < 2 ^ 64 := by
      rcases hroom with heq | hlt
      · rw [if_pos heq.symm] at hsupply
        omega
      · rw [Ledger.supply_of_mint hC] at hlt
        omega
    have hauth : C'.mintAuthority = some a.vaultState := by
      obtain ⟨C₀, hC₀, hauth⟩ := hc.mint
      rw [← hmint] at hC₀
      cases hC.symm.trans hC₀
      rw [hkey]
      exact hsC.mintAuthority.trans hauth
    have hmintOk : L.MintOk a.cvaultMint a.userCvaultAccount a.vaultState x :=
      ⟨C', b, hC', hbacc, hsC.program.trans hCp, hsb.program.trans hcp, hsb.mint.trans hcm,
        hsb.frozen.trans hcf, hauth, hissue, hfits⟩
    obtain ⟨L₁, hL₁⟩ := Option.isSome_iff_exists.mp ((mintTo_isSome ..).mpr hmintOk)
    obtain ⟨L₂, hL₂⟩ := remint_burn hL₁ hbacc hdebit
    exact ⟨L₁, L₂, hL₁, hL₂⟩

end Rewrap

/-- After the re-wrap and the redemption's burn the payment goes through as it would after
the burn alone. -/
theorem rewrapped_transferOk {L L₁ L₂ : Ledger K} {vs : VaultState K} {usdc : UInt64}
    (hc : Custody s.ledger vs) (hsig : ¬ Owned a.authority)
    (hb : burn s.ledger a.userCvaultTradeAccount a.cvaultTradeMint a.authority x = some L)
    (hm : mintTo L a.cvaultMint a.userCvaultAccount a.vaultState x = some L₁)
    (hb₁ : burn L₁ a.userCvaultAccount a.cvaultMint a.authority x = some L₂) :
    L₂.TransferOk vaultTokenKey a.userDestination vaultStateKey usdc ↔
      Payable s.ledger a.userDestination
        (if a.userDestination = a.userCvaultTradeAccount then x.toNat else 0) usdc := by
  have hamount : ∀ k, L₂.amount k + (if k = a.userCvaultTradeAccount then x.toNat else 0) =
      s.ledger.amount k := by
    intro k
    have h₁ := burn_amount hb k
    have h₂ := mintTo_amount hm k
    have h₃ := burn_amount hb₁ k
    omega
  have hv := hamount vaultTokenKey
  obtain ⟨t, -, ht, -, -, -, -, -, -, hdebit, -⟩ := burn_ok hb
  rw [if_neg (hc.debit_ne ht hdebit hsig).symm, Nat.add_zero] at hv
  exact transferOk_iff hc (((burn_evolves hb).trans (mintTo_evolves hm)).trans (burn_evolves hb₁))
    hv (hamount _)

theorem twoStep_isOk_iff (hg : Guarded s) (hsig : ¬ Owned a.authority) :
    (∃ out, redeemTwoStep a x s = .ok out) ↔
      ∃ vs usdc, ExitOk a x s vs usdc ∧ RewrapOk a x s.ledger := by
  constructor
  · rintro ⟨out, hout⟩
    obtain ⟨⟨s₁, ev⟩, hfirst, hsecond⟩ := bind_eq_ok.mp hout
    obtain ⟨vs, L, L₁, hu, hm, hs₁⟩ := rewrap_eq_ok.mp hfirst
    cases hs₁
    obtain ⟨vs', usdc, supply, L₂, L₃, hr, -⟩ := redeem_eq_ok.mp hsecond
    obtain ⟨hkey, hvs, -⟩ := loadVaultState_eq_ok.mp hu.vaultState
    obtain ⟨-, hvs', -⟩ := loadVaultState_eq_ok.mp hr.vaultState
    cases hvs.symm.trans hvs'
    have hc := hg vs hvs
    have htransfer := transfer_ok hr.transfer
    rw [show a.asRedeem.vaultTokenAccount = vaultTokenKey from hu.vaultTokenAccount,
      show a.asRedeem.vaultState = vaultStateKey from hkey] at htransfer
    have hsupply := hr.totalSupply
    refine ⟨vs, usdc, ⟨hu.vaultState, hu.cvaultTradeMint, hu.cvaultMint, hu.isMint,
      hu.vaultTokenAccount, hu.isCvaultAccount, hu.tokenProgram, hu.unpaused, burn_ok hu.burn,
      hr.payout, (rewrapped_transferOk hc hsig hu.burn hm hr.burn).mp htransfer,
      UInt64.le_iff_toNat_le.mpr (by omega)⟩, ?_⟩
    exact (rewrap_iff hc hkey (hu.cvaultMint.trans hc.cvaultMint) hu.isMint hu.burn
      hu.isCvaultAccount).mp ⟨L₁, L₂, hm, hr.burn⟩
  · rintro ⟨vs, usdc, h, hrewrap⟩
    obtain ⟨hkey, hvs, -⟩ := loadVaultState_eq_ok.mp h.vaultState
    have hc := hg vs hvs
    obtain ⟨L, hburn⟩ := Option.isSome_iff_exists.mp ((burn_isSome ..).mpr h.burn)
    obtain ⟨L₁, L₂, hm, hb₁⟩ := (rewrap_iff hc hkey (h.cvaultMint.trans hc.cvaultMint) h.isMint
      hburn h.isCvaultAccount).mpr hrewrap
    have hpay := (rewrapped_transferOk hc hsig hburn hm hb₁).mpr h.payable
    rw [← h.vaultTokenAccount, ← hkey] at hpay
    obtain ⟨L₃, htransfer⟩ := Option.isSome_iff_exists.mp ((transfer_isSome ..).mpr hpay)
    obtain ⟨v, d, hv, hd, hvp, hdp, -, -, -, hfunds, -⟩ := h.payable
    have hunwrapped : Unwrapped a x s vs L :=
      ⟨h.vaultState, h.cvaultTradeMint, h.cvaultMint, h.isMint, h.vaultTokenAccount,
        h.vaultTokenAccount ▸ ⟨v, hv, hvp⟩, h.isCvaultAccount, ⟨d, hd, hdp⟩, h.tokenProgram,
        h.unpaused, hburn⟩
    have hredeemed : Redeemed a.asRedeem x { s with ledger := L₁ } vs usdc (vs.totalSupply - x)
        L₂ L₃ := by
      refine ⟨h.vaultState, h.cvaultMint, h.vaultTokenAccount, h.tokenProgram, h.unpaused,
        h.payout, ?_, hb₁, htransfer, ?_⟩
      · show usdc.toNat ≤ L₁.amount a.vaultTokenAccount
        have hsame := (hc.burn hsig hburn).2
        have hmore := mintTo_amount hm vaultTokenKey
        have hle := UInt64.le_iff_toNat_le.mp hfunds
        rw [h.vaultTokenAccount, hmore, hsame, Ledger.amount_of_account hv]
        omega
      · rw [UInt64.toNat_sub_of_le _ _ h.supply]
        exact Nat.sub_add_cancel (UInt64.le_iff_toNat_le.mp h.supply)
    exact ⟨_, bind_eq_ok.mpr ⟨_, rewrap_eq_ok.mpr ⟨vs, L, L₁, hunwrapped, hm, rfl⟩,
      redeem_eq_ok.mpr ⟨vs, usdc, vs.totalSupply - x, L₂, L₃, hredeemed, rfl⟩⟩⟩

/-! ## Agreement -/

/-- The two exits agree from `s`: they succeed together, and then leave the same accounts of
the program, the same supplies and the same balances. -/
def ExitsAgree (a : RedeemTradeable K) (x : UInt64) (s : State K) : Prop :=
  ((∃ out, redeemTradeable a x false s = .ok out) ↔ ∃ out, redeemTwoStep a x s = .ok out) ∧
  ∀ s₁ ev₁ s₂ ev₂, redeemTradeable a x false s = .ok (s₁, ev₁) →
    redeemTwoStep a x s = .ok (s₂, ev₂) →
    s₁.toAccounts = s₂.toAccounts ∧ (∀ m, s₁.ledger.supply m = s₂.ledger.supply m) ∧
      ∀ k, s₁.ledger.amount k = s₂.ledger.amount k

/-- Where both succeed they do the same. -/
theorem exits_same {s₁ s₂ : State K} {ev₁ ev₂ : Option (Event K)}
    (h₁ : redeemTradeable a x false s = .ok (s₁, ev₁))
    (h₂ : redeemTwoStep a x s = .ok (s₂, ev₂)) :
    s₁.toAccounts = s₂.toAccounts ∧ (∀ m, s₁.ledger.supply m = s₂.ledger.supply m) ∧
      ∀ k, s₁.ledger.amount k = s₂.ledger.amount k := by
  obtain ⟨vs, usdc, deposits, supply, L, L', hu, hp, hs₁⟩ := payOut_eq_ok.mp h₁
  cases hs₁
  obtain ⟨⟨s₀, ev₀⟩, hfirst, hsecond⟩ := bind_eq_ok.mp h₂
  obtain ⟨vs', M, L₁, hu', hm, hs₀⟩ := rewrap_eq_ok.mp hfirst
  cases hs₀
  obtain ⟨vs'', usdc', supply', L₂, L₃, hr, hs₂⟩ := redeem_eq_ok.mp hsecond
  cases hs₂
  obtain ⟨-, hvs, -⟩ := loadVaultState_eq_ok.mp hu.vaultState
  obtain ⟨-, hvs', -⟩ := loadVaultState_eq_ok.mp hu'.vaultState
  obtain ⟨-, hvs'', -⟩ := loadVaultState_eq_ok.mp hr.vaultState
  cases hvs.symm.trans hvs'
  cases hvs.symm.trans hvs''
  cases hp.payout.symm.trans hr.payout
  cases hu.burn.symm.trans hu'.burn
  have hsupply : supply = supply' := by
    rw [Checked.eq_iff_toNat]
    have h := hp.totalSupply
    have h' := hr.totalSupply
    omega
  have hdeposits : deposits = Checked.satSub vs.totalDeposits usdc := by
    rw [Checked.eq_iff_toNat, Checked.toNat_satSub]
    have h := hp.totalDeposits
    omega
  refine ⟨?_, ?_, ?_⟩
  · rw [hsupply, hdeposits]
    rfl
  · intro m
    have h := (transfer_evolves hp.transfer).supply m
    have h' := (((mintTo_evolves hm).trans (burn_evolves hr.burn)).trans
      (transfer_evolves hr.transfer)).supply m
    simp only [RedeemTradeable.asRedeem, Pi.add_apply, Pi.zero_apply] at h h'
    show L'.supply m = L₃.supply m
    omega
  · intro k
    have h := (transfer_evolves hp.transfer).amount k
    have h' := (((mintTo_evolves hm).trans (burn_evolves hr.burn)).trans
      (transfer_evolves hr.transfer)).amount k
    simp only [RedeemTradeable.asRedeem, Pi.add_apply, Pi.zero_apply] at h h'
    show L'.amount k = L₃.amount k
    omega

/-- The exits agree exactly where, if all that both ask for is given, the payout is covered
by the recorded deposits just when the cVAULT account takes part in the re-wrap. -/
theorem exits_agree_iff {ledger : Ledger K} {ts : List (Transition (State K) (Action K))}
    (h : Reaches ledger ts s) (hsig : ¬ Owned a.authority) :
    ExitsAgree a x s ↔
      ∀ vs usdc, ExitOk a x s vs usdc →
        (usdc ≤ vs.totalDeposits ↔ RewrapOk a x s.ledger) := by
  rw [ExitsAgree, direct_isOk_iff h.guarded hsig, twoStep_isOk_iff h.guarded hsig]
  constructor
  · rintro ⟨hiff, -⟩ vs usdc hexit
    constructor
    · intro hle
      obtain ⟨_, _, _, hrewrap⟩ := hiff.mp ⟨vs, usdc, hexit, hle⟩
      exact hrewrap
    · intro hrewrap
      obtain ⟨vs', usdc', hexit', hle⟩ := hiff.mpr ⟨vs, usdc, hexit, hrewrap⟩
      obtain ⟨-, hvs, -⟩ := loadVaultState_eq_ok.mp hexit.vaultState
      obtain ⟨-, hvs', -⟩ := loadVaultState_eq_ok.mp hexit'.vaultState
      cases hvs.symm.trans hvs'
      cases hexit.payout.symm.trans hexit'.payout
      exact hle
  · intro hall
    refine ⟨⟨?_, ?_⟩, fun s₁ ev₁ s₂ ev₂ h₁ h₂ => exits_same h₁ h₂⟩
    · rintro ⟨vs, usdc, hexit, hle⟩
      exact ⟨vs, usdc, hexit, (hall vs usdc hexit).mp hle⟩
    · rintro ⟨vs, usdc, hexit, hrewrap⟩
      exact ⟨vs, usdc, hexit, (hall vs usdc hexit).mpr hrewrap⟩

/-- A deposit made tradeable, a rise of the NAV by half, and a donation. -/
def toppedUp : State FreeKey :=
  final (.genesis Cluster.ledger)
    (Cluster.setUp ++ [Cluster.deposit 1000, Cluster.convert 1000, Cluster.setNav 15000,
      Cluster.donate 500])

theorem exits_agree_half : ExitsAgree Cluster.unwrapAccounts 500 toppedUp := by
  have houtside : ¬ Owned Cluster.unwrapAccounts.authority := FreeKey.not_derivedBy_num
  refine (exits_agree_iff (Cluster.reaches_final (by decide)) houtside).mpr ?_
  intro vs usdc hexit
  obtain ⟨-, hvs, -⟩ := loadVaultState_eq_ok.mp hexit.vaultState
  have hbooks : toppedUp.vaultState.map (fun vs => (vs.navPriceBps, vs.totalDeposits)) =
      some (15000, 1000) := by decide
  rw [show toppedUp.vaultState = some vs from hvs, Option.map_some, Option.some.injEq,
    Prod.mk.injEq] at hbooks
  have hpay := hexit.payout
  rw [hbooks.1] at hpay
  cases hpay.symm.trans (show payoutFor 500 15000 = .ok 750 from rfl)
  refine iff_of_true (by rw [hbooks.2]; decide) ?_
  exact ⟨(toppedUp.ledger.account Cluster.aliceCvault).get (by decide), (Option.some_get _).symm,
    by decide, by decide, by decide, by decide⟩

/-- The direct exit of 1000 shares, worth 1500 USDC against 1000 recorded, fails where the
two-step one goes through. -/
theorem exits_disagree :
    ∃ ts, Reaches Cluster.ledger ts toppedUp ∧
      redeemTradeable Cluster.unwrapAccounts 1000 false toppedUp = .error (.code .overflow) ∧
      ∃ out, redeemTwoStep Cluster.unwrapAccounts 1000 toppedUp = .ok out := by
  refine ⟨_, Cluster.reaches_final (by decide), ?_, ok_of_isOk (by decide)⟩
  have herr : (match redeemTradeable Cluster.unwrapAccounts 1000 false toppedUp with
    | .error (.code e) => decide (e = ErrorCode.overflow)
    | _ => false) = true := by decide
  split at herr
  · next e he => rw [he, of_decide_eq_true herr]
  · cases herr

end OragamiVault
