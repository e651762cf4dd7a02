/-
# `Oragami.OragamiVault.Custody` — the instructions that move tokens

Deposit, redemption, conversion to the tradeable token and the two ways out of
it.  Each computes an amount at the current NAV, calls the token program, and
then updates the totals on the vault state.  Balances are read before the calls,
as the accounts are not reloaded between them.

Nonces are logged by the clients and read by no instruction; they are left out.

After each instruction stands what its success means, as a structure (`Deposited`,
`Redeemed`, …) over the values it read and the ledgers between its calls.  Redemption
and conversion succeed exactly when some values satisfy theirs.
-/
import Oragami.OragamiVault.State

namespace OragamiVault

open Anchor Addresses

variable {K : Type} [DecidableEq K] [Addresses K] [Deployment K] [TokenProgram K]

/-! ## Amounts -/

/-- `amount * 10000 / nav`, the cVAULT a deposit buys. -/
def sharesFor (amount nav : UInt64) : Ix UInt64 := do
  let x ← orFail (Checked.mul amount navBpsDenominator) (.code .overflow)
  orFail (Checked.div x nav) (.code .overflow)

/-- `amount * nav / 10000`, the USDC a redemption pays. -/
def payoutFor (amount nav : UInt64) : Ix UInt64 := do
  let x ← orFail (Checked.mul amount nav) (.code .overflow)
  orFail (Checked.div x navBpsDenominator) (.code .overflow)

theorem sharesFor_eq_ok {amount nav x : UInt64} :
    sharesFor amount nav = .ok x ↔
      amount.toNat * 10000 < 2 ^ 64 ∧ nav.toNat ≠ 0 ∧ x.toNat = amount.toNat * 10000 / nav.toNat :=
  mulDiv_eq_ok

theorem payoutFor_eq_ok {amount nav x : UInt64} :
    payoutFor amount nav = .ok x ↔
      amount.toNat * nav.toNat < 2 ^ 64 ∧ x.toNat = amount.toNat * nav.toNat / 10000 := by
  refine mulDiv_eq_ok.trans ?_
  have hden : navBpsDenominator.toNat ≠ 0 := by decide
  constructor
  · rintro ⟨hlt, -, hx⟩
    exact ⟨hlt, hx⟩
  · rintro ⟨hlt, hx⟩
    exact ⟨hlt, hden, hx⟩

/-- `payoutFor` fails only on overflow of the product. -/
theorem payoutFor_eq_error {amount nav : UInt64} {e : Failure ErrorCode} :
    payoutFor amount nav = .error e ↔
      2 ^ 64 ≤ amount.toNat * nav.toNat ∧ .code .overflow = e :=
  mulDiv_eq_error (by decide)

/-! ## Deposit -/

structure Deposit (K : Type) where
  vaultState : K
  cvaultMint : K
  vaultTokenAccount : K
  payerDepositAccount : K
  payerCvaultAccount : K
  investorCredential : K
  travelRuleData : Option K
  payer : K
  tokenProgram : K

/-- The credential gate: active, unexpired, and the depositor's. -/
def credentialGate (now : Int64) (payer : K) (cred : ComplianceCredential K) : Ix Unit := do
  require (cred.status = credentialStatusActive) .complianceCheckFailed
  require (now < cred.expiresAt) .credentialExpired
  require (cred.wallet = payer) .complianceCheckFailed

/-- An optional Travel Rule record, found by its address alone. -/
def loadTravelRule (s : State K) : Option K → Ix (Option (K × TravelRuleData K)) :=
  optional fun k => do
    let tr ← orFail (s.travelRules k) (.anchor .accountNotInitialized)
    pure (k, tr)

/-- The Travel Rule gate: a deposit at or above the threshold consumes a record of the
depositor for exactly its amount. -/
def travelRuleGate (amount : UInt64) (payer : K) (passed : Option (K × TravelRuleData K))
    (travelRules : K → Option (TravelRuleData K)) : Ix (K → Option (TravelRuleData K)) :=
  if travelRuleThreshold ≤ amount then do
    let (k, tr) ← orFail passed (.code .travelRuleRequired)
    require (tr.amount = amount) .invalidTravelRule
    require (tr.payer = payer) .invalidTravelRule
    require (tr.consumed = false) .invalidTravelRule
    pure (Function.update travelRules k (some { tr with consumed := true }))
  else
    pure travelRules

omit [Addresses K] [Deployment K] [TokenProgram K] in
/-- A deposit below the threshold consumes no record; any other consumes the one passed,
which is unused, the depositor's, and for exactly the amount. -/
theorem travelRuleGate_eq_ok {amount : UInt64} {payer : K} {o : Option K} {s : State K}
    {tr : Option (K × TravelRuleData K)} {rules : K → Option (TravelRuleData K)}
    (htr : loadTravelRule s o = .ok tr) (h : travelRuleGate amount payer tr s.travelRules = .ok rules) :
    (amount < travelRuleThreshold ∧ rules = s.travelRules) ∨
      (travelRuleThreshold ≤ amount ∧ ∃ k tr, o = some k ∧ s.travelRules k = some tr ∧
        tr.payer = payer ∧ tr.amount = amount ∧ tr.consumed = false ∧
        rules = Function.update s.travelRules k (some { tr with consumed := true })) := by
  unfold travelRuleGate at h
  split at h
  · next hle =>
      simp only [bind_eq_ok, orFail_eq_ok, require_eq_ok, pure_eq_ok] at h
      obtain ⟨⟨k, t⟩, ht, _, hamount, _, hpayer, _, hfresh, rfl⟩ := h
      rcases optional_eq_ok.mp htr with ⟨-, hnone⟩ | ⟨k', t', hk, hsome, hload⟩
      · cases ht.symm.trans hnone
      · cases ht.symm.trans hsome
        simp only [bind_eq_ok, orFail_eq_ok, pure_eq_ok, Prod.mk.injEq] at hload
        obtain ⟨_, hstored, rfl, rfl⟩ := hload
        exact .inr ⟨hle, _, _, hk, hstored, hpayer, hamount, hfresh, rfl⟩
  · next hlt =>
      exact .inl ⟨UInt64.not_le.mp hlt, (pure_eq_ok.mp h).symm⟩

def deposit (now : Int64) (a : Deposit K) (amount : UInt64) (s : State K) :
    Ix (Outcome K) := do
  let vs ← s.loadVaultState a.vaultState
  address a.cvaultMint vs.cvaultMint
  let _ ← loadMint s.ledger a.cvaultMint
  seeds a.vaultTokenAccount vaultTokenKey
  let _ ← loadTokenAccount s.ledger a.vaultTokenAccount
  let _ ← loadTokenAccount s.ledger a.payerDepositAccount
  let _ ← loadTokenAccount s.ledger a.payerCvaultAccount
  let cred ← orFail (s.credentials a.investorCredential) (.anchor .accountNotInitialized)
  seeds a.investorCredential
    (derive programId [.text complianceCredentialSeed, .key a.payer] cred.bump)
  let tr ← loadTravelRule s a.travelRuleData
  tokenProgram a.tokenProgram
  -- vault guards
  require (vs.paused = false) .vaultPaused
  require (vs.minDeposit ≤ amount) .depositTooSmall
  require (amount ≤ vs.maxDeposit) .depositTooLarge
  credentialGate now a.payer cred
  let travelRules ← travelRuleGate amount a.payer tr s.travelRules
  -- USDC in, cVAULT out
  let nav := vs.navPriceBps
  let ledger ← cpi (TokenProgram.transfer s.ledger a.payerDepositAccount a.vaultTokenAccount
    a.payer amount)
  let cvaultAmount ← sharesFor amount nav
  require (0 < cvaultAmount) .depositTooSmall
  let ledger ← cpi (TokenProgram.mintTo ledger a.cvaultMint a.payerCvaultAccount
    a.vaultState cvaultAmount)
  -- totals
  let totalDeposits ← orFail (Checked.add vs.totalDeposits amount) (.code .overflow)
  let totalSupply ← orFail (Checked.add vs.totalSupply cvaultAmount) (.code .overflow)
  pure ({ s with
      vaultState := some { vs with totalDeposits, totalSupply }
      travelRules
      ledger },
    some (.depositMade a.payer amount cvaultAmount now))

/-- A deposit of `amount` that bought `shares`: `L` is the ledger after the USDC came in. -/
structure Deposited (now : Int64) (a : Deposit K) (amount : UInt64) (s s' : State K)
    (vs : VaultState K) (cred : ComplianceCredential K) (shares : UInt64) (L : Ledger K) :
    Prop where
  vaultState : s.loadVaultState a.vaultState = .ok vs
  cvaultMint : a.cvaultMint = vs.cvaultMint
  vaultTokenAccount : a.vaultTokenAccount = vaultTokenKey
  credential : s.credentials a.investorCredential = some cred
  credentialSeeds : a.investorCredential =
    derive programId [.text complianceCredentialSeed, .key a.payer] cred.bump
  status : cred.status = credentialStatusActive
  unexpired : now < cred.expiresAt
  wallet : cred.wallet = a.payer
  travelRule : ∃ tr, loadTravelRule s a.travelRuleData = .ok tr ∧
    travelRuleGate amount a.payer tr s.travelRules = .ok s'.travelRules
  price : sharesFor amount vs.navPriceBps = .ok shares
  transfer : TokenProgram.transfer s.ledger a.payerDepositAccount a.vaultTokenAccount a.payer
    amount = some L
  mint : TokenProgram.mintTo L a.cvaultMint a.payerCvaultAccount a.vaultState shares =
    some s'.ledger
  totals : ∃ totalDeposits totalSupply,
    totalDeposits.toNat = vs.totalDeposits.toNat + amount.toNat ∧
      totalSupply.toNat = vs.totalSupply.toNat + shares.toNat ∧
      s'.vaultState = some { vs with totalDeposits, totalSupply }
  rest : s'.credentials = s.credentials ∧ s'.rwaAssetRegistry = s.rwaAssetRegistry ∧
    s'.vaultMandate = s.vaultMandate ∧ s'.reserveAttestation = s.reserveAttestation

/-- What a deposit did to the Travel Rule records. -/
theorem Deposited.travelRules {now : Int64} {a : Deposit K} {amount : UInt64} {s s' : State K}
    {vs : VaultState K} {cred : ComplianceCredential K} {shares : UInt64} {L : Ledger K}
    (h : Deposited now a amount s s' vs cred shares L) :
    (amount < travelRuleThreshold ∧ s'.travelRules = s.travelRules) ∨
      (travelRuleThreshold ≤ amount ∧ ∃ k tr, a.travelRuleData = some k ∧
        s.travelRules k = some tr ∧ tr.payer = a.payer ∧ tr.amount = amount ∧
        tr.consumed = false ∧
        s'.travelRules = Function.update s.travelRules k (some { tr with consumed := true })) := by
  obtain ⟨tr, htr, hgate⟩ := h.travelRule
  exact travelRuleGate_eq_ok htr hgate

theorem deposit_spec {now : Int64} {a : Deposit K} {amount : UInt64} {s s' : State K}
    {ev : Option (Event K)} (h : deposit now a amount s = .ok (s', ev)) :
    ∃ vs cred shares L, Deposited now a amount s s' vs cred shares L := by
  simp only [deposit, bind_eq_ok, address_eq_ok, seeds_eq_ok, orFail_eq_ok, require_eq_ok,
    cpi_eq_ok, credentialGate, Checked.add_eq_some, pure_eq_ok, Prod.mk.injEq] at h
  -- accounts, guards, then the calls and totals
  obtain ⟨vs, hvs, _, hmint, _, _, _, hvault, _, _, _, _, _, _, cred, hcred, _, hseeds, tr, htr,
    h⟩ := h
  obtain ⟨_, _, _, _, _, _, _, _, _, ⟨_, hstatus, _, hexp, hwallet⟩, rules, hgate, h⟩ := h
  obtain ⟨L, htransfer, shares, hshares, _, _, L', hmintTo, td, htd, ts, hts, hs, -⟩ := h
  subst hs
  exact ⟨vs, cred, shares, L, hvs, hmint, hvault, hcred, hseeds, hstatus, hexp, hwallet,
    ⟨tr, htr, hgate⟩, hshares, htransfer, hmintTo, ⟨td, ts, htd, hts, rfl⟩, rfl, rfl, rfl, rfl⟩

theorem deposit_unpaused {now : Int64} {a : Deposit K} {amount : UInt64} {s s' : State K}
    {ev : Option (Event K)} (h : deposit now a amount s = .ok (s', ev)) :
    ∃ vs, s.vaultState = some vs ∧ vs.paused = false := by
  simp only [deposit, bind_eq_ok, loadVaultState_eq_ok, require_eq_ok] at h
  obtain ⟨vs, ⟨-, hvs, -⟩, _, _, _, _, _, _, _, _, _, _, _, _, _, _, _, _, _, _, _, _, _, hpaused, -⟩ :=
    h
  exact ⟨vs, hvs, hpaused⟩

/-! ## Redeem -/

structure Redeem (K : Type) where
  vaultState : K
  cvaultMint : K
  vaultTokenAccount : K
  redeemerCvaultAccount : K
  redeemerDepositAccount : K
  redeemer : K
  tokenProgram : K

def redeem (a : Redeem K) (cvaultAmount : UInt64) (s : State K) : Ix (Outcome K) := do
  let vs ← s.loadVaultState a.vaultState
  address a.cvaultMint vs.cvaultMint
  let _ ← loadMint s.ledger a.cvaultMint
  seeds a.vaultTokenAccount vaultTokenKey
  let vault ← loadTokenAccount s.ledger a.vaultTokenAccount
  let _ ← loadTokenAccount s.ledger a.redeemerCvaultAccount
  let _ ← loadTokenAccount s.ledger a.redeemerDepositAccount
  tokenProgram a.tokenProgram
  require (vs.paused = false) .vaultPaused
  let nav := vs.navPriceBps
  let usdcAmount ← payoutFor cvaultAmount nav
  require (usdcAmount ≤ vault.amount) .insufficientVaultFunds
  let ledger ← cpi (TokenProgram.burn s.ledger a.redeemerCvaultAccount a.cvaultMint
    a.redeemer cvaultAmount)
  let ledger ← cpi (TokenProgram.transfer ledger a.vaultTokenAccount a.redeemerDepositAccount
    a.vaultState usdcAmount)
  let totalDeposits := Checked.satSub vs.totalDeposits usdcAmount
  let totalSupply ← orFail (Checked.sub vs.totalSupply cvaultAmount) (.code .overflow)
  pure ({ s with vaultState := some { vs with totalDeposits, totalSupply }, ledger }, none)

/-- A redemption of `cvaultAmount` for `usdcAmount`: `L` is the ledger between the burn
and the payment, `L'` the one after. -/
structure Redeemed (a : Redeem K) (cvaultAmount : UInt64) (s : State K) (vs : VaultState K)
    (usdcAmount totalSupply : UInt64) (L L' : Ledger K) : Prop where
  vaultState : s.loadVaultState a.vaultState = .ok vs
  cvaultMint : a.cvaultMint = vs.cvaultMint
  vaultTokenAccount : a.vaultTokenAccount = vaultTokenKey
  tokenProgram : a.tokenProgram = TokenProgram.id
  unpaused : vs.paused = false
  payout : payoutFor cvaultAmount vs.navPriceBps = .ok usdcAmount
  funds : usdcAmount.toNat ≤ s.ledger.amount a.vaultTokenAccount
  burn : TokenProgram.burn s.ledger a.redeemerCvaultAccount a.cvaultMint a.redeemer
    cvaultAmount = some L
  transfer : TokenProgram.transfer L a.vaultTokenAccount a.redeemerDepositAccount a.vaultState
    usdcAmount = some L'
  totalSupply : totalSupply.toNat + cvaultAmount.toNat = vs.totalSupply.toNat

/-- The state a redemption leaves. -/
def redeemedState (s : State K) (vs : VaultState K) (usdcAmount totalSupply : UInt64)
    (L : Ledger K) : State K :=
  { s with
    vaultState := some { vs with
      totalDeposits := Checked.satSub vs.totalDeposits usdcAmount, totalSupply }
    ledger := L }

theorem redeem_eq_ok {a : Redeem K} {x : UInt64} {s : State K} {out : Outcome K} :
    redeem a x s = .ok out ↔
      ∃ vs usdc supply L L', Redeemed a x s vs usdc supply L L' ∧
        out = (redeemedState s vs usdc supply L', none) := by
  simp only [redeem, bind_eq_ok, address_eq_ok, seeds_eq_ok, orFail_eq_ok, require_eq_ok,
    tokenProgram_eq_ok, loadMint_eq_ok, loadTokenAccount_eq_ok, cpi_eq_ok, Checked.sub_eq_some,
    pure_eq_ok]
  constructor
  · rintro ⟨vs, hvs, _, hmint, _, _, _, hvault, acc, ⟨hacc, _⟩, _, _, _, _, _, htp, _, hpaused,
      usdc, hpay, _, hfunds, L, hburn, L', htransfer, supply, hsupply, rfl⟩
    refine ⟨vs, usdc, supply, L, L', ⟨hvs, hmint, hvault, htp, hpaused, hpay, ?_, hburn,
      htransfer, hsupply⟩, rfl⟩
    rw [Ledger.amount_of_account hacc]
    exact UInt64.le_iff_toNat_le.mp hfunds
  · rintro ⟨vs, usdc, supply, L, L', h, rfl⟩
    obtain ⟨c, M, hc, hM, hcp, hMp, -⟩ := TokenProgram.burn_ok h.burn
    have hb := TokenProgram.burn_evolves h.burn
    obtain ⟨v, d, hv, hd, hvp, hdp, -⟩ := TokenProgram.transfer_ok h.transfer
    obtain ⟨acc, hacc, haccp⟩ := hb.isAccount_iff.mp ⟨v, hv, hvp⟩
    obtain ⟨dest, hdest, hdestp⟩ := hb.isAccount_iff.mp ⟨d, hd, hdp⟩
    have hfunds := h.funds
    rw [Ledger.amount_of_account hacc, ← UInt64.le_iff_toNat_le] at hfunds
    exact ⟨vs, h.vaultState, (), h.cvaultMint, M, ⟨hM, hMp⟩, (), h.vaultTokenAccount, acc,
      ⟨hacc, haccp⟩, c, ⟨hc, hcp⟩, dest, ⟨hdest, hdestp⟩, (), h.tokenProgram, (), h.unpaused,
      usdc, h.payout, (), hfunds, L, h.burn, L', h.transfer, supply, h.totalSupply, rfl⟩

/-! ## Secondary market -/

structure ConvertToTradeable (K : Type) where
  vaultState : K
  cvaultMint : K
  cvaultTradeMint : K
  userCvaultAccount : K
  userCvaultTradeAccount : K
  user : K
  tokenProgram : K

def convertToTradeable (a : ConvertToTradeable K) (amount : UInt64) (s : State K) :
    Ix (Outcome K) := do
  let vs ← s.loadVaultState a.vaultState
  address a.cvaultMint vs.cvaultMint
  let _ ← loadMint s.ledger a.cvaultMint
  address a.cvaultTradeMint vs.cvaultTradeMint
  let _ ← loadMint s.ledger a.cvaultTradeMint
  let _ ← loadTokenAccount s.ledger a.userCvaultAccount
  let _ ← loadTokenAccount s.ledger a.userCvaultTradeAccount
  tokenProgram a.tokenProgram
  require (vs.paused = false) .vaultPaused
  require (vs.secondaryMarketEnabled = true) .secondaryMarketDisabled
  let ledger ← cpi (TokenProgram.burn s.ledger a.userCvaultAccount a.cvaultMint a.user amount)
  let ledger ← cpi (TokenProgram.mintTo ledger a.cvaultTradeMint a.userCvaultTradeAccount
    a.vaultState amount)
  pure ({ s with ledger }, none)

/-- A conversion of `amount`: `L` is the ledger between the burn and the mint. -/
structure Converted (a : ConvertToTradeable K) (amount : UInt64) (s : State K)
    (vs : VaultState K) (L L' : Ledger K) : Prop where
  vaultState : s.loadVaultState a.vaultState = .ok vs
  cvaultMint : a.cvaultMint = vs.cvaultMint
  cvaultTradeMint : a.cvaultTradeMint = vs.cvaultTradeMint
  tokenProgram : a.tokenProgram = TokenProgram.id
  unpaused : vs.paused = false
  market : vs.secondaryMarketEnabled = true
  burn : TokenProgram.burn s.ledger a.userCvaultAccount a.cvaultMint a.user amount = some L
  mint : TokenProgram.mintTo L a.cvaultTradeMint a.userCvaultTradeAccount a.vaultState amount =
    some L'

theorem convertToTradeable_eq_ok {a : ConvertToTradeable K} {x : UInt64} {s : State K}
    {out : Outcome K} :
    convertToTradeable a x s = .ok out ↔
      ∃ vs L L', Converted a x s vs L L' ∧ out = ({ s with ledger := L' }, none) := by
  simp only [convertToTradeable, bind_eq_ok, address_eq_ok, require_eq_ok, tokenProgram_eq_ok,
    loadMint_eq_ok, loadTokenAccount_eq_ok, cpi_eq_ok, pure_eq_ok]
  constructor
  · rintro ⟨vs, hvs, _, hmint, _, _, _, htrade, _, _, _, _, _, _, _, htp, _, hpaused, _, hmarket,
      L, hburn, L', hmintTo, rfl⟩
    exact ⟨vs, L, L', ⟨hvs, hmint, htrade, htp, hpaused, hmarket, hburn, hmintTo⟩, rfl⟩
  · rintro ⟨vs, L, L', h, rfl⟩
    obtain ⟨c, M, hc, hM, hcp, hMp, -⟩ := TokenProgram.burn_ok h.burn
    have hb := TokenProgram.burn_evolves h.burn
    obtain ⟨T, t, hT, ht, hTp, htp, -⟩ := TokenProgram.mintTo_ok h.mint
    obtain ⟨trade, htrade, htradep⟩ := hb.isMint_iff.mp ⟨T, hT, hTp⟩
    obtain ⟨dest, hdest, hdestp⟩ := hb.isAccount_iff.mp ⟨t, ht, htp⟩
    exact ⟨vs, h.vaultState, (), h.cvaultMint, M, ⟨hM, hMp⟩, (), h.cvaultTradeMint, trade,
      ⟨htrade, htradep⟩, c, ⟨hc, hcp⟩, dest, ⟨hdest, hdestp⟩, (), h.tokenProgram, (), h.unpaused,
      (), h.market, L, h.burn, L', h.mint, rfl⟩

structure RedeemTradeable (K : Type) where
  vaultState : K
  cvaultTradeMint : K
  cvaultMint : K
  vaultTokenAccount : K
  userCvaultTradeAccount : K
  userCvaultAccount : K
  userDestination : K
  authority : K
  tokenProgram : K

def redeemTradeable (a : RedeemTradeable K) (amount : UInt64) (redeemToCvault : Bool)
    (s : State K) : Ix (Outcome K) := do
  let vs ← s.loadVaultState a.vaultState
  address a.cvaultTradeMint vs.cvaultTradeMint
  let _ ← loadMint s.ledger a.cvaultTradeMint
  address a.cvaultMint vs.cvaultMint
  let _ ← loadMint s.ledger a.cvaultMint
  seeds a.vaultTokenAccount vaultTokenKey
  let vault ← loadTokenAccount s.ledger a.vaultTokenAccount
  let _ ← loadTokenAccount s.ledger a.userCvaultTradeAccount
  let _ ← loadTokenAccount s.ledger a.userCvaultAccount
  let _ ← loadTokenAccount s.ledger a.userDestination
  tokenProgram a.tokenProgram
  require (vs.paused = false) .vaultPaused
  let nav := vs.navPriceBps
  let ledger ← cpi (TokenProgram.burn s.ledger a.userCvaultTradeAccount a.cvaultTradeMint
    a.authority amount)
  if redeemToCvault then do
    -- re-wrap 1:1; `total_supply` counts both tokens and stays
    let ledger ← cpi (TokenProgram.mintTo ledger a.cvaultMint a.userCvaultAccount
      a.vaultState amount)
    pure ({ s with ledger }, none)
  else do
    let usdcAmount ← payoutFor amount nav
    require (usdcAmount ≤ vault.amount) .insufficientVaultFunds
    let ledger ← cpi (TokenProgram.transfer ledger a.vaultTokenAccount a.userDestination
      a.vaultState usdcAmount)
    let totalDeposits ← orFail (Checked.sub vs.totalDeposits usdcAmount) (.code .overflow)
    let totalSupply ← orFail (Checked.sub vs.totalSupply amount) (.code .overflow)
    pure ({ s with vaultState := some { vs with totalDeposits, totalSupply }, ledger }, none)

/-- What both exits from the tradeable token ask for: `L` is the ledger after the burn. -/
structure Unwrapped (a : RedeemTradeable K) (amount : UInt64) (s : State K)
    (vs : VaultState K) (L : Ledger K) : Prop where
  vaultState : s.loadVaultState a.vaultState = .ok vs
  cvaultTradeMint : a.cvaultTradeMint = vs.cvaultTradeMint
  cvaultMint : a.cvaultMint = vs.cvaultMint
  isMint : s.ledger.IsMint a.cvaultMint
  vaultTokenAccount : a.vaultTokenAccount = vaultTokenKey
  isVault : s.ledger.IsAccount a.vaultTokenAccount
  isCvaultAccount : s.ledger.IsAccount a.userCvaultAccount
  isDestination : s.ledger.IsAccount a.userDestination
  tokenProgram : a.tokenProgram = TokenProgram.id
  unpaused : vs.paused = false
  burn : TokenProgram.burn s.ledger a.userCvaultTradeAccount a.cvaultTradeMint a.authority
    amount = some L

/-- The payment of the direct exit. -/
structure PaidOut (a : RedeemTradeable K) (amount : UInt64) (s : State K) (vs : VaultState K)
    (usdcAmount totalDeposits totalSupply : UInt64) (L L' : Ledger K) : Prop where
  payout : payoutFor amount vs.navPriceBps = .ok usdcAmount
  funds : usdcAmount.toNat ≤ s.ledger.amount a.vaultTokenAccount
  transfer : TokenProgram.transfer L a.vaultTokenAccount a.userDestination a.vaultState
    usdcAmount = some L'
  totalDeposits : totalDeposits.toNat + usdcAmount.toNat = vs.totalDeposits.toNat
  totalSupply : totalSupply.toNat + amount.toNat = vs.totalSupply.toNat

theorem rewrap_eq_ok {a : RedeemTradeable K} {x : UInt64} {s : State K} {out : Outcome K} :
    redeemTradeable a x true s = .ok out ↔
      ∃ vs L L', Unwrapped a x s vs L ∧
        TokenProgram.mintTo L a.cvaultMint a.userCvaultAccount a.vaultState x = some L' ∧
        out = ({ s with ledger := L' }, none) := by
  simp only [redeemTradeable, if_true, bind_eq_ok, address_eq_ok, seeds_eq_ok, require_eq_ok,
    tokenProgram_eq_ok, loadMint_eq_ok, loadTokenAccount_eq_ok, cpi_eq_ok, pure_eq_ok]
  constructor
  · rintro ⟨vs, hvs, _, htrade, _, _, _, hmint, M, hM, _, hvault, v, hv, _, _, c, hc, d, hd, _,
      htp, _, hpaused, L, hburn, L', hmintTo, rfl⟩
    exact ⟨vs, L, L', ⟨hvs, htrade, hmint, ⟨M, hM⟩, hvault, ⟨v, hv⟩, ⟨c, hc⟩, ⟨d, hd⟩, htp, hpaused,
      hburn⟩, hmintTo, rfl⟩
  · rintro ⟨vs, L, L', h, hmintTo, rfl⟩
    obtain ⟨t, T, ht, hT, htp, hTp, -⟩ := TokenProgram.burn_ok h.burn
    obtain ⟨M, hM⟩ := h.isMint
    obtain ⟨v, hv⟩ := h.isVault
    obtain ⟨c, hc⟩ := h.isCvaultAccount
    obtain ⟨d, hd⟩ := h.isDestination
    exact ⟨vs, h.vaultState, (), h.cvaultTradeMint, T, ⟨hT, hTp⟩, (), h.cvaultMint, M, hM, (),
      h.vaultTokenAccount, v, hv, t, ⟨ht, htp⟩, c, hc, d, hd, (), h.tokenProgram, (), h.unpaused,
      L, h.burn, L', hmintTo, rfl⟩

theorem payOut_eq_ok {a : RedeemTradeable K} {x : UInt64} {s : State K} {out : Outcome K} :
    redeemTradeable a x false s = .ok out ↔
      ∃ vs usdc deposits supply L L', Unwrapped a x s vs L ∧
        PaidOut a x s vs usdc deposits supply L L' ∧
        out = ({ s with
          vaultState := some { vs with totalDeposits := deposits, totalSupply := supply }
          ledger := L' }, none) := by
  simp only [redeemTradeable, Bool.false_eq_true, if_false, bind_eq_ok, address_eq_ok,
    seeds_eq_ok, orFail_eq_ok, require_eq_ok, tokenProgram_eq_ok, loadMint_eq_ok,
    loadTokenAccount_eq_ok, cpi_eq_ok, Checked.sub_eq_some, pure_eq_ok]
  constructor
  · rintro ⟨vs, hvs, _, htrade, _, _, _, hmint, M, hM, _, hvault, v, hv, _, _, c, hc, d, hd, h⟩
    obtain ⟨_, htp, _, hpaused, L, hburn, usdc, hpay, _, hfunds, h⟩ := h
    obtain ⟨L', htransfer, deposits, hdeposits, supply, hsupply, rfl⟩ := h
    refine ⟨vs, usdc, deposits, supply, L, L', ⟨hvs, htrade, hmint, ⟨M, hM⟩, hvault, ⟨v, hv⟩,
      ⟨c, hc⟩, ⟨d, hd⟩, htp, hpaused, hburn⟩, ⟨hpay, ?_, htransfer, hdeposits, hsupply⟩, rfl⟩
    rw [Ledger.amount_of_account hv.1]
    exact UInt64.le_iff_toNat_le.mp hfunds
  · rintro ⟨vs, usdc, deposits, supply, L, L', h, hp, rfl⟩
    obtain ⟨t, T, ht, hT, htp, hTp, -⟩ := TokenProgram.burn_ok h.burn
    obtain ⟨M, hM⟩ := h.isMint
    obtain ⟨v, hv⟩ := h.isVault
    obtain ⟨c, hc⟩ := h.isCvaultAccount
    obtain ⟨d, hd⟩ := h.isDestination
    have hfunds := hp.funds
    rw [Ledger.amount_of_account hv.1, ← UInt64.le_iff_toNat_le] at hfunds
    exact ⟨vs, h.vaultState, (), h.cvaultTradeMint, T, ⟨hT, hTp⟩, (), h.cvaultMint, M, hM, (),
      h.vaultTokenAccount, v, hv, t, ⟨ht, htp⟩, c, hc, d, hd, (), h.tokenProgram, (), h.unpaused,
      L, h.burn, usdc, hp.payout, (), hfunds, L', hp.transfer, deposits, hp.totalDeposits, supply,
      hp.totalSupply, rfl⟩

/-! ## How the exits fail -/

section Failures

variable {x : UInt64} {s : State K}

theorem payoutFor_ne {amount nav : UInt64} :
    payoutFor amount nav ≠ .error (.code .insufficientVaultFunds) := by
  intro h
  cases (payoutFor_eq_error.mp h).2

/-- Either exit reports insufficient funds only when the vault's token account holds less
than the payout. -/
theorem redeem_underfunded {a : Redeem K}
    (h : redeem a x s = .error (.code .insufficientVaultFunds)) :
    ∃ vs acc, ∃ usdc : UInt64, s.vaultState = some vs ∧ payoutFor x vs.navPriceBps = .ok usdc ∧
      s.ledger.account vaultTokenKey = some acc ∧ acc.amount.toNat < usdc.toNat := by
  simp only [redeem, bind_eq_error, loadVaultState_ne_code, loadVaultState_eq_ok,
    address_ne_code, loadMint_ne_code, seeds_ne_code, seeds_eq_ok, loadTokenAccount_ne_code,
    loadTokenAccount_eq_ok, tokenProgram_ne_code, payoutFor_ne, cpi_eq_error, orFail_eq_error,
    require_eq_error, pure_ne_error, Failure.code.injEq, reduceCtorEq, and_false, and_true,
    false_or, or_false, exists_false, UInt64.le_iff_toNat_le, Nat.not_le] at h
  obtain ⟨vs, ⟨-, hvs, -⟩, _, -, _, -, _, hkey, acc, ⟨hacc, -⟩, _, -, _, -, _, -, _, -, usdc, hpay,
    hlt⟩ := h
  exact ⟨vs, acc, usdc, hvs, hpay, hkey ▸ hacc, hlt⟩

theorem redeemTradeable_underfunded {a : RedeemTradeable K} {mode : Bool}
    (h : redeemTradeable a x mode s = .error (.code .insufficientVaultFunds)) :
    ∃ vs acc, ∃ usdc : UInt64, s.vaultState = some vs ∧ payoutFor x vs.navPriceBps = .ok usdc ∧
      s.ledger.account vaultTokenKey = some acc ∧ acc.amount.toNat < usdc.toNat := by
  simp only [redeemTradeable, bind_eq_error, loadVaultState_ne_code, loadVaultState_eq_ok,
    address_ne_code, loadMint_ne_code, seeds_ne_code, seeds_eq_ok, loadTokenAccount_ne_code,
    loadTokenAccount_eq_ok, tokenProgram_ne_code, cpi_eq_error, require_eq_error,
    Failure.code.injEq, reduceCtorEq, and_false, false_or] at h
  obtain ⟨vs, ⟨-, hvs, -⟩, _, -, _, -, _, -, _, -, _, hkey, acc, ⟨hacc, -⟩, _, -, _, -, _, -, _, -,
    _, -, L, -, h⟩ := h
  split at h
  · simp only [bind_eq_error, cpi_eq_error, pure_ne_error, reduceCtorEq, and_false, exists_false,
      or_self] at h
  · simp only [bind_eq_error, payoutFor_ne, cpi_eq_error, orFail_eq_error, require_eq_error,
      pure_ne_error, Failure.code.injEq, reduceCtorEq, and_false, and_true, false_or, or_false,
      exists_false, UInt64.le_iff_toNat_le, Nat.not_le] at h
    obtain ⟨usdc, hpay, hlt⟩ := h
    exact ⟨vs, acc, usdc, hvs, hpay, hkey ▸ hacc, hlt⟩

/-- A redemption overflows in the product, or after burning more than is on the books. -/
theorem redeem_overflow {a : Redeem K} (h : redeem a x s = .error (.code .overflow)) :
    ∃ vs, s.vaultState = some vs ∧ (2 ^ 64 ≤ x.toNat * vs.navPriceBps.toNat ∨
      ∃ L, a.cvaultMint = vs.cvaultMint ∧
        TokenProgram.burn s.ledger a.redeemerCvaultAccount a.cvaultMint a.redeemer x = some L ∧
        vs.totalSupply.toNat < x.toNat) := by
  simp only [redeem, bind_eq_error, loadVaultState_ne_code, loadVaultState_eq_ok,
    address_ne_code, address_eq_ok, loadMint_ne_code, seeds_ne_code, loadTokenAccount_ne_code,
    tokenProgram_ne_code, payoutFor_eq_error, cpi_eq_error, cpi_eq_ok, orFail_eq_error,
    require_eq_error, Checked.sub_eq_none, pure_ne_error, Failure.code.injEq, reduceCtorEq,
    and_false, and_true, false_or, or_false, exists_false] at h
  obtain ⟨vs, ⟨-, hvs, -⟩, _, hmint, _, -, _, -, acc, -, _, -, _, -, _, -, _, -, h⟩ := h
  refine ⟨vs, hvs, ?_⟩
  rcases h with hover | ⟨usdc, -, _, -, L, hburn, _, -, hlt⟩
  · exact .inl hover
  · exact .inr ⟨L, hmint, hburn, hlt⟩

/-- The direct exit overflows in the product, or after burning more than is on the books, or
when it would pay more than the recorded deposits. -/
theorem payOut_overflow {a : RedeemTradeable K}
    (h : redeemTradeable a x false s = .error (.code .overflow)) :
    ∃ vs, s.vaultState = some vs ∧ (2 ^ 64 ≤ x.toNat * vs.navPriceBps.toNat ∨
      ∃ L, ∃ usdc : UInt64, a.cvaultTradeMint = vs.cvaultTradeMint ∧
        TokenProgram.burn s.ledger a.userCvaultTradeAccount a.cvaultTradeMint a.authority x =
          some L ∧
        payoutFor x vs.navPriceBps = .ok usdc ∧
        (vs.totalDeposits.toNat < usdc.toNat ∨ vs.totalSupply.toNat < x.toNat)) := by
  simp only [redeemTradeable, Bool.false_eq_true, if_false, bind_eq_error,
    loadVaultState_ne_code, loadVaultState_eq_ok, address_ne_code, address_eq_ok,
    loadMint_ne_code, seeds_ne_code, loadTokenAccount_ne_code, tokenProgram_ne_code,
    payoutFor_eq_error, cpi_eq_error, cpi_eq_ok, orFail_eq_error, require_eq_error,
    Checked.sub_eq_none, pure_ne_error, Failure.code.injEq, reduceCtorEq, and_false, and_true,
    false_or, or_false, exists_false] at h
  obtain ⟨vs, ⟨-, hvs, -⟩, _, htrade, _, -, _, -, _, -, _, -, acc, -, _, -, _, -, _, -, _, -, _, -,
    L, hburn, h⟩ := h
  refine ⟨vs, hvs, ?_⟩
  rcases h with hover | ⟨usdc, hpay, _, -, _, -, h⟩
  · exact .inl hover
  · refine .inr ⟨L, usdc, htrade, hburn, hpay, ?_⟩
    rcases h with hd | ⟨_, -, hsup⟩
    · exact .inl hd
    · exact .inr hsup

end Failures

end OragamiVault
