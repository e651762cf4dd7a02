/-
# `Oragami.MultiAssetVault.Guards` — what `deposit` asks before it moves tokens

`deposit` checks its accounts, then the vault, the credential and the Travel Rule
record, and prices the shares; only then does it call the token program.
`depositGuards` is that middle part with the record left out.  It depends on the
vault, the wallet and the amount alone, so anybody can evaluate it ahead of the
transaction.  `deposit_eq_ok` puts the parts back together.
-/
import Oragami.MultiAssetVault.Instructions

namespace MultiAssetVault

open Anchor Addresses

variable {K : Type} [DecidableEq K] [Addresses K] [Deployment K]

/-- The guards of `deposit` up to the transfer, the Travel Rule record apart, and the shares
they end with. -/
def depositGuards (now : Int64) (view : View K) (credential depositor : K) (amount : UInt64)
    (v : AssetVault K) : Mx UInt64 := do
  require (v.paused = false) .vaultPaused
  require (v.minDeposit ≤ amount) .depositTooSmall
  require (amount ≤ v.maxDeposit) .depositTooLarge
  let cred ← credentialGate now view credential depositor .credentialNotActive .credentialExpired
  require (cred.wallet = depositor) .credentialWalletMismatch
  let shares ← sharesFor amount v.navPriceBps
  require (0 < shares) .zeroShares
  pure shares

theorem depositGuards_eq_ok {now : Int64} {view : View K} {k w : K} {amount shares : UInt64}
    {v : AssetVault K} :
    depositGuards now view k w amount v = .ok shares ↔
      v.paused = false ∧ v.minDeposit ≤ amount ∧ amount ≤ v.maxDeposit ∧
        (∃ cred, Credentialed now view k w cred ∧ cred.wallet = w) ∧
        sharesFor amount v.navPriceBps = .ok shares ∧ 0 < shares := by
  simp only [depositGuards, bind_eq_ok, require_eq_ok, credentialGate_eq_ok, pure_eq_ok]
  constructor
  · rintro ⟨_, hpaused, _, hmin, _, hmax, cred, hcred, _, hwallet, x, hx, _, hpos, rfl⟩
    exact ⟨hpaused, hmin, hmax, ⟨cred, hcred, hwallet⟩, hx, hpos⟩
  · rintro ⟨hpaused, hmin, hmax, ⟨cred, hcred, hwallet⟩, hx, hpos⟩
    exact ⟨(), hpaused, (), hmin, (), hmax, cred, hcred, (), hwallet, shares, hx, (), hpos, rfl⟩

omit [Addresses K] [Deployment K] in
/-- Without a record the Travel Rule gate stops the deposits it asks one of. -/
theorem travelRuleGate_none {required : Bool} {amount : UInt64} {depositor : K}
    {rules : K → Option (TravelRuleData K)} :
    travelRuleGate required amount depositor none rules = .error (.code .travelRuleRequired) ↔
      required = true ∧ travelRuleThreshold ≤ amount := by
  unfold travelRuleGate
  split
  · next h => exact ⟨fun _ => h, fun _ => rfl⟩
  · next h =>
      constructor
      · intro hok
        cases hok
      · intro h'
        exact absurd h' h

variable [TokenProgram K]

/-- The accounts of a deposit are the ones it declares, none of them twice. -/
structure DepositAccounts (s : State K) (a : Deposit K) (v : AssetVault K) : Prop where
  vault : s.loadVault a.assetVault = .ok v
  shareMint : a.shareMint = v.shareMint
  mint : ∃ M, loadMint (ε := VaultError) s.ledger a.shareMint = .ok M
  vaultTokenAccount : a.vaultTokenAccount = v.vaultTokenAccount
  custody : ∃ acc, loadTokenAccount (ε := VaultError) s.ledger a.vaultTokenAccount = .ok acc
  assetAccount : ∃ acc, loadTokenAccount (ε := VaultError) s.ledger a.depositorAssetAccount = .ok acc
  shareAccount : ∃ acc, loadTokenAccount (ε := VaultError) s.ledger a.depositorShareAccount = .ok acc
  credential : a.credential = gateCredentialKey a.depositor
  tokenProgram : a.tokenProgram = TokenProgram.id
  distinct : a.mutable.Nodup

/-- A deposit goes through if and only if its accounts, its guards and the Travel Rule gate let
it, the token program makes both calls, and the totals have room. -/
theorem deposit_eq_ok {now : Int64} {view : View K} {a : Deposit K} {amount : UInt64}
    {s : State K} {out : Outcome K} :
    deposit now view a amount s = .ok out ↔
      ∃ v tr rules shares L L' totalDeposits totalSupply,
        DepositAccounts s a v ∧ loadTravelRule s a.travelRuleData = .ok tr ∧
        depositGuards now view a.credential a.depositor amount v = .ok shares ∧
        travelRuleGate v.travelRuleRequired amount a.depositor tr s.travelRules = .ok rules ∧
        TokenProgram.transfer s.ledger a.depositorAssetAccount a.vaultTokenAccount a.depositor
          amount = some L ∧
        TokenProgram.mintTo L a.shareMint a.depositorShareAccount a.assetVault shares = some L' ∧
        Checked.add v.totalDeposits amount = some totalDeposits ∧
        Checked.add v.totalSupply shares = some totalSupply ∧
        out = ({ s with
            vaults := Function.update s.vaults a.assetVault
              (some { v with totalDeposits, totalSupply })
            travelRules := rules
            ledger := L' },
          some (.depositMade a.depositor v.assetMint amount shares v.navPriceBps now)) := by
  simp only [deposit, depositGuards_eq_ok, bind_eq_ok, address_eq_ok, seeds_eq_ok, orFail_eq_ok,
    require_eq_ok, tokenProgram_eq_ok, distinct_eq_ok, cpi_eq_ok, credentialGate_eq_ok, pure_eq_ok]
  constructor
  · rintro ⟨v, hv, _, hmint, M, hM, _, hvault, acc, hacc, src, hsrc, dst, hdst, _, hcred, tr, htr,
      _, htp, _, hdistinct, h⟩
    obtain ⟨_, hpaused, _, hmin, _, hmax, cred, hc, _, hwallet, rules, hrules, h⟩ := h
    obtain ⟨shares, hshares, _, hpos, L, htransfer, L', hmintTo, td, htd, ts, hts, rfl⟩ := h
    exact ⟨v, tr, rules, shares, L, L', td, ts,
      ⟨hv, hmint, ⟨M, hM⟩, hvault, ⟨acc, hacc⟩, ⟨src, hsrc⟩, ⟨dst, hdst⟩, hcred, htp, hdistinct⟩,
      htr, ⟨hpaused, hmin, hmax, ⟨cred, hc, hwallet⟩, hshares, hpos⟩, hrules, htransfer, hmintTo, htd,
      hts, rfl⟩
  · rintro ⟨v, tr, rules, shares, L, L', td, ts, ha, htr, hguards, hrules, htransfer, hmintTo, htd,
      hts, rfl⟩
    obtain ⟨M, hM⟩ := ha.mint
    obtain ⟨acc, hacc⟩ := ha.custody
    obtain ⟨src, hsrc⟩ := ha.assetAccount
    obtain ⟨dst, hdst⟩ := ha.shareAccount
    obtain ⟨hpaused, hmin, hmax, ⟨cred, hc, hwallet⟩, hshares, hpos⟩ := hguards
    exact ⟨v, ha.vault, (), ha.shareMint, M, hM, (), ha.vaultTokenAccount, acc, hacc, src, hsrc, dst,
      hdst, (), ha.credential, tr, htr, (), ha.tokenProgram, (), ha.distinct, (), hpaused, (), hmin,
      (), hmax, cred, hc, (), hwallet, rules, hrules, shares, hshares, (), hpos, L, htransfer, L',
      hmintTo, td, htd, ts, hts, rfl⟩

end MultiAssetVault
