/-
# `Oragami.OragamiVault.Guards` — what `deposit` decides on its own

`deposit` of oragami-vault checks its accounts, asks for a Travel Rule record and
calls the token program twice.  Everything else it decides itself, from the vault, the
credential, the amount and the time: `depositGuards`.  The guards stand on both sides
of the transfer, so a deposit they refuse may have moved tokens, which the transaction
takes back.  `deposit_eq_ok` puts the parts together.
-/
import Oragami.OragamiVault.Credentials

namespace OragamiVault

open Anchor Addresses

variable {K : Type} [DecidableEq K]

/-- The guards of `deposit` with the Travel Rule record left out, and the cVAULT they end with.
`stored` is the account the credential is looked for in. -/
def depositGuards (now : Int64) (payer : K) (amount : UInt64) (vs : VaultState K)
    (stored : Option (ComplianceCredential K)) : Ix UInt64 := do
  let cred ← orFail stored (.anchor .accountNotInitialized)
  require (vs.paused = false) .vaultPaused
  require (vs.minDeposit ≤ amount) .depositTooSmall
  require (amount ≤ vs.maxDeposit) .depositTooLarge
  credentialGate now payer cred
  let cvaultAmount ← sharesFor amount vs.navPriceBps
  require (0 < cvaultAmount) .depositTooSmall
  let _ ← orFail (Checked.add vs.totalDeposits amount) (.code .overflow)
  let _ ← orFail (Checked.add vs.totalSupply cvaultAmount) (.code .overflow)
  pure cvaultAmount

variable {now : Int64} {payer : K} {amount shares : UInt64} {vs : VaultState K}
  {stored : Option (ComplianceCredential K)}

theorem depositGuards_eq_ok :
    depositGuards now payer amount vs stored = .ok shares ↔
      vs.paused = false ∧ vs.minDeposit ≤ amount ∧ amount ≤ vs.maxDeposit ∧
        (∃ cred, stored = some cred ∧ credentialGate now payer cred = .ok ()) ∧
        sharesFor amount vs.navPriceBps = .ok shares ∧ 0 < shares ∧
        (∃ totalDeposits, Checked.add vs.totalDeposits amount = some totalDeposits) ∧
        ∃ totalSupply, Checked.add vs.totalSupply shares = some totalSupply := by
  simp only [depositGuards, bind_eq_ok, orFail_eq_ok, require_eq_ok, pure_eq_ok]
  constructor
  · rintro ⟨cred, hcred, _, hpaused, _, hmin, _, hmax, _, hgate, x, hx, _, hpos, td, htd, ts, hts,
      rfl⟩
    exact ⟨hpaused, hmin, hmax, ⟨cred, hcred, hgate⟩, hx, hpos, ⟨td, htd⟩, ⟨ts, hts⟩⟩
  · rintro ⟨hpaused, hmin, hmax, ⟨cred, hcred, hgate⟩, hx, hpos, ⟨td, htd⟩, ts, hts⟩
    exact ⟨cred, hcred, (), hpaused, (), hmin, (), hmax, (), hgate, shares, hx, (), hpos, td, htd,
      ts, hts, rfl⟩

/-- The numbers and the credential they let through. -/
structure Accepted (now : Int64) (payer : K) (amount : UInt64) (vs : VaultState K)
    (cred : ComplianceCredential K) : Prop where
  unpaused : vs.paused = false
  minDeposit : vs.minDeposit ≤ amount
  maxDeposit : amount ≤ vs.maxDeposit
  status : cred.status = credentialStatusActive
  unexpired : now < cred.expiresAt
  wallet : cred.wallet = payer
  /-- The product of the amount and the denominator fits, -/
  fits : amount.toNat * 10000 < 2 ^ 64
  /-- at least one share is bought, -/
  nav : vs.navPriceBps ≠ 0
  nonzero : vs.navPriceBps.toNat ≤ amount.toNat * 10000
  /-- and there is room for the totals. -/
  totalDeposits : vs.totalDeposits.toNat + amount.toNat < 2 ^ 64
  totalSupply : vs.totalSupply.toNat + amount.toNat * 10000 / vs.navPriceBps.toNat < 2 ^ 64

/-- The guards in numbers. -/
theorem depositGuards_iff :
    (∃ shares, depositGuards now payer amount vs stored = .ok shares) ↔
      ∃ cred, stored = some cred ∧ Accepted now payer amount vs cred := by
  simp only [depositGuards_eq_ok, credentialGate_eq_ok, Checked.exists_add, sharesFor_eq_ok]
  constructor
  · rintro ⟨shares, hpaused, hmin, hmax, ⟨cred, hcred, hstatus, hexp, hwallet⟩, hshares, hpos, htd,
      hts⟩
    obtain ⟨hfits, hnav, hq⟩ := hshares
    have hpos : 0 < shares.toNat := hpos
    rw [hq] at hpos hts
    have hzero : vs.navPriceBps ≠ 0 := fun hzero => hnav (by rw [hzero]; rfl)
    exact ⟨cred, hcred, hpaused, hmin, hmax, hstatus, hexp, hwallet, hfits, hzero,
      (Nat.div_pos_iff.mp hpos).2, htd, hts⟩
  · rintro ⟨cred, hcred, h⟩
    have hnav : vs.navPriceBps.toNat ≠ 0 := fun hzero => h.nav (UInt64.toNat_inj.mp hzero)
    obtain ⟨shares, hshares⟩ : ∃ shares, sharesFor amount vs.navPriceBps = .ok shares :=
      exists_mulDiv h.fits hnav
    obtain ⟨hfits, -, hq⟩ := sharesFor_eq_ok.mp hshares
    refine ⟨shares, h.unpaused, h.minDeposit, h.maxDeposit,
      ⟨cred, hcred, h.status, h.unexpired, h.wallet⟩, ⟨hfits, hnav, hq⟩, ?_, h.totalDeposits, ?_⟩
    · show 0 < shares.toNat
      rw [hq]
      exact Nat.div_pos h.nonzero (Nat.pos_of_ne_zero hnav)
    · rw [hq]
      exact h.totalSupply

variable [Addresses K] [Deployment K] [TokenProgram K]

/-- The accounts of a deposit are the ones it declares. -/
structure DepositAccounts (s : State K) (a : Deposit K) (vs : VaultState K) : Prop where
  vaultState : s.loadVaultState a.vaultState = .ok vs
  cvaultMint : a.cvaultMint = vs.cvaultMint
  mint : ∃ M, loadMint (ε := ErrorCode) s.ledger a.cvaultMint = .ok M
  vaultTokenAccount : a.vaultTokenAccount = vaultTokenKey
  custody : ∃ acc, loadTokenAccount (ε := ErrorCode) s.ledger a.vaultTokenAccount = .ok acc
  depositAccount : ∃ acc, loadTokenAccount (ε := ErrorCode) s.ledger a.payerDepositAccount = .ok acc
  cvaultAccount : ∃ acc, loadTokenAccount (ε := ErrorCode) s.ledger a.payerCvaultAccount = .ok acc
  credential : ∀ cred, s.credentials a.investorCredential = some cred → a.investorCredential =
    derive programId [.text complianceCredentialSeed, .key a.payer] cred.bump
  tokenProgram : a.tokenProgram = TokenProgram.id

/-- A deposit goes through if and only if its accounts, its guards and the Travel Rule gate let
it and the token program makes both calls. -/
theorem deposit_eq_ok {a : Deposit K} {s : State K} {out : Outcome K} :
    deposit now a amount s = .ok out ↔
      ∃ vs tr travelRules shares L L' totalDeposits totalSupply,
        DepositAccounts s a vs ∧ loadTravelRule s a.travelRuleData = .ok tr ∧
        depositGuards now a.payer amount vs (s.credentials a.investorCredential) = .ok shares ∧
        travelRuleGate amount a.payer tr s.travelRules = .ok travelRules ∧
        TokenProgram.transfer s.ledger a.payerDepositAccount a.vaultTokenAccount a.payer amount =
          some L ∧
        TokenProgram.mintTo L a.cvaultMint a.payerCvaultAccount a.vaultState shares = some L' ∧
        Checked.add vs.totalDeposits amount = some totalDeposits ∧
        Checked.add vs.totalSupply shares = some totalSupply ∧
        out = ({ s with
            vaultState := some { vs with totalDeposits, totalSupply }
            travelRules
            ledger := L' },
          some (.depositMade a.payer amount shares now)) := by
  simp only [deposit, depositGuards_eq_ok, bind_eq_ok, address_eq_ok, seeds_eq_ok, orFail_eq_ok,
    require_eq_ok, tokenProgram_eq_ok, cpi_eq_ok, pure_eq_ok]
  constructor
  · -- accounts, guards, then the calls and totals
    rintro ⟨vs, hvs, _, hmint, M, hM, _, hvault, acc, hacc, src, hsrc, dst, hdst, h⟩
    obtain ⟨cred, hcred, _, hseeds, tr, htr, _, htp, _, hpaused, _, hmin, _, hmax, _, hgate, h⟩ := h
    obtain ⟨rules, hrules, L, htransfer, shares, hshares, _, hpos, L', hmintTo, h⟩ := h
    obtain ⟨td, htd, ts, hts, rfl⟩ := h
    have hcredential : ∀ c, s.credentials a.investorCredential = some c → a.investorCredential =
        derive programId [.text complianceCredentialSeed, .key a.payer] c.bump := by
      intro c hc
      cases hcred.symm.trans hc
      exact hseeds
    exact ⟨vs, tr, rules, shares, L, L', td, ts,
      ⟨hvs, hmint, ⟨M, hM⟩, hvault, ⟨acc, hacc⟩, ⟨src, hsrc⟩, ⟨dst, hdst⟩, hcredential, htp⟩, htr,
      ⟨hpaused, hmin, hmax, ⟨cred, hcred, hgate⟩, hshares, hpos, ⟨td, htd⟩, ⟨ts, hts⟩⟩, hrules,
      htransfer, hmintTo, htd, hts, rfl⟩
  · rintro ⟨vs, tr, rules, shares, L, L', td, ts, ha, htr, hguards, hrules, htransfer, hmintTo, htd,
      hts, rfl⟩
    obtain ⟨M, hM⟩ := ha.mint
    obtain ⟨acc, hacc⟩ := ha.custody
    obtain ⟨src, hsrc⟩ := ha.depositAccount
    obtain ⟨dst, hdst⟩ := ha.cvaultAccount
    obtain ⟨hpaused, hmin, hmax, ⟨cred, hcred, hgate⟩, hshares, hpos, -, -⟩ := hguards
    exact ⟨vs, ha.vaultState, (), ha.cvaultMint, M, hM, (), ha.vaultTokenAccount, acc, hacc, src,
      hsrc, dst, hdst, cred, hcred, (), ha.credential cred hcred, tr, htr, (), ha.tokenProgram, (),
      hpaused, (), hmin, (), hmax, (), hgate, rules, hrules, L, htransfer, shares, hshares, (), hpos,
      L', hmintTo, td, htd, ts, hts, rfl⟩

end OragamiVault
