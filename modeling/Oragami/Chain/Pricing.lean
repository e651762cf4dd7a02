/-
# `Oragami.Chain.Pricing` — what the two vaults compute from prices and ratios

Both programs price deposits and redemptions the same way, as `sharesFor` and
`payoutFor`: a 64-bit product, then a division.  So their conversions are fair in
the sense of `Conversion.Fair` at every NAV, and they answer the exact quotient or
refuse, and refuse exactly where the product leaves 64 bits — which it does long
before the quotient would.

The two ratio checks of the first vault compare products in the same way; each
either compares them exactly or reports that one does not fit.
-/
import Oragami.Lib.Conversion
import Oragami.OragamiVault.Mandate
import Oragami.MultiAssetVault.Instructions

namespace Pricing

open Anchor Addresses

/-! ## Fair conversions -/

section Fairness

/-- At any NAV both programs convert fairly between amounts and shares. -/
theorem conversions_fair (nav : UInt64) :
    Conversion.Fair 10000 nav (OragamiVault.sharesFor · nav) (OragamiVault.payoutFor · nav) ∧
      Conversion.Fair 10000 nav (MultiAssetVault.sharesFor · nav)
        (MultiAssetVault.payoutFor · nav) := by
  constructor
  · exact .of_spec (by decide)
      (fun _ _ => OragamiVault.sharesFor_eq_ok.trans and_assoc.symm)
      (fun _ _ => OragamiVault.payoutFor_eq_ok)
  · exact .of_spec (by decide)
      (fun _ _ => MultiAssetVault.sharesFor_eq_ok.trans and_assoc.symm)
      (fun _ _ => MultiAssetVault.payoutFor_eq_ok)

end Fairness

/-! ## What is refused for its size -/

/-- A quotient computed in 64 bits: the exact one where the numerator fits, else `overflow`. -/
structure Quotient {ε : Type} (r : Except (Failure ε) UInt64) (overflow : ε) (num den : Nat) :
    Prop where
  exact : num < 2 ^ 64 → ∃ x, r = .ok x ∧ x.toNat = num / den
  overflows : r = .error (.code overflow) ↔ 2 ^ 64 ≤ num

/-- A comparison made in 64 bits: whatever it answers, its terms fit and the answer is right;
where it reports `overflow` they do not. -/
structure Decides {ε α : Type} (r : Except (Failure ε) α) (overflow failed : ε)
    (fits holds : Prop) : Prop where
  accepted : (∃ a, r = .ok a) → fits ∧ holds
  refused : r = .error (.code failed) → fits ∧ ¬ holds
  overflows : r = .error (.code overflow) → ¬ fits

theorem Quotient.of_mulDiv {ε : Type} {x y z : UInt64} {e : ε} (hz : z ≠ 0) :
    Quotient (orFail (Checked.mul x y) (.code e) >>= fun p => orFail (Checked.div p z) (.code e))
      e (x.toNat * y.toNat) z.toNat where
  exact := by
    intro hlt
    have hz' : z.toNat ≠ 0 := fun h => hz (Checked.eq_iff_toNat.mpr h)
    obtain ⟨q, hq⟩ := exists_mulDiv hlt hz'
    exact ⟨q, hq, (mulDiv_eq_ok.mp hq).2.2⟩
  overflows := by
    rw [mulDiv_eq_error hz]
    exact and_iff_left rfl

section Ratios

variable {K : Type} [DecidableEq K] [Addresses K] [Deployment K]
variable {s : OragamiVault.State K} {vs : OragamiVault.VaultState K}
variable {m : OragamiVault.VaultMandate K}

open OragamiVault

theorem verifyProofOfReserve_decides {now : Int64} {a : VerifyProofOfReserve K}
    (hvs : s.vaultState = some vs) (hm : s.vaultMandate = some m) :
    Decides (verifyProofOfReserve now a s) .overflow .proofOfReserveFailed
      (reserves s.ledger vs * 10000 < 2 ^ 64 ∧
        vs.totalDeposits.toNat * m.minCollateralRatioBps.toNat < 2 ^ 64)
      (vs.totalDeposits.toNat * m.minCollateralRatioBps.toNat ≤ reserves s.ledger vs * 10000) where
  accepted := by
    rintro ⟨⟨s', ev⟩, h⟩
    obtain ⟨-, vs', m', _, _, total, hv, hcheck, -⟩ := verifyProofOfReserve_checked h
    cases hvs.symm.trans hv.vaultState
    cases hm.symm.trans hv.vaultMandate
    have hsum : total.toNat = reserves s.ledger vs := hv.counted
    have hfits := mt reserveCheck_overflow.mpr (by rw [hcheck]; exact nofun)
    rw [← hsum]
    exact ⟨by omega, hv.covered⟩
  refused := by
    intro h
    obtain ⟨vs', m', _, hvs', hm', -, ⟨hcode, -⟩ | ⟨total, hsum, hcheck⟩⟩ :=
      verifyProofOfReserve_comparing (.inl rfl) h
    · cases hcode
    cases hvs.symm.trans hvs'
    cases hm.symm.trans hm'
    have hfits := mt reserveCheck_overflow.mpr (by rw [hcheck]; exact nofun)
    have hlt := reserveCheck_failed hcheck
    rw [← hsum]
    exact ⟨by omega, by omega⟩
  overflows := by
    intro h
    obtain ⟨vs', m', _, hvs', hm', -, ⟨-, hge⟩ | ⟨total, hsum, hcheck⟩⟩ :=
      verifyProofOfReserve_comparing (.inr rfl) h
    · cases hvs.symm.trans hvs'
      omega
    cases hvs.symm.trans hvs'
    cases hm.symm.trans hm'
    have hge := reserveCheck_overflow.mp hcheck
    rw [← hsum]
    omega

/-! An end of the band is compared as its product is. -/

theorem le_bandEnd {deposits bps x amount : UInt64} (h : bandEnd deposits bps = .ok x) :
    amount ≤ x ↔ amount.toNat * 10000 ≤ deposits.toNat * bps.toNat := by
  rw [UInt64.le_iff_toNat_le, bandEnd_eq_ok h, Nat.le_div_iff_mul_le (by decide)]

theorem bandEnd_le {deposits bps x amount : UInt64} (h : bandEnd deposits bps = .ok x) :
    x ≤ amount ↔ deposits.toNat * bps.toNat < (amount.toNat + 1) * 10000 := by
  rw [UInt64.le_iff_toNat_le, bandEnd_eq_ok h, ← Nat.lt_succ_iff,
    Nat.div_lt_iff_lt_mul (by decide)]

theorem bandEnd_fits {deposits bps x : UInt64} (h : bandEnd deposits bps = .ok x) :
    deposits.toNat * bps.toNat < 2 ^ 64 := (mulDiv_eq_ok.mp h).1

omit [DecidableEq K] [Addresses K] [Deployment K] in
theorem top_bps : (Checked.satSub 10000 vs.usxAllocationBps.toUInt64).toNat =
    10000 - vs.usxAllocationBps.toNat := by
  rw [Checked.toNat_satSub, UInt16.toNat_toUInt64]
  rfl

/-- An assertion that failed at the band failed in computing an end or at one of them. -/
theorem assertLiquidityAllocation_band {a : AssertLiquidityAllocation K} {acc : TokenAccount K}
    {c : ErrorCode} (hvs : s.vaultState = some vs) (hm : s.vaultMandate = some m)
    (hacc : s.ledger.account vs.vaultTokenAccount = some acc)
    (hactive : m.liquidityEnforcementActive = true) (hmandate : .invalidMandate ≠ c)
    (haccount : .invalidVaultTokenAccount ≠ c)
    (h : assertLiquidityAllocation a s = .error (.code c)) :
    (∃ bps ∈ [Checked.satSub 10000 vs.usxAllocationBps.toUInt64, m.minLiquidityBufferBps.toUInt64],
        bandEnd vs.totalDeposits bps = .error (.code c)) ∨
      ∃ top bottom,
        bandEnd vs.totalDeposits (Checked.satSub 10000 vs.usxAllocationBps.toUInt64) = .ok top ∧
        bandEnd vs.totalDeposits m.minLiquidityBufferBps.toUInt64 = .ok bottom ∧
        c = .liquidityAllocationBreached ∧ ¬ (bottom ≤ acc.amount ∧ acc.amount ≤ top) := by
  simp only [assertLiquidityAllocation, bind_eq_error, loadVaultState_ne_code,
    loadVaultState_eq_ok, State.loadMandate, load_ne hmandate, address_ne_code, address_eq_ok,
    loadTokenAccount_ne_code, loadTokenAccount_eq_ok, require_eq_error, Failure.code.injEq,
    hmandate, and_false, false_or] at h
  obtain ⟨vs', ⟨-, hvs', -⟩, m', hm', _, haddr, acc', ⟨hacc', -⟩, _, -, h⟩ := h
  cases hvs.symm.trans hvs'
  cases hm.symm.trans (loadOfVault_stored hm')
  cases hacc.symm.trans (haddr ▸ hacc')
  simp only [hactive, if_true, bind_eq_error, require_eq_error, Failure.code.injEq, haccount,
    pure_ne_error, and_false, exists_false, false_or, or_false] at h
  obtain ⟨_, -, htop | ⟨top, htop, hbottom | ⟨bottom, hbottom, h⟩⟩⟩ := h
  · exact .inl ⟨_, List.mem_cons_self, htop⟩
  · exact .inl ⟨_, List.mem_cons_of_mem _ List.mem_cons_self, hbottom⟩
  · refine .inr ⟨top, bottom, htop, hbottom, ?_⟩
    rcases h with ⟨hgt, rfl⟩ | ⟨_, -, hlt, rfl⟩
    · exact ⟨rfl, fun hin => hgt hin.2⟩
    · exact ⟨rfl, fun hin => hlt hin.1⟩

theorem assertLiquidityAllocation_decides {a : AssertLiquidityAllocation K}
    {acc : TokenAccount K} (hvs : s.vaultState = some vs) (hm : s.vaultMandate = some m)
    (hacc : s.ledger.account vs.vaultTokenAccount = some acc)
    (hactive : m.liquidityEnforcementActive = true) :
    Decides (assertLiquidityAllocation a s) .overflow .liquidityAllocationBreached
      (vs.totalDeposits.toNat * (10000 - vs.usxAllocationBps.toNat) < 2 ^ 64 ∧
        vs.totalDeposits.toNat * m.minLiquidityBufferBps.toNat < 2 ^ 64)
      (vs.totalDeposits.toNat * m.minLiquidityBufferBps.toNat < (acc.amount.toNat + 1) * 10000 ∧
        acc.amount.toNat * 10000 ≤
          vs.totalDeposits.toNat * (10000 - vs.usxAllocationBps.toNat)) where
  accepted := by
    rintro ⟨out, h⟩
    simp only [assertLiquidityAllocation, bind_eq_ok, loadVaultState_eq_ok, address_eq_ok,
      loadTokenAccount_eq_ok] at h
    obtain ⟨vs', ⟨-, hvs', -⟩, m', hm', _, haddr, acc', ⟨hacc', -⟩, _, -, h⟩ := h
    cases hvs.symm.trans hvs'
    cases hm.symm.trans (loadOfVault_stored hm')
    cases hacc.symm.trans (haddr ▸ hacc')
    simp only [hactive, if_true, bind_eq_ok, require_eq_ok] at h
    obtain ⟨_, -, top, htop, bottom, hbottom, _, hle, _, hge, -⟩ := h
    rw [← top_bps, ← UInt16.toNat_toUInt64 m.minLiquidityBufferBps]
    exact ⟨⟨bandEnd_fits htop, bandEnd_fits hbottom⟩, (bandEnd_le hbottom).mp hge,
      (le_bandEnd htop).mp hle⟩
  refused := by
    intro h
    rw [← top_bps, ← UInt16.toNat_toUInt64 m.minLiquidityBufferBps]
    rcases assertLiquidityAllocation_band hvs hm hacc hactive (by decide) (by decide) h with
      ⟨_, -, hend⟩ | ⟨top, bottom, htop, hbottom, -, hout⟩
    · cases (bandEnd_eq_error.mp hend).2
    · refine ⟨⟨bandEnd_fits htop, bandEnd_fits hbottom⟩, ?_⟩
      rwa [bandEnd_le hbottom, le_bandEnd htop] at hout
  overflows := by
    intro h
    rw [← top_bps, ← UInt16.toNat_toUInt64 m.minLiquidityBufferBps]
    rintro ⟨htop, hbottom⟩
    rcases assertLiquidityAllocation_band hvs hm hacc hactive (by decide) (by decide) h with
      ⟨bps, hbps, hend⟩ | ⟨_, _, -, -, hcode, -⟩
    · have hge := (bandEnd_eq_error.mp hend).1
      rcases List.mem_pair.mp hbps with rfl | rfl
      · exact absurd htop (Nat.not_lt.mpr hge)
      · exact absurd hbottom (Nat.not_lt.mpr hge)
    · cases hcode

/-- A price is answered with the exact quotient or, where the product leaves 64 bits, refused;
a ratio check whose terms fit answers the exact inequality, and reports overflow only where
one does not. -/
theorem overflow_exact :
    (∀ amount nav : UInt64, nav ≠ 0 →
      Quotient (OragamiVault.sharesFor amount nav) .overflow (amount.toNat * 10000) nav.toNat ∧
      Quotient (MultiAssetVault.sharesFor amount nav) .overflow (amount.toNat * 10000)
        nav.toNat) ∧
    (∀ x nav : UInt64,
      Quotient (OragamiVault.payoutFor x nav) .overflow (x.toNat * nav.toNat) 10000 ∧
      Quotient (MultiAssetVault.payoutFor x nav) .overflow (x.toNat * nav.toNat) 10000) ∧
    ∀ (s : State K) (vs : VaultState K) (m : VaultMandate K), s.vaultState = some vs →
      s.vaultMandate = some m →
      (∀ now a, Decides (verifyProofOfReserve now a s) .overflow .proofOfReserveFailed
        (reserves s.ledger vs * 10000 < 2 ^ 64 ∧
          vs.totalDeposits.toNat * m.minCollateralRatioBps.toNat < 2 ^ 64)
        (vs.totalDeposits.toNat * m.minCollateralRatioBps.toNat ≤
          reserves s.ledger vs * 10000)) ∧
      ∀ a acc, s.ledger.account vs.vaultTokenAccount = some acc →
        m.liquidityEnforcementActive = true →
        Decides (assertLiquidityAllocation a s) .overflow .liquidityAllocationBreached
          (vs.totalDeposits.toNat * (10000 - vs.usxAllocationBps.toNat) < 2 ^ 64 ∧
            vs.totalDeposits.toNat * m.minLiquidityBufferBps.toNat < 2 ^ 64)
          (vs.totalDeposits.toNat * m.minLiquidityBufferBps.toNat <
              (acc.amount.toNat + 1) * 10000 ∧
            acc.amount.toNat * 10000 ≤
              vs.totalDeposits.toNat * (10000 - vs.usxAllocationBps.toNat)) := by
  refine ⟨?_, ?_, ?_⟩
  · intro amount nav hnav
    exact ⟨.of_mulDiv hnav, .of_mulDiv hnav⟩
  · intro x nav
    exact ⟨.of_mulDiv (by decide), .of_mulDiv (by decide)⟩
  · intro s vs m hvs hm
    refine ⟨fun now a => verifyProofOfReserve_decides hvs hm, ?_⟩
    intro a acc hacc hactive
    exact assertLiquidityAllocation_decides hvs hm hacc hactive

end Ratios

open OragamiVault OragamiVault.Cluster in
theorem overflow_exact_banded :
    Quotient (OragamiVault.sharesFor 5 3) .overflow 50000 3 ∧
      ∃ vs m, ∃ acc : TokenAccount FreeKey,
        (final (.genesis ledger) banded).vaultState = some vs ∧
        (final (.genesis ledger) banded).vaultMandate = some m ∧
        Decides (verifyProofOfReserve 0 reserveAccounts (final (.genesis ledger) banded))
          .overflow .proofOfReserveFailed
          (reserves (final (.genesis ledger) banded).ledger vs * 10000 < 2 ^ 64 ∧
            vs.totalDeposits.toNat * m.minCollateralRatioBps.toNat < 2 ^ 64)
          (vs.totalDeposits.toNat * m.minCollateralRatioBps.toNat ≤
            reserves (final (.genesis ledger) banded).ledger vs * 10000) ∧
        Decides (assertLiquidityAllocation bandAccounts (final (.genesis ledger) banded))
          .overflow .liquidityAllocationBreached
          (vs.totalDeposits.toNat * (10000 - vs.usxAllocationBps.toNat) < 2 ^ 64 ∧
            vs.totalDeposits.toNat * m.minLiquidityBufferBps.toNat < 2 ^ 64)
          (vs.totalDeposits.toNat * m.minLiquidityBufferBps.toNat <
              (acc.amount.toNat + 1) * 10000 ∧
            acc.amount.toNat * 10000 ≤
              vs.totalDeposits.toNat * (10000 - vs.usxAllocationBps.toNat)) := by
  obtain ⟨vs, hvs, hkey⟩ := Option.map_eq_some_iff.mp
    (show (final (.genesis ledger) banded).vaultState.map (·.vaultTokenAccount) =
      some vaultTokenKey from rfl)
  obtain ⟨m, hm, hactive⟩ := Option.map_eq_some_iff.mp
    (show (final (.genesis ledger) banded).vaultMandate.map (·.liquidityEnforcementActive) =
      some true from rfl)
  obtain ⟨acc, hacc⟩ := Option.isSome_iff_exists.mp
    (show ((final (.genesis ledger) banded).ledger.account vaultTokenKey).isSome = true from rfl)
  obtain ⟨hshares, -, hratios⟩ := overflow_exact (K := FreeKey)
  obtain ⟨hproof, hband⟩ := hratios _ vs m hvs hm
  rw [← hkey] at hacc
  exact ⟨(hshares 5 3 (by decide)).1, vs, m, acc, hvs, hm, hproof 0 reserveAccounts,
    hband bandAccounts acc hacc hactive⟩

/-- Quotients that fit, and inequalities that hold, are refused for a product that does not. -/
theorem overflow_of_fitting :
    (2000000000000000 * 10000 / 20000 < 2 ^ 64 ∧
      OragamiVault.sharesFor 2000000000000000 20000 = .error (.code .overflow) ∧
      MultiAssetVault.sharesFor 2000000000000000 20000 = .error (.code .overflow)) ∧
    (2000000000000000 * 10000 / 10000 < 2 ^ 64 ∧
      OragamiVault.payoutFor 2000000000000000 10000 = .error (.code .overflow) ∧
      MultiAssetVault.payoutFor 2000000000000000 10000 = .error (.code .overflow)) ∧
    (1 * 10000 ≤ 2000000000000000 * 10000 ∧
      OragamiVault.reserveCheck 2000000000000000 1 10000 = .error (.code .overflow)) ∧
    OragamiVault.bandEnd 2000000000000000 10000 = .error (.code .overflow) := by
  refine ⟨⟨?_, rfl, rfl⟩, ⟨?_, rfl, rfl⟩, ⟨?_, rfl⟩, rfl⟩
  all_goals norm_num

end Pricing
