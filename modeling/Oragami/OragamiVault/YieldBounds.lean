/-
# `Oragami.OragamiVault.YieldBounds` — how close the yield crank comes

`process_yield` divides three times on the way to a day's yield and multiplies the
result by the days.  Each division loses less than one; the rates that follow are at
most one, so no loss is made larger, and a day is short by less than two units.
Within the bounds that rates and totals have in use, every product fits and the
crank goes through.
-/
import Mathlib.Algebra.Order.Field.Rat
import Mathlib.Tactic.FieldSimp
import Mathlib.Tactic.Linarith
import Mathlib.Tactic.Positivity
import Oragami.OragamiVault.Yield

namespace OragamiVault

open Anchor

/-! ## A day's yield -/

/-- What `dailyYield` computes. -/
def dailyFloor (deposits alloc apy : Nat) : Nat := deposits * alloc / 10000 * apy / 10000 / 365

theorem dailyFloor_mul_le (deposits alloc apy : Nat) :
    dailyFloor deposits alloc apy * (10 ^ 8 * 365) ≤ deposits * alloc * apy := by
  have hslice := Nat.div_mul_le_self (deposits * alloc) 10000
  have hyear := Nat.div_mul_le_self (deposits * alloc / 10000 * apy) 10000
  have hday := Nat.div_mul_le_self (deposits * alloc / 10000 * apy / 10000) 365
  have hrate := Nat.mul_le_mul_right apy hslice
  unfold dailyFloor
  linarith

/-- Three divisions are short by less than two, as the rate applied between them is at most
one. -/
theorem lt_dailyFloor_mul {apy : Nat} (hapy : apy ≤ 10000) (deposits alloc : Nat) :
    deposits * alloc * apy < (dailyFloor deposits alloc apy + 2) * (10 ^ 8 * 365) := by
  have hslice : deposits * alloc < (deposits * alloc / 10000 + 1) * 10000 :=
    Nat.lt_mul_of_div_lt (Nat.lt_succ_self _) (by decide)
  have hyear : deposits * alloc / 10000 * apy <
      (deposits * alloc / 10000 * apy / 10000 + 1) * 10000 :=
    Nat.lt_mul_of_div_lt (Nat.lt_succ_self _) (by decide)
  have hday : deposits * alloc / 10000 * apy / 10000 <
      (deposits * alloc / 10000 * apy / 10000 / 365 + 1) * 365 :=
    Nat.lt_mul_of_div_lt (Nat.lt_succ_self _) (by decide)
  have hrate := Nat.mul_le_mul_right apy hslice.le
  unfold dailyFloor
  linarith

theorem dailyFloor_le {alloc apy : Nat} (halloc : alloc ≤ 10000) (hapy : apy ≤ 10000)
    (deposits : Nat) : dailyFloor deposits alloc apy * 365 ≤ deposits := by
  have hle := dailyFloor_mul_le deposits alloc apy
  have hrates : deposits * alloc * apy ≤ deposits * 10000 * 10000 := by gcongr
  linarith

section Crank

variable {K : Type} {vs : VaultState K}

/-- The rates of a vault are at most one, and its deposits leave room for a rate. -/
structure InRange (vs : VaultState K) : Prop where
  deposits : vs.totalDeposits.toNat ≤ (2 ^ 64 - 1) / 10000
  allocation : vs.usxAllocationBps.toNat ≤ 10000
  apy : vs.apyBps.toNat ≤ 10000

theorem InRange.exists_daily (h : InRange vs) : ∃ daily, dailyYield vs = .ok daily ∧
    daily.toNat = dailyFloor vs.totalDeposits.toNat vs.usxAllocationBps.toNat vs.apyBps.toNat := by
  have hslice : vs.totalDeposits.toNat * vs.usxAllocationBps.toNat ≤
      (2 ^ 64 - 1) / 10000 * 10000 := Nat.mul_le_mul h.deposits h.allocation
  have hle : vs.totalDeposits.toNat * vs.usxAllocationBps.toNat / 10000 ≤ (2 ^ 64 - 1) / 10000 :=
    Nat.div_le_of_le_mul (by omega)
  have hyear : vs.totalDeposits.toNat * vs.usxAllocationBps.toNat / 10000 * vs.apyBps.toNat ≤
      (2 ^ 64 - 1) / 10000 * 10000 := Nat.mul_le_mul hle h.apy
  obtain ⟨x, hx⟩ := Checked.mul_of_lt (a := vs.totalDeposits) (b := vs.usxAllocationBps.toUInt64)
    (by rw [UInt16.toNat_toUInt64]; omega)
  obtain ⟨slice, hs⟩ := Checked.exists_div (b := 10000) (by decide) x
  have hxval := Checked.mul_eq_some.mp hx
  have hsval := (Checked.div_eq_some.mp hs).2
  rw [hxval, UInt16.toNat_toUInt64] at hsval
  obtain ⟨y, hy⟩ := Checked.mul_of_lt (a := slice) (b := vs.apyBps.toUInt64)
    (by rw [hsval, UInt16.toNat_toUInt64]; exact hyear.trans_lt (by decide))
  obtain ⟨yearly, hyr⟩ := Checked.exists_div (b := 10000) (by decide) y
  obtain ⟨daily, hd⟩ := Checked.exists_div (b := 365) (by decide) yearly
  refine ⟨daily, ?_, ?_⟩
  · simp only [dailyYield, bind_eq_ok, orFail_eq_ok]
    exact ⟨x, hx, slice, hs, y, hy, yearly, hyr, hd⟩
  · rw [(Checked.div_eq_some.mp hd).2, (Checked.div_eq_some.mp hyr).2, Checked.mul_eq_some.mp hy,
      hsval, UInt16.toNat_toUInt64]
    rfl

/-- The yield of a day, with no rounding. -/
def exactDaily (vs : VaultState K) : ℚ :=
  (vs.totalDeposits.toNat * vs.usxAllocationBps.toNat * vs.apyBps.toNat : ℚ) / (10 ^ 8 * 365)

/-- A day's yield is the exact one less, by under two. -/
theorem InRange.daily_bounds (h : InRange vs) {daily : UInt64} (hd : dailyYield vs = .ok daily) :
    exactDaily vs - 2 < daily.toNat ∧ (daily.toNat : ℚ) ≤ exactDaily vs := by
  obtain ⟨daily', hd', hval⟩ := h.exists_daily
  cases hd.symm.trans hd'
  have hle : (daily.toNat * (10 ^ 8 * 365) : ℚ) ≤ vs.totalDeposits.toNat *
      vs.usxAllocationBps.toNat * vs.apyBps.toNat := by
    rw [hval]
    exact_mod_cast dailyFloor_mul_le _ _ _
  have hlt : (vs.totalDeposits.toNat * vs.usxAllocationBps.toNat * vs.apyBps.toNat : ℚ) <
      (daily.toNat + 2) * (10 ^ 8 * 365) := by
    rw [hval]
    exact_mod_cast lt_dailyFloor_mul h.apy _ _
  constructor
  · rw [exactDaily, sub_lt_iff_lt_add, div_lt_iff₀ (by norm_num)]
    exact hlt
  · rw [exactDaily, le_div_iff₀ (by norm_num)]
    exact hle

/-! ## A call -/

variable {now : Int64}

theorem exists_daysElapsed (hnow : vs.lastYieldClaim ≤ now)
    (hdays : fullDays vs.lastYieldClaim.toInt now.toInt ≤ 3650) :
    ∃ days, daysElapsed now vs.lastYieldClaim = .ok days := by
  rw [Int64.le_iff_toInt_le] at hnow
  unfold daysElapsed
  split
  · obtain ⟨elapsed, helapsed⟩ := Checked.exists_ofInt (z := now.toInt - vs.lastYieldClaim.toInt)
      (by omega) (by rw [fullDays, Accrual.periods] at hdays; omega)
    exact ⟨_, by rw [Checked.subI, helapsed]; rfl⟩
  · exact ⟨0, rfl⟩

/-- Moving the claim by whole days past stays before the present. -/
theorem exists_claim {days : UInt64} (hd : daysElapsed now vs.lastYieldClaim = .ok days)
    (hnow : vs.lastYieldClaim ≤ now)
    (hdays : fullDays vs.lastYieldClaim.toInt now.toInt ≤ 3650) :
    ∃ advance claim, Checked.mulI days.toInt64 secondsInDay.toInt64 = some advance ∧
      Checked.addI vs.lastYieldClaim advance = some claim := by
  obtain ⟨hfull, hlt⟩ := daysElapsed_eq_ok hd
  have hdays64 : days.toInt64.toInt = days.toNat := Checked.toInt_toInt64 hlt
  have hday : secondsInDay.toInt64.toInt = 86400 := by decide
  obtain ⟨advance, hadvance⟩ := Checked.exists_ofInt
    (z := days.toInt64.toInt * secondsInDay.toInt64.toInt)
    (by rw [hdays64, hday]; omega) (by rw [hdays64, hday]; omega)
  have hvalue : advance.toInt = days.toNat * 86400 := by
    rw [Checked.ofInt_eq_some.mp hadvance, hdays64, hday]
  have hmoved : vs.lastYieldClaim.toInt + advance.toInt ≤ now.toInt := by
    rw [Int64.le_iff_toInt_le] at hnow
    rw [hvalue, hfull, fullDays, Accrual.periods]
    omega
  have hlast := vs.lastYieldClaim.le_toInt
  have hhi := now.toInt_lt
  obtain ⟨claim, hclaim⟩ := Checked.exists_ofInt (z := vs.lastYieldClaim.toInt + advance.toInt)
    (by omega) (by omega)
  exact ⟨advance, claim, hadvance, hclaim⟩

/-- Ten years of yield come to ten times the deposits at most, which leaves room. -/
theorem InRange.exists_pending (h : InRange vs) (hpending : vs.pendingYield.toNat ≤ 2 ^ 63)
    {daily days : UInt64} (hdays : days.toNat ≤ 3650)
    (hdaily : daily.toNat =
      dailyFloor vs.totalDeposits.toNat vs.usxAllocationBps.toNat vs.apyBps.toNat) :
    ∃ accrued pending, Checked.mul daily days = some accrued ∧
      Checked.add vs.pendingYield accrued = some pending := by
  have hle := dailyFloor_le h.allocation h.apy vs.totalDeposits.toNat
  have hdeposits := h.deposits
  have hprod : daily.toNat * days.toNat ≤ daily.toNat * 3650 := Nat.mul_le_mul_left _ hdays
  rw [← hdaily] at hle
  obtain ⟨accrued, haccrued⟩ := Checked.mul_of_lt (a := daily) (b := days) (by omega)
  have hsum := Checked.mul_eq_some.mp haccrued
  obtain ⟨pending, hpending'⟩ := Checked.exists_add.mpr
    (show vs.pendingYield.toNat + accrued.toNat < 2 ^ 64 by omega)
  exact ⟨accrued, pending, haccrued, hpending'⟩

variable [DecidableEq K] [Addresses K] [Deployment K] {s : State K} {a : OperatorOnly K}

/-- Within range the operator's call goes through, for up to ten years of days. -/
theorem InRange.goes_through (h : InRange vs) (hload : s.loadVaultState a.vaultState = .ok vs)
    (hop : operatorPubkey vs = a.operator) (hpending : vs.pendingYield.toNat ≤ 2 ^ 63)
    (hnow : vs.lastYieldClaim ≤ now)
    (hdays : fullDays vs.lastYieldClaim.toInt now.toInt ≤ 3650) :
    ∃ s', processYield now a s = .ok (s', none) := by
  obtain ⟨days, hd⟩ := exists_daysElapsed hnow hdays
  simp only [processYield, bind_eq_ok, requireOperator, require_eq_ok]
  by_cases hzero : days = 0
  · exact ⟨s, vs, hload, (), hop, days, hd, by rw [if_pos hzero]; rfl⟩
  · obtain ⟨daily, hdaily, hval⟩ := h.exists_daily
    obtain ⟨accrued, pending, haccrued, hpend⟩ :=
      h.exists_pending hpending ((daysElapsed_eq_ok hd).1 ▸ hdays) hval
    obtain ⟨advance, claim, hadvance, hclaim⟩ := exists_claim hd hnow hdays
    refine ⟨{ s with
      vaultState := some { vs with pendingYield := pending, lastYieldClaim := claim } },
      vs, hload, (), hop, days, hd, ?_⟩
    rw [if_neg hzero]
    simp only [bind_eq_ok, orFail_eq_ok]
    exact ⟨daily, hdaily, accrued, haccrued, pending, hpend, advance, hadvance, claim, hclaim, rfl⟩

/-- Within range the operator's call goes through, leaves less than a day unclaimed, and adds
what the days passed have earned, less than two a day short of it. -/
theorem processYield_tight (hload : s.loadVaultState a.vaultState = .ok vs)
    (hop : operatorPubkey vs = a.operator)
    (hdeposits : vs.totalDeposits.toNat ≤ (2 ^ 64 - 1) / 10000)
    (halloc : vs.usxAllocationBps.toNat ≤ 10000) (hapy : vs.apyBps.toNat ≤ 10000)
    (hpending : vs.pendingYield.toNat ≤ 2 ^ 63) (hnow : vs.lastYieldClaim ≤ now)
    (hdays : fullDays vs.lastYieldClaim.toInt now.toInt ≤ 3650) :
    ∃ pending claim A,
      processYield now a s = .ok ({ s with
        vaultState := some { vs with pendingYield := pending, lastYieldClaim := claim } }, none) ∧
      0 ≤ now.toInt - claim.toInt ∧ now.toInt - claim.toInt < 86400 ∧
      pending.toNat = vs.pendingYield.toNat + A ∧
      (fullDays vs.lastYieldClaim.toInt now.toInt = 0 → A = 0) ∧
      (1 ≤ fullDays vs.lastYieldClaim.toInt now.toInt →
        exactDaily vs * fullDays vs.lastYieldClaim.toInt now.toInt -
            2 * fullDays vs.lastYieldClaim.toInt now.toInt < A ∧
          A ≤ exactDaily vs * fullDays vs.lastYieldClaim.toInt now.toInt) := by
  have hrange : InRange vs := ⟨hdeposits, halloc, hapy⟩
  obtain ⟨s', hs⟩ := hrange.goes_through hload hop hpending hnow hdays
  obtain ⟨-, vs', pending, claim, hp⟩ := processYield_spec hs
  cases (loadVaultState_eq_ok.mp hload).2.1.symm.trans hp.vaultState
  obtain ⟨daily, hdaily, -⟩ := hrange.exists_daily
  obtain ⟨hlow, hhigh⟩ := hrange.daily_bounds hdaily
  have hclaim := hp.claim
  rw [Int64.le_iff_toInt_le] at hnow
  refine ⟨pending, claim, daily.toNat * fullDays vs.lastYieldClaim.toInt now.toInt,
    hp.state ▸ hs, ?_, ?_, hp.pending daily hdaily, ?_, ?_⟩
  · rw [hclaim, fullDays, Accrual.periods]
    omega
  · rw [hclaim, fullDays, Accrual.periods]
    omega
  · intro hnone
    rw [hnone, Nat.mul_zero]
  · intro hsome
    have hpos : (0 : ℚ) < fullDays vs.lastYieldClaim.toInt now.toInt := by exact_mod_cast hsome
    push_cast
    constructor
    · rw [← sub_mul]
      exact mul_lt_mul_of_pos_right hlow hpos
    · exact mul_le_mul_of_nonneg_right hhigh hpos.le

end Crank

open Cluster in
/-- Two days and five seconds. -/
theorem processYield_tight_earning : ∃ vs pending claim, ∃ A : Nat,
    earningState.vaultState = some vs ∧
    processYield 172805 crank earningState = .ok ({ earningState with
      vaultState := some { vs with pendingYield := pending, lastYieldClaim := claim } }, none) ∧
    172805 - claim.toInt < 86400 ∧ exactDaily vs * 2 - 2 * 2 < A ∧ A ≤ exactDaily vs * 2 := by
  obtain ⟨vs, hvs, hfields⟩ := Option.map_eq_some_iff.mp
    (show earningState.vaultState.map (fun vs => (vs.lastYieldClaim, vs.pendingYield,
        vs.totalDeposits, vs.usxAllocationBps, vs.apyBps, vs.bump, operatorPubkey vs)) =
      some (0, 0, 3650, 10000, 10000, 255, admin) from rfl)
  simp only [Prod.mk.injEq] at hfields
  obtain ⟨hclaim, hpending, hdeposits, halloc, hapy, hbump, hop⟩ := hfields
  have hload : earningState.loadVaultState vaultStateKey = .ok vs :=
    loadVaultState_eq_ok.mpr ⟨rfl, hvs, by rw [hbump]; rfl⟩
  have hdays : fullDays vs.lastYieldClaim.toInt (172805 : Int64).toInt = 2 := by
    rw [hclaim]
    decide
  have hnow : vs.lastYieldClaim ≤ 172805 := by
    rw [hclaim]
    decide
  obtain ⟨pending, claim, A, hok, -, hlt, -, -, htight⟩ :=
    processYield_tight (a := crank) hload hop (by rw [hdeposits]; decide)
      (by rw [halloc]; decide) (by rw [hapy]; decide) (by rw [hpending]; decide) hnow
      (by rw [hdays]; decide)
  rw [hdays] at htight
  obtain ⟨hlow, hhigh⟩ := htight (by decide)
  exact ⟨vs, pending, claim, A, hvs, hok, hlt, by exact_mod_cast hlow, by exact_mod_cast hhigh⟩

end OragamiVault
