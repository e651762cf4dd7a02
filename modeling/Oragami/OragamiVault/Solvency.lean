/-
# `Oragami.OragamiVault.Solvency` — what custody covers

Three readings of one simulation.  The books of every run are a run of a share
vault (`Reaches.moves`), so

    custody ≥ deposits                      always               (`ShareVault.Step.covered`)
    10000 · custody  ≥ nav · shares         but for NAV rises    (`ShareVault.Run.surplus`)
    10000 · deposits ≥ nav · shares         but for NAV rises    (`ShareVault.Run.recorded`)

where a rise of the NAV costs the rise times the shares outstanding at that
moment (`navLifts`).  The last two differ in what they decide: the surplus, that a
holder can be paid; the recorded deposits, that the direct exit's checked
subtraction goes through and that proof of reserve, which looks at deposits
alone, bears on what holders are owed.
-/
import Oragami.OragamiVault.Accounting
import Oragami.OragamiVault.Scenario

namespace OragamiVault

open Lts

variable {K : Type} [DecidableEq K] [Addresses K] [Deployment K] [TokenProgram K]
  {ledger : Ledger K} {ts : List (Transition (State K) (Action K))} {s : State K}
  {vs : VaultState K}

/-! ## Custody covers recorded deposits -/

/-- After any run the vault's token account holds at least the recorded deposits. -/
theorem Reaches.covered (h : Reaches ledger ts s) (hvs : s.vaultState = some vs) :
    vs.totalDeposits.toNat ≤ s.ledger.amount vaultTokenKey := by
  have hcov : s.book.deposits ≤ s.book.custody :=
    Run.invariant (I := fun b : ShareVault.Book => b.deposits ≤ b.custody) (Nat.le_refl 0)
      (fun hb hstep => ShareVault.Step.covered hstep hb) h.moves
  rw [(h.guarded vs hvs).book hvs] at hcov
  exact hcov

/-- Custody covers recorded deposits in every reachable state, so that under a mandate of
at most full collateral proof of reserve never fails for lack of reserves. -/
theorem custody_covers_deposits (h : Reaches ledger ts s) (hvs : s.vaultState = some vs) :
    (∃ acc, s.ledger.account vs.vaultTokenAccount = some acc ∧
      vs.totalDeposits ≤ acc.amount) ∧
    ∀ m, s.vaultMandate = some m → m.minCollateralRatioBps ≤ 10000 →
      ∀ now a, verifyProofOfReserve now a s ≠ .error (.code .proofOfReserveFailed) := by
  have hc := h.guarded vs hvs
  have hcov := h.covered hvs
  constructor
  · obtain ⟨acc, hacc, -⟩ := hc.account
    rw [Ledger.amount_of_account hacc] at hcov
    exact ⟨acc, hc.vaultTokenAccount ▸ hacc, UInt64.le_iff_toNat_le.mpr hcov⟩
  · intro m hm hratio now a hfail
    obtain ⟨vs', m', acc, assets, hvs', hm', hacc, hcounted, hlt⟩ := verifyProofOfReserve_failed hfail
    cases hvs.symm.trans hvs'
    cases hm.symm.trans hm'
    rw [hc.vaultTokenAccount] at hacc
    rw [Ledger.amount_of_account hacc] at hcov
    -- deposits · ratio ≤ deposits · 10000 ≤ assets · 10000
    have hbound : vs.totalDeposits.toNat * m.minCollateralRatioBps.toNat ≤ assets.toNat * 10000 :=
      Nat.mul_le_mul (hcov.trans hcounted) (UInt16.le_iff_toNat_le.mp hratio)
    omega

/-- Deposits, a donation and a rise of the NAV. -/
def donated : State FreeKey :=
  final (.genesis Cluster.ledger)
    (Cluster.setUp ++ [Cluster.deposit 1000, Cluster.donate 50, Cluster.setNav 15000])

theorem custody_covers_deposits_donated :
    ∃ vs acc, donated.vaultState = some vs ∧
      donated.ledger.account vs.vaultTokenAccount = some acc ∧ vs.totalDeposits ≤ acc.amount ∧
      ∀ now a, verifyProofOfReserve now a donated ≠ .error (.code .proofOfReserveFailed) := by
  obtain ⟨vs, hvs⟩ := Option.isSome_iff_exists.mp (show donated.vaultState.isSome by decide)
  obtain ⟨m, hm, hratio⟩ := Option.map_eq_some_iff.mp
    (show donated.vaultMandate.map (·.minCollateralRatioBps) = some 10000 by decide)
  obtain ⟨⟨acc, hacc, hle⟩, hproof⟩ := custody_covers_deposits (Cluster.reaches_final (by decide)) hvs
  exact ⟨vs, acc, hvs, hacc, hle, hproof m hm (UInt16.le_of_eq hratio)⟩

/-! ## The surplus -/

/-- What the vault holds beyond what its shares are worth, in 1/10000 USDC. -/
def surplus {K : Type} (L : Ledger K) (vs : VaultState K) : Int :=
  10000 * L.amount vs.vaultTokenAccount - vs.navPriceBps.toNat * vs.totalSupply.toNat

theorem surplus_book {K : Type} {s : State K} {vs : VaultState K} (hvs : s.vaultState = some vs) :
    ShareVault.surplus 10000 s.book = surplus s.ledger vs := by
  rw [State.book_of hvs]
  rfl

/-- A `set_nav` to more than the NAV was. -/
def raisesNav {K : Type} (t : Transition (State K) (Action K)) : Bool :=
  match t.label, t.pre.vaultState with
  | .program _ (.setNav _ nav), some vs => vs.navPriceBps < nav
  | _, _ => false

/-- No `set_nav` of the run raised the NAV. -/
def NavNeverRaised {K : Type} (ts : List (Transition (State K) (Action K))) : Prop :=
  ∀ t ∈ ts, raisesNav t = false

instance {K : Type} (ts : List (Transition (State K) (Action K))) :
    Decidable (NavNeverRaised ts) :=
  inferInstanceAs (Decidable (∀ t ∈ ts, _))

/-- What rises of the NAV added to the worth of the shares outstanding. -/
def navLifts (ts : List (Transition (State K) (Action K))) : Nat := ShareVault.lifts (books ts)

theorem Step.price_le {act : Action K} {s' : State K} (h : Step s act s')
    (hnav : raisesNav ⟨s, act, s'⟩ = false) : s'.book.price ≤ s.book.price := by
  cases h with
  | @program _ now c _ _ hexec =>
      rcases effect_price (exec_effect hexec) with hsame | ⟨a, nav, vs, rfl, hvs, hprice⟩
      · exact Nat.le_of_eq hsame
      · simp only [raisesNav, hvs, decide_eq_false_iff_not, UInt64.not_lt] at hnav
        rw [hprice, State.book_of hvs]
        exact UInt64.le_iff_toNat_le.mp hnav
  | token _ _ => exact Nat.le_of_eq (State.price_congr rfl)

/-- A run that never raises the NAV has no lifts. -/
theorem Reaches.no_lifts (h : Reaches ledger ts s) (hnav : NavNeverRaised ts) :
    navLifts ts = 0 := by
  refine ShareVault.lifts_eq_zero ?_
  intro t ht
  obtain ⟨t', ht', rfl⟩ := List.mem_map.mp ht
  exact (h.of_mem ht').2.price_le (hnav t' ht')

theorem Reaches.surplus_lifts (h : Reaches ledger ts s) (hvs : s.vaultState = some vs) :
    0 ≤ surplus s.ledger vs + navLifts ts := by
  have hrun := ShareVault.Run.surplus h.moves
  rw [surplus_book hvs] at hrun
  exact hrun

/-- Recorded deposits cover the shares at the NAV, but for its rises. -/
theorem Reaches.recorded_lifts (h : Reaches ledger ts s) (hvs : s.vaultState = some vs) :
    vs.navPriceBps.toNat * vs.totalSupply.toNat ≤ 10000 * vs.totalDeposits.toNat + navLifts ts := by
  have hrun := ShareVault.Run.recorded h.moves
  rw [State.book_of hvs] at hrun
  have hrun' : (0 : Int) ≤ 10000 * vs.totalDeposits.toNat -
      vs.navPriceBps.toNat * vs.totalSupply.toNat + navLifts ts := hrun
  omega

/-- Shares the surplus covers are paid for, -/
theorem Reaches.funded (h : Reaches ledger ts s) (hvs : s.vaultState = some vs)
    (hsolvent : 0 ≤ surplus s.ledger vs) {x usdc : UInt64} (hx : x ≤ vs.totalSupply)
    (hpay : payoutFor x vs.navPriceBps = .ok usdc) :
    usdc.toNat ≤ s.ledger.amount vaultTokenKey := by
  obtain ⟨-, hfloor⟩ := payoutFor_eq_ok.mp hpay
  have hcover : vs.navPriceBps.toNat * vs.totalSupply.toNat ≤
      10000 * s.ledger.amount vaultTokenKey := by
    rw [surplus, (h.guarded vs hvs).vaultTokenAccount] at hsolvent
    omega
  rw [hfloor]
  exact ShareVault.payout_le hcover (UInt64.le_iff_toNat_le.mp hx)

/-- and where the NAV never rose the recorded deposits cover them too. -/
theorem Reaches.recorded (h : Reaches ledger ts s) (hvs : s.vaultState = some vs)
    (hnav : NavNeverRaised ts) {x usdc : UInt64} (hx : x ≤ vs.totalSupply)
    (hpay : payoutFor x vs.navPriceBps = .ok usdc) : usdc.toNat ≤ vs.totalDeposits.toNat := by
  obtain ⟨-, hfloor⟩ := payoutFor_eq_ok.mp hpay
  have hcover := h.recorded_lifts hvs
  rw [h.no_lifts hnav, Nat.add_zero] at hcover
  rw [hfloor]
  exact ShareVault.payout_le hcover (UInt64.le_iff_toNat_le.mp hx)

/-- Every instruction but `set_nav` keeps the surplus or adds to it.  So in a run that never
raises the NAV the vault is solvent, and no exit of outstanding shares fails for lack of
funds, nor the direct one on its recorded deposits: it overflows only in the product. -/
theorem surplus_never_drained (h : Reaches ledger ts s) (hvs : s.vaultState = some vs) :
    (∀ now c s', Step s (.program now c) s' → (∀ a nav, c ≠ .setNav a nav) →
      ∃ vs', s'.vaultState = some vs' ∧ surplus s.ledger vs ≤ surplus s'.ledger vs') ∧
    (NavNeverRaised ts →
      0 ≤ surplus s.ledger vs ∧
      ∀ x ≤ vs.totalSupply,
        (∀ a, redeem a x s ≠ .error (.code .insufficientVaultFunds)) ∧
        (∀ a mode, redeemTradeable a x mode s ≠ .error (.code .insufficientVaultFunds)) ∧
        (∀ a, redeemTradeable a x false s = .error (.code .overflow) →
          2 ^ 64 ≤ x.toNat * vs.navPriceBps.toNat)) := by
  have hc := h.guarded vs hvs
  constructor
  · intro now c s' hstep hne
    cases hstep with
    | program hsig hexec =>
        have heff := exec_effect hexec
        obtain ⟨vs', hvs'⟩ := effect_vaultState heff hvs
        have hprice : s'.book.price = s.book.price := by
          rcases effect_price heff with hsame | ⟨a, nav, _, hset, -⟩
          · exact hsame
          · exact absurd hset (hne a nav)
        have hle := (effect_book h.guarded hsig heff).2.surplus
        rw [ShareVault.lift_of_le (Nat.le_of_eq hprice), surplus_book hvs, surplus_book hvs'] at hle
        exact ⟨vs', hvs', by simpa using hle⟩
  · intro hnav
    have hsolvent : 0 ≤ surplus s.ledger vs := by
      have hle := h.surplus_lifts hvs
      rw [h.no_lifts hnav] at hle
      simpa using hle
    refine ⟨hsolvent, ?_⟩
    intro x hx
    refine ⟨?_, ?_, ?_⟩
    · intro a hfail
      obtain ⟨vs', acc, usdc, hvs', hpay, hacc, hlt⟩ := redeem_underfunded hfail
      cases hvs.symm.trans hvs'
      have hfund := h.funded hvs hsolvent hx hpay
      rw [Ledger.amount_of_account hacc] at hfund
      omega
    · intro a mode hfail
      obtain ⟨vs', acc, usdc, hvs', hpay, hacc, hlt⟩ := redeemTradeable_underfunded hfail
      cases hvs.symm.trans hvs'
      have hfund := h.funded hvs hsolvent hx hpay
      rw [Ledger.amount_of_account hacc] at hfund
      omega
    · intro a hfail
      obtain ⟨vs', hvs', hover | ⟨L, usdc, -, -, hpay, hdeposits | hsupply⟩⟩ := payOut_overflow hfail
      · cases hvs.symm.trans hvs'
        exact hover
      · cases hvs.symm.trans hvs'
        have hrec := h.recorded hvs hnav hx hpay
        omega
      · cases hvs.symm.trans hvs'
        have hle := UInt64.le_iff_toNat_le.mp hx
        omega

/-- Deposits, a donation and a fall of the NAV; some of the shares are tradeable. -/
def marked : List (Action FreeKey) :=
  Cluster.setUp ++ [Cluster.deposit 1000, Cluster.convert 400, Cluster.donate 50,
    Cluster.setNav 9000]

theorem surplus_never_drained_marked :
    ∃ vs, (final (.genesis Cluster.ledger) marked).vaultState = some vs ∧
      0 ≤ surplus (final (.genesis Cluster.ledger) marked).ledger vs := by
  obtain ⟨vs, hvs⟩ := Option.isSome_iff_exists.mp
    (show (final (.genesis Cluster.ledger) marked).vaultState.isSome by decide)
  have hrun := surplus_never_drained (Cluster.reaches_final (by decide)) hvs
  exact ⟨vs, hvs, (hrun.2 (by decide)).1⟩

/-! ## Proof of reserve -/

/-- A successful proof of reserve under a mandate of full collateral counted assets that
cover the recorded deposits, and what holders are owed at the NAV but for its rises.  In a
run without rises it means redeemable at NAV. -/
theorem proof_of_reserve_covers {now : Int64} {a : VerifyProofOfReserve K} {m : VaultMandate K}
    {s' : State K} {ev : Option (Event K)} (h : Reaches ledger ts s)
    (hm : s.vaultMandate = some m) (hratio : 10000 ≤ m.minCollateralRatioBps)
    (hok : verifyProofOfReserve now a s = .ok (s', ev)) :
    ∃ vs, ∃ assets : UInt64, ∃ gold attestedAt, s.vaultState = some vs ∧
      ev = some (.proofOfReserveOk a.vaultState assets vs.totalDeposits m.minCollateralRatioBps
        gold attestedAt) ∧
      vs.totalDeposits ≤ assets ∧
      vs.totalSupply.toNat * vs.navPriceBps.toNat ≤ assets.toNat * 10000 + navLifts ts ∧
      (NavNeverRaised ts →
        vs.totalSupply.toNat * vs.navPriceBps.toNat ≤ assets.toNat * 10000) := by
  obtain ⟨vs, m', acc, assets, gold, attestedAt, hvs, hm', -, -, hcheck, rfl⟩ :=
    verifyProofOfReserve_eq_ok hok
  cases hm.symm.trans hm'
  have hcovered : vs.totalDeposits.toNat * 10000 ≤ assets.toNat * 10000 :=
    (Nat.mul_le_mul_left _ (UInt16.le_iff_toNat_le.mp hratio)).trans hcheck
  have howed : vs.totalSupply.toNat * vs.navPriceBps.toNat ≤ assets.toNat * 10000 + navLifts ts := by
    have hrec := h.recorded_lifts hvs
    rw [Nat.mul_comm] at hrec
    omega
  refine ⟨vs, assets, gold, attestedAt, hvs, rfl, ?_, howed, ?_⟩
  · exact UInt64.le_iff_toNat_le.mpr (by omega)
  · intro hnav
    rw [h.no_lifts hnav, Nat.add_zero] at howed
    exact howed

theorem proof_of_reserve_covers_marked :
    ∃ vs, ∃ assets : UInt64, (final (.genesis Cluster.ledger) marked).vaultState = some vs ∧
      vs.totalSupply.toNat * vs.navPriceBps.toNat ≤ assets.toNat * 10000 := by
  obtain ⟨m, hm, hratio⟩ := Option.map_eq_some_iff.mp
    (show (final (.genesis Cluster.ledger) marked).vaultMandate.map (·.minCollateralRatioBps) =
      some 10000 by decide)
  obtain ⟨⟨s', ev⟩, hok⟩ := Anchor.ok_of_isOk (show (verifyProofOfReserve 0 Cluster.reserveAccounts
    (final (.genesis Cluster.ledger) marked)).isOk = true by decide)
  obtain ⟨vs, assets, _, _, hvs, -, -, -, howed⟩ :=
    proof_of_reserve_covers (Cluster.reaches_final (by decide)) hm (UInt16.le_of_eq hratio.symm) hok
  exact ⟨vs, assets, hvs, howed (by decide)⟩

/-- The NAV up by half since the only deposit. -/
def raised : List (Action FreeKey) := Cluster.setUp ++ [Cluster.deposit 1000, Cluster.setNav 15000]

/-- The assets a successful proof of reserve reports. -/
def reportedAssets {K : Type} : Except (Failure ErrorCode) (Outcome K) → Option UInt64
  | .ok (_, some (.proofOfReserveOk _ assets _ _ _ _)) => some assets
  | _ => none

/-- Proof of reserve then succeeds under a mandate of full collateral, on 1000 USDC held
against 1000 shares worth 1500. -/
theorem proof_of_reserve_underfunded :
    ∃ ts s vs m, ∃ assets : UInt64, Reaches Cluster.ledger ts s ∧
      s.vaultState = some vs ∧ s.vaultMandate = some m ∧ 10000 ≤ m.minCollateralRatioBps ∧
      reportedAssets (verifyProofOfReserve 0 Cluster.reserveAccounts s) = some assets ∧
      ¬ vs.totalSupply.toNat * vs.navPriceBps.toNat ≤ assets.toNat * 10000 := by
  obtain ⟨m, hm, hratio⟩ := Option.map_eq_some_iff.mp
    (show (final (.genesis Cluster.ledger) raised).vaultMandate.map (·.minCollateralRatioBps) =
      some 10000 by decide)
  obtain ⟨vs, hvs, howed⟩ := Option.map_eq_some_iff.mp
    (show (final (.genesis Cluster.ledger) raised).vaultState.map
      (fun vs => (vs.totalSupply, vs.navPriceBps)) = some (1000, 15000) by decide)
  obtain ⟨hsupply, hnav⟩ := Prod.mk.inj howed
  refine ⟨_, _, vs, m, 1000, Cluster.reaches_final (show raised.all _ = true by decide), hvs, hm,
    UInt16.le_of_eq hratio.symm, by decide, ?_⟩
  rw [hsupply, hnav]
  decide

end OragamiVault
