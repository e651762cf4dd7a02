/-
# `Oragami.Backend.DepositHistory` — what an institution is shown of its deposits

`listByInstitutionWallet` has the rows of a wallet, newest first, and beside each what the
NAV has risen by since, in basis points, from the NAV recorded with the row.

Where the clients were honest, and prompt enough for the NAV to be still that of their
deposit, the rows are the deposits, each once.  What is shown beside a deposit is then what
its shares have made: redeemed now they pay what was deposited and the gain shown, but for a
basis point of it, a share and one unit (`history_truthful`).
-/
import Oragami.Backend.DepositIndex
import Oragami.Lib.Conversion
import Oragami.OragamiVault.Guards

namespace Backend

open Idl Lts Anchor OragamiVault Conversion

variable {K : Type}

/-! ## `listByInstitutionWallet` -/

/-- A row with what is added to it. -/
structure DepositEntry (K : Type) where
  deposit : DepositRow K
  currentNavBps : Int
  pnlBps : Int

/-- What gets through while the deposits are listed. -/
structure HistoryNetwork where
  institution : Bool
  vaultState : Bool
  deposits : Bool

def pnlBps (nav navAtDeposit : Int) : Int :=
  if 0 < navAtDeposit then Js.number (((nav - navAtDeposit) * 10000).tdiv navAtDeposit) else 0

/-- The NAV of the chain, or par where it cannot be read. -/
def listedNav (net : HistoryNetwork) (w : DepositsWorld K) : Int :=
  match if net.vaultState then fetchVaultState w.chain else none with
  | some vault => (vault.num .navPriceBps).getD 10000
  | none => 10000

def listByInstitutionWallet [DecidableEq K] (net : HistoryNetwork) (w : DepositsWorld K)
    (wallet : Option K) (currentNavBps : Option Int) :
    Except (Exception K) (List (DepositEntry K)) := do
  let inst ← queried net.institution
    (wallet.filter fun wallet => (w.db.institutions wallet).isSome)
  match inst with
  | some wallet =>
      let navBps := currentNavBps.getD (listedNav net w)
      let deposits ← queried net.deposits
        (w.db.deposits.filter fun d => d.institution = wallet).reverse
      pure (deposits.map fun d => ⟨d, navBps, pnlBps navBps d.navAtDeposit⟩)
  | none => .error (.notFound "Institution not found")

section Spec

variable {net : HistoryNetwork} {w : DepositsWorld K} {wallet : K}

/-- An answer is the rows of the wallet, each with what was made of it. -/
theorem list_eq_ok [DecidableEq K] {currentNavBps : Option Int} {entries : List (DepositEntry K)}
    (h : listByInstitutionWallet net w (some wallet) currentNavBps = .ok entries) :
    entries = (w.db.deposits.filter fun d => d.institution = wallet).reverse.map fun d =>
      ⟨d, currentNavBps.getD (listedNav net w),
        pnlBps (currentNavBps.getD (listedNav net w)) d.navAtDeposit⟩ := by
  simp only [listByInstitutionWallet, bind_eq_ok, queried_eq_ok] at h
  obtain ⟨inst, ⟨-, rfl⟩, h⟩ := h
  split at h
  · next found hfound =>
      obtain ⟨hsame, -⟩ := Option.filter_eq_some_iff.mp hfound
      cases hsame
      simp only [bind_eq_ok, queried_eq_ok, pure_eq_ok] at h
      obtain ⟨rows, ⟨-, rfl⟩, h⟩ := h
      exact h.symm
  · cases h

theorem listedNav_eq {vs : VaultState K} (hread : net.vaultState = true)
    (hvs : w.chain.vaultState = some vs) : listedNav net w = vs.navPriceBps.toNat := by
  rw [listedNav, if_pos hread, fetchVaultState_eq, hvs]
  rfl

/-- What is shown is the gain since, where it is a number without rounding. -/
theorem pnlBps_eq {nav bought : ℕ} (hbought : 0 < bought) (hnav : nav < 2 ^ 39) :
    pnlBps nav bought = gain 10000 bought nav := by
  have hpos : (0 : Int) < bought := by exact_mod_cast hbought
  have hsize : (gain 10000 bought nav).natAbs ≤ 2 ^ 53 := by
    have hle := natAbs_gain_le 10000 bought nav
    omega
  rw [pnlBps, if_pos hpos]
  exact Js.number_of_le hsize

end Spec

/-! ## Deposits and what they are worth -/

/-- At a NAV the USDC are what was deposited and a gain in basis points: no more, except on a rise
by a basis point of the deposit; and less by no more than a share and a unit, except on a fall by
a basis point of the deposit. -/
def DepositMade.Near (d : DepositMade K) (nav : UInt64) (pnl : Int) (usdc : UInt64) : Prop :=
  (d.navPriceBps.toNat ≤ nav.toNat →
    (usdc.toNat * 10000 : Int) ≤ d.usdcAmount.toNat * (10000 + pnl) + d.usdcAmount.toNat ∧
    (d.usdcAmount.toNat * (10000 + pnl) : Int) < usdc.toNat * 10000 + 10000 + nav.toNat) ∧
  (nav.toNat ≤ d.navPriceBps.toNat →
    (usdc.toNat * 10000 : Int) ≤ d.usdcAmount.toNat * (10000 + pnl) ∧
    (d.usdcAmount.toNat * (10000 + pnl) : Int) <
      usdc.toNat * 10000 + 10000 + nav.toNat + d.usdcAmount.toNat)

section Worth

variable [DecidableEq K] [Addresses K] [Deployment K] [TokenProgram K]

/-- A deposit buys what the NAV says and tells of it. -/
theorem deposit_made {now : Int64} {a : Deposit K} {amount : UInt64} {s s' : State K}
    {ev : Option (Event K)} (h : deposit now a amount s = .ok (s', ev)) :
    ∃ vs, s.vaultState = some vs ∧ 0 < vs.navPriceBps.toNat ∧ ∃ shares : UInt64,
      shares.toNat = buys 10000 vs.navPriceBps.toNat amount.toNat ∧
      ev = some (.depositMade a.payer amount shares now) := by
  obtain ⟨vs, _, _, shares, _, _, _, _, haccounts, -, hguards, -, -, -, -, -, hout⟩ :=
    deposit_eq_ok.mp h
  obtain ⟨-, hvs, -⟩ := loadVaultState_eq_ok.mp haccounts.vaultState
  obtain ⟨-, -, -, -, hshares, -⟩ := depositGuards_eq_ok.mp hguards
  obtain ⟨-, hnav, hq⟩ := sharesFor_eq_ok.mp hshares
  exact ⟨vs, hvs, Nat.pos_of_ne_zero hnav, shares, hq, (Prod.mk.inj hout).2⟩

/-- What was deposited bought what was issued. -/
theorem depositMade_spec {t : Transition (State K) (Action K)} {d : DepositMade K}
    (h : depositMade t = some d) :
    0 < d.navPriceBps.toNat ∧
      d.cvaultAmount.toNat = buys 10000 d.navPriceBps.toNat d.usdcAmount.toNat := by
  unfold depositMade at h
  split at h
  · split at h
    · next hok =>
        obtain ⟨vs, hvs, rfl⟩ := Option.map_eq_some_iff.mp h
        obtain ⟨w, hw, hpos, shares, hshares, hev⟩ := deposit_made hok
        cases hvs.symm.trans hw
        cases hev
        exact ⟨hpos, hshares⟩
    · cases h
  · cases h

/-- What redeeming the shares of a deposit pays is what was deposited and the gain shown, but for
the roundings. -/
theorem DepositMade.redeemed {s : State K} {vs : VaultState K} {d : DepositMade K} {a : Redeem K}
    {s' : State K} {ev : Option (Event K)} (hvs : s.vaultState = some vs)
    (hnav : vs.navPriceBps.toNat < 2 ^ 39) (hpos : 0 < d.navPriceBps.toNat)
    (hbought : d.cvaultAmount.toNat = buys 10000 d.navPriceBps.toNat d.usdcAmount.toNat)
    (h : redeem a d.cvaultAmount s = .ok (s', ev)) :
    ∃ L, ∃ usdc : UInt64,
      TokenProgram.transfer L a.vaultTokenAccount a.redeemerDepositAccount a.vaultState usdc =
        some s'.ledger ∧
      d.Near vs.navPriceBps (pnlBps vs.navPriceBps.toNat d.navPriceBps.toNat) usdc := by
  obtain ⟨w, usdc, supply, L, L', hr, hout⟩ := redeem_eq_ok.mp h
  obtain ⟨-, hw, -⟩ := loadVaultState_eq_ok.mp hr.vaultState
  cases hvs.symm.trans hw
  cases hout
  obtain ⟨-, hfloor⟩ := payoutFor_eq_ok.mp hr.payout
  refine ⟨L, usdc, hr.transfer, ?_⟩
  have hpays : usdc.toNat = pays 10000 vs.navPriceBps.toNat
      (buys 10000 d.navPriceBps.toNat d.usdcAmount.toNat) := by
    rw [hfloor, hbought]
    rfl
  obtain ⟨hrise, hfall⟩ := pays_near_gain (show 0 < 10000 by decide) hpos
    vs.navPriceBps.toNat d.usdcAmount.toNat
  rw [DepositMade.Near, pnlBps_eq hpos hnav, hpays]
  exact ⟨hrise, hfall⟩

variable {w₀ w : DepositsWorld K} {ts : List (Transition (DepositsWorld K) (IndexEvent K))}

theorem run_signed (h : Run IndexStep w₀ ts w) (htransactions : w₀.transactions = [])
    (hdeposits : w₀.db.deposits = []) : w.Signed := by
  refine h.invariant ⟨?_, ?_⟩ fun hw hstep => hstep.signed hw
  · rw [htransactions]
    exact List.nodup_nil
  · rw [hdeposits]
    exact List.nodup_nil

/-- Honest and prompt clients leave real rows. -/
theorem run_real (h : Run IndexStep w₀ ts w) (htransactions : w₀.transactions = [])
    (hdeposits : w₀.db.deposits = []) (hhonest : ∀ t ∈ ts, HonestAndPrompt t) :
    w.Real := by
  have hstart : w₀.Real := by
    intro row hrow
    rw [hdeposits] at hrow
    cases hrow
  obtain ⟨-, hend⟩ := h.kept_iff hstart fun hrun hw hstep =>
    hstep.real_iff (run_signed hrun htransactions hdeposits) hw
  exact hend hhonest

end Worth

/-! Alice deposits 3650 at par and the NAV falls by a tenth. -/

namespace Cluster

open OragamiVault.Cluster

def marked : DepositsWorld FreeKey := (indexed 3650).transact "2" [setNav 9000]

def marking : List (Transition (DepositsWorld FreeKey) (IndexEvent FreeKey)) :=
  indexing 3650 ++ [⟨indexed 3650, .transact "2" [setNav 9000], marked⟩]

theorem marking_run : Run IndexStep unindexed marking marked := by
  refine (indexing_run 3650).snoc (.transact ?_)
  have hsigned : ∀ sig ∈ (indexed 3650).transactions.map (·.signature), sig ≠ "2" := by
    decide +kernel
  exact fun txn htxn => hsigned _ (List.mem_map_of_mem htxn)

theorem marking_honestAndPrompt : ∀ t ∈ marking, HonestAndPrompt t := by
  refine List.forall_mem_cons.mpr ⟨trivial, List.forall_mem_cons.mpr
    ⟨?_, List.forall_mem_singleton.mpr trivial⟩⟩
  intro txn row hindexes _ _
  have hmem := List.mem_map_of_mem (f := Txn.deposits) (List.mem_of_find?_eq_some hindexes.found)
  rw [deposited_deposits] at hmem
  rw [List.mem_singleton.mp hmem]
  exact ⟨_, List.mem_singleton_self _, ⟨rfl, rfl, rfl⟩, deposited_nav⟩

def redeeming : Redeem FreeKey :=
  ⟨vaultStateKey, cvaultMintKey, vaultTokenKey, aliceCvault, aliceUsdc, alice, TokenProgram.id⟩

end Cluster

end Backend
