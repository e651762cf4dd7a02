/-
# `Oragami.MultiAssetVault.Solvency` — the accounts of many vaults at once

For every vault of every run

    total_supply = supply of its share mint        unless its shares are burned directly
    custody ≥ total_deposits                       always

and the surplus of custody over what the shares are worth falls only with a
`set_nav` of the vault itself.  No instruction of one vault is seen in the record,
the share supply or, but for what is paid in, the custody of another, also where
one holds the shares of the other.

The first line is an invariant of its own, `Supplied`; the second and the surplus
are read off the books (`Reaches.moves`).
-/
import Oragami.MultiAssetVault.Accounting
import Oragami.MultiAssetVault.Scenario

namespace MultiAssetVault

open Lts

variable {K : Type}

/-- What the vault holds beyond what its shares are worth, in 1/10000 of an asset token. -/
def surplus (L : Ledger K) (v : AssetVault K) : Int :=
  10000 * L.amount v.vaultTokenAccount - v.navPriceBps.toNat * v.totalSupply.toNat

/-- The mint a direct call burns from. -/
def Action.burns : Action K → Option K
  | .token (.burn _ m _ _) => some m
  | _ => none

/-- Nobody burned shares but by redeeming them. -/
def NoShareBurns (ts : List (Transition (State K) (Action K))) : Prop :=
  ∀ t ∈ ts, ∀ k v, t.pre.vaults k = some v → t.label.burns ≠ some v.shareMint

/-- Every vault has issued what it recorded. -/
def Supplied (s : State K) : Prop :=
  ∀ k v, s.vaults k = some v → v.totalSupply.toNat = s.ledger.supply v.shareMint

theorem supplied_genesis (ledger : Ledger K) : Supplied (State.genesis ledger) := by
  intro k v hv
  cases hv

theorem Moved.surplus [Addresses K] [Deployment K] {L L' : Ledger K} {k : K} {v v' : AssetVault K}
    (h : Moved L L' k v v')
    (hnav : v'.navPriceBps = v.navPriceBps) : surplus L v ≤ surplus L' v' := by
  have hle := h.book.surplus
  rw [ShareVault.lift_of_le (Nat.le_of_eq (congrArg UInt64.toNat hnav))] at hle
  simpa [ShareVault.surplus, AssetVault.book, MultiAssetVault.surplus] using hle

variable [DecidableEq K]

theorem burned_eq_zero {c : TokenCall K} {m : K} (h : (Action.token c).burns ≠ some m) :
    c.burned m = 0 := by
  cases c with
  | burn src m' auth n => exact if_neg fun heq => h (congrArg some heq)
  | _ => rfl

variable [Addresses K] [Deployment K] [TokenProgram K] {ledger : Ledger K}
  {ts : List (Transition (State K) (Action K))} {s s' : State K} {k : K} {v v' : AssetVault K}

theorem step_supplied {act : Action K} (hg : Guarded s) (hs : Supplied s)
    (hburn : ∀ k v, s.vaults k = some v → act.burns ≠ some v.shareMint) (h : Step s act s') :
    Supplied s' := by
  cases h with
  | program hsig hexec =>
      have heff := exec_effect hexec
      intro k v' hv'
      rcases effect_cases hg hsig heff hv' with ⟨a, p, f, hreg, rfl, rfl⟩ | ⟨v, hv, hm⟩
      · rw [hreg.supply]
        rfl
      · have hissued := hm.issued
        rw [hs k v hv] at hissued
        rw [hm.shareMint]
        omega
  | @token c L hsig hrun =>
      intro k v hv
      obtain ⟨M, hM, hauth⟩ := (hg k v hv).held.mint
      have hsupply := TokenCall.run_supply (P := Owned) hrun hM (by
        intro auth hauth'
        cases hauth.symm.trans hauth'
        exact (hg k v hv).owned) hsig
      rw [burned_eq_zero (hburn k v hv), Nat.add_zero] at hsupply
      exact (hs k v hv).trans hsupply.symm

theorem Reaches.supplied (h : Reaches ledger ts s) (hburn : NoShareBurns ts) : Supplied s := by
  refine Run.history (I := fun ts s => NoShareBurns ts → Supplied s)
    (fun _ => supplied_genesis ledger) ?_ h hburn
  intro ts s act s' hr ih hstep hburn
  have hs := ih fun t ht => hburn t (List.mem_append_left _ ht)
  have hlast := hburn _ (List.mem_append_right ts List.mem_cons_self)
  exact step_supplied (Reaches.guarded hr) hs hlast hstep

/-- The recorded deposits of every vault are in its custody. -/
theorem Reaches.covered (h : Reaches ledger ts s) (hv : s.vaults k = some v) :
    v.totalDeposits.toNat ≤ s.ledger.amount v.vaultTokenAccount := by
  have hcov : (s.book k).deposits ≤ (s.book k).custody :=
    Run.invariant (I := fun b : ShareVault.Book => b.deposits ≤ b.custody) (Nat.le_refl 0)
      (fun hb hstep => ShareVault.Step.covered hstep hb) (h.moves k)
  rw [State.book_of hv] at hcov
  exact hcov

/-- Only `set_nav` moves a NAV. -/
theorem effect_price {now : Int64} {view : View K} {c : Call K} (h : Effect now view s c s')
    (hc : ∀ a nav, c ≠ .setNav a nav) (hv : s.vaults k = some v) (hv' : s'.vaults k = some v') :
    v'.navPriceBps = v.navPriceBps := by
  -- a record rewritten at the same NAV, or left as it was
  have rewritten : ∀ {j : K} {w w' : AssetVault K}, s.vaults j = some w →
      Function.update s.vaults j (some w') k = some v' → w'.navPriceBps = w.navPriceBps →
      v'.navPriceBps = v.navPriceBps := by
    intro j w w' hw hupd hnav
    rcases Anchor.update_some hupd with ⟨rfl, rfl⟩ | ⟨-, hk⟩
    · cases hv.symm.trans hw
      exact hnav
    · cases hv.symm.trans hk
      rfl
  have same : s'.vaults = s.vaults → v'.navPriceBps = v.navPriceBps := by
    intro heq
    cases hv'.symm.trans (heq ▸ hv)
    rfl
  cases h with
  | openFactory _ _ => exact same rfl
  | register hreg =>
      rw [hreg.state] at hv'
      rcases Anchor.update_some hv' with ⟨rfl, -⟩ | ⟨-, hk⟩
      · cases hreg.fresh.symm.trans hv
      · cases hv.symm.trans hk
        rfl
  | @setNav a nav _ _ _ _ => exact absurd rfl (hc a nav)
  | pause _ hload => exact rewritten (loadVault_eq_ok.mp hload).1 hv' rfl
  | issue _ _ _ _ _ _ _ => exact same rfl
  | revoke _ _ _ => exact same rfl
  | record _ _ _ _ _ _ => exact same rfl
  | deposit hd =>
      obtain ⟨_, _, -, -, hvaults⟩ := hd.totals
      rw [hvaults] at hv'
      exact rewritten (loadVault_eq_ok.mp hd.vault).1 hv' rfl
  | redeem hred =>
      rw [hred.state] at hv'
      exact rewritten (loadVault_eq_ok.mp hred.vault).1 hv' rfl
  | transfer _ => exact same rfl

/-- In every state of every run without direct burns of shares, every vault has issued what it
recorded and holds at least its recorded deposits.  No instruction but `set_nav` lowers the
surplus of any vault, none changes the record or the share supply, nor lowers the custody, of a
vault it is not addressed to.  So a redemption that overflows does so in the product. -/
theorem vaults_accounted (h : Reaches ledger ts s) (hburn : NoShareBurns ts) :
    (∀ k v, s.vaults k = some v →
      v.totalSupply.toNat = s.ledger.supply v.shareMint ∧
      ∃ acc, s.ledger.account v.vaultTokenAccount = some acc ∧ v.totalDeposits ≤ acc.amount) ∧
    (∀ now view c s', Step s (.program now view c) s' → ∀ k v, s.vaults k = some v →
      (∃ v', s'.vaults k = some v' ∧
        ((∀ a nav, c ≠ .setNav a nav) → surplus s.ledger v ≤ surplus s'.ledger v')) ∧
      (c.target ≠ some k →
        s'.vaults k = some v ∧
        s'.ledger.supply v.shareMint = s.ledger.supply v.shareMint ∧
        s.ledger.amount v.vaultTokenAccount ≤ s'.ledger.amount v.vaultTokenAccount)) ∧
    (∀ now a x, redeem now a x s = .error (.code .overflow) →
      ∃ v, s.vaults a.assetVault = some v ∧ 2 ^ 64 ≤ x.toNat * v.navPriceBps.toNat) := by
  have hg := h.guarded
  have hs := h.supplied hburn
  refine ⟨?_, ?_, ?_⟩
  · intro k v hv
    refine ⟨hs k v hv, ?_⟩
    obtain ⟨acc, hacc, -⟩ := (hg k v hv).held.account
    have hcov := h.covered hv
    rw [Ledger.amount_of_account hacc] at hcov
    exact ⟨acc, hacc, UInt64.le_iff_toNat_le.mpr hcov⟩
  · intro now view c s' hstep k v hv
    cases hstep with
    | program hsig hexec =>
        have heff := exec_effect hexec
        obtain ⟨v', hv', hm⟩ := effect_moved hg hsig heff hv
        refine ⟨⟨v', hv', ?_⟩, ?_⟩
        · intro hc
          exact hm.surplus (effect_price heff hc hv hv')
        · intro hk
          obtain ⟨hsame, hu⟩ := effect_undisturbed hg hsig heff hv hk
          exact ⟨hsame, hu.supply, hu.custody⟩
  · intro now a x hfail
    obtain ⟨v, hv, hover | ⟨L, hmint, hb, hlt⟩⟩ := redeem_overflow hfail
    · exact ⟨v, hv, hover⟩
    · -- nobody burns more shares than there are
      obtain ⟨_, M, -, hM, -, -, -, -, -, -, hle⟩ := TokenProgram.burn_ok hb
      have hsupply := UInt64.le_iff_toNat_le.mp hle
      rw [← Ledger.supply_of_mint hM, hmint, ← hs _ v hv] at hsupply
      omega

set_option maxRecDepth 2000 in
/-- The vault over the shares of the other one, after everything a holder can do. -/
theorem vaults_accounted_nested :
    ∃ v acc, (final (.genesis Cluster.ledger) Cluster.nested).vaults
        (assetVaultKey Cluster.shares) = some v ∧
      v.totalSupply.toNat =
        (final (.genesis Cluster.ledger) Cluster.nested).ledger.supply v.shareMint ∧
      (final (.genesis Cluster.ledger) Cluster.nested).ledger.account v.vaultTokenAccount = some acc ∧
      v.totalDeposits ≤ acc.amount := by
  have hburn : NoShareBurns (play (.genesis Cluster.ledger) Cluster.nested) := by
    intro t ht k v _
    have hnone : Cluster.nested.all (·.burns.isNone) = true := by decide
    have hlabel := List.all_eq_true.mp hnone _ (label_mem_of_play ht)
    rw [Option.isNone_iff_eq_none.mp hlabel]
    exact nofun
  obtain ⟨v, hv⟩ := Option.isSome_iff_exists.mp
    (show ((final (.genesis Cluster.ledger) Cluster.nested).vaults
      (assetVaultKey Cluster.shares)).isSome = true from rfl)
  obtain ⟨hsupply, acc, hacc, hle⟩ :=
    (vaults_accounted (Cluster.reaches_final (by decide)) hburn).1 _ v hv
  exact ⟨v, acc, hv, hsupply, hacc, hle⟩

end MultiAssetVault
