/-
# `Oragami.Chain.Backing` — all holders can be paid, through both programs

What a vault holds covers the shares it counts, as long as its NAV has not risen.
For holders this says something only if the count is right: there are not more
shares in anybody's accounts than the vault counts, whatever the other program and
the token program have done with them.

That is a fact about the ledger alone (`Ledger.Balanced`), so it is enough that the
token program keeps it: an instruction of either program is a few token calls.
With it the bounds of the two programs compose.  A vault over cVAULT is itself a
holder of cVAULT, and what its own holders are owed in deposit tokens, together
with what everybody else is owed for shares of oragami-vault, is in the custody of
oragami-vault.
-/
import Oragami.Chain.Fairness
import Oragami.MultiAssetVault.Redemption
import Oragami.OragamiVault.Supply

open Lts

/-! ## What each program owes the holders of its shares -/

namespace OragamiVault

variable {K : Type} [DecidableEq K] [Addresses K] [Deployment K] [TokenProgram K]
  {ledger : Ledger K} {ts : List (Transition (State K) (Action K))} {s : State K}
  {vs : VaultState K}

/-- In a run that never raised the NAV, any accounts together can be paid for their shares. -/
theorem Reaches.owed (h : Reaches ledger ts s) (hbalanced : s.ledger.Balanced)
    (hfresh : OpensOverFreshMint ts) (hnav : NavNeverRaised ts) (hvs : s.vaultState = some vs)
    (A : Finset K) :
    vs.navPriceBps.toNat * (s.ledger.held vs.cvaultMint A + s.ledger.held vs.cvaultTradeMint A) ≤
      10000 * s.ledger.amount vs.vaultTokenAccount := by
  have hcover := h.surplus_lifts hvs
  rw [h.no_lifts hnav, surplus] at hcover
  have htotal := ((h.supplied hfresh).issued hvs).total
  rw [← (h.guarded vs hvs).cvaultMint] at htotal
  have hshares : s.ledger.held vs.cvaultMint A + s.ledger.held vs.cvaultTradeMint A ≤
      vs.totalSupply.toNat := by
    have hcvault := hbalanced vs.cvaultMint A
    have htrade := hbalanced vs.cvaultTradeMint A
    omega
  have hall := Nat.mul_le_mul_left vs.navPriceBps.toNat hshares
  omega

end OragamiVault

namespace MultiAssetVault

variable {K : Type} [DecidableEq K] [Addresses K] [Deployment K] [TokenProgram K]
  {ledger : Ledger K} {ts : List (Transition (State K) (Action K))} {s s' : State K} {k : K}
  {v : AssetVault K}

/-- No vault has fewer shares on its books than there are. -/
def Counted (s : State K) : Prop :=
  ∀ k v, s.vaults k = some v → s.ledger.supply v.shareMint ≤ v.totalSupply.toNat

theorem step_counted {act : Action K} (hg : Guarded s) (hs : Counted s) (h : Step s act s') :
    Counted s' := by
  cases h with
  | program hsig hexec =>
      intro k v' hv'
      rcases effect_cases hg hsig (exec_effect hexec) hv' with ⟨a, p, f, hreg, rfl, rfl⟩ | ⟨v, hv, hm⟩
      · rw [hreg.supply]
        exact Nat.zero_le _
      · have hissued := hm.issued
        have hle := hs k v hv
        rw [hm.shareMint]
        omega
  | token hsig hrun =>
      intro k v hv
      obtain ⟨M, hM, hauth⟩ := (hg k v hv).held.mint
      have hsupply := TokenCall.run_supply (P := Owned) hrun hM (by
        intro auth hauth'
        cases hauth.symm.trans hauth'
        exact (hg k v hv).owned) hsig
      exact (Nat.le_of_add_right_le (Nat.le_of_eq hsupply)).trans (hs k v hv)

theorem Reaches.counted (h : Reaches ledger ts s) : Counted s := by
  refine Run.history (I := fun _ s => Counted s) (fun _ _ hv => by cases hv) ?_ h
  intro ts s act s' hr hs hstep
  exact step_counted (Reaches.guarded hr) hs hstep

/-- In a run that never raised the NAV of a vault, any accounts together can be paid for their
shares of it. -/
theorem Reaches.owed (h : Reaches ledger ts s) (hbalanced : s.ledger.Balanced)
    (hnav : NavNeverRaised k ts) (hv : s.vaults k = some v) (A : Finset K) :
    v.navPriceBps.toNat * s.ledger.held v.shareMint A ≤
      10000 * s.ledger.amount v.vaultTokenAccount := by
  have hshares : s.ledger.held v.shareMint A ≤ v.totalSupply.toNat :=
    (hbalanced v.shareMint A).trans (h.counted k v hv)
  exact (Nat.mul_le_mul_left _ hshares).trans (h.solvent hnav hv)

end MultiAssetVault

namespace Chain

section Backing

variable {K : Type} [DecidableEq K] [Addresses K] [Deployment K] [TokenProgram K]
  {ledger : Ledger K} {ts : List (Transition (Chain K) (Action K))} {s : Chain K}

/-! ## The ledger of the chain -/

theorem Step.balanced {s' : Chain K} {act : Action K} (hs : s.ledger.Balanced)
    (h : Step s act s') : s'.ledger.Balanced := by
  cases h with
  | vault _ hexec =>
      obtain ⟨cs, hcs⟩ := (OragamiVault.exec_effect hexec).issues
      exact TokenCall.runs_invariant (fun hL hrun => TokenCall.run_balanced hrun hL) hs hcs.runs
  | multi _ hexec =>
      obtain ⟨cs, hcs⟩ := (MultiAssetVault.exec_effect hexec).issues
      exact TokenCall.runs_invariant (fun hL hrun => TokenCall.run_balanced hrun hL) hs hcs.runs
  | token _ hrun => exact TokenCall.run_balanced hrun hs

theorem Reaches.balanced (h : Reaches ledger ts s) (hledger : ledger.Balanced) :
    s.ledger.Balanced :=
  Run.invariant (I := fun s => s.ledger.Balanced) hledger Step.balanced h

/-! ## What a run did to the NAVs -/

/-- An instruction of oragami-vault, as the program's own transition. -/
def onVault (t : Transition (Chain K) (Action K)) :
    Option (Transition (OragamiVault.State K) (OragamiVault.Action K)) :=
  match t.label with
  | .vault now c => some ⟨t.pre.vaultSide, .program now c, t.post.vaultSide⟩
  | _ => none

/-- An instruction of multi-asset-vault, as the program's own transition. -/
def onMulti (t : Transition (Chain K) (Action K)) :
    Option (Transition (MultiAssetVault.State K) (MultiAssetVault.Action K)) :=
  match t.label with
  | .multi now c => some ⟨t.pre.multiSide, .program now t.pre.view c, t.post.multiSide⟩
  | _ => none

/-- oragami-vault was opened only over a tradeable mint that it alone issues, and its NAV was
never raised. -/
def VaultSteady (ts : List (Transition (Chain K) (Action K))) : Prop :=
  ∀ t ∈ ts, ∀ u ∈ onVault t, OragamiVault.freshTradeMint u = true ∧ OragamiVault.raisesNav u = false

/-- The NAV of the vault at `k` was never raised. -/
def MultiSteady (k : K) (ts : List (Transition (Chain K) (Action K))) : Prop :=
  ∀ t ∈ ts, ∀ u ∈ onMulti t, MultiAssetVault.raisesNav k u = false

instance (ts : List (Transition (Chain K) (Action K))) : Decidable (VaultSteady ts) :=
  inferInstanceAs (Decidable (∀ t ∈ ts, ∀ u ∈ onVault t, _))

instance (k : K) (ts : List (Transition (Chain K) (Action K))) : Decidable (MultiSteady k ts) :=
  inferInstanceAs (Decidable (∀ t ∈ ts, ∀ u ∈ onMulti t, _))

omit [DecidableEq K] [Addresses K] [Deployment K] [TokenProgram K] in
/-- A transition that shows a program nothing but direct calls shows it no other label. -/
theorem label_of_calls {σ δ : Type} {us : List (Transition σ δ)} {label : TokenCall K → δ}
    {cs : List (TokenCall K)} (h : us.map (·.label) = cs.map label) {u : Transition σ δ}
    (hu : u ∈ us) : ∃ c, u.label = label c := by
  have hmem : u.label ∈ cs.map label := h ▸ List.mem_map_of_mem hu
  obtain ⟨c, -, hc⟩ := List.mem_map.mp hmem
  exact ⟨c, hc.symm⟩

omit [TokenProgram K] in
theorem VaultView.steady {t : Transition (Chain K) (Action K)}
    {us : List (Transition (OragamiVault.State K) (OragamiVault.Action K))} (h : VaultView t us)
    (ht : ∀ u ∈ onVault t,
      OragamiVault.freshTradeMint u = true ∧ OragamiVault.raisesNav u = false) :
    ∀ u ∈ us, OragamiVault.freshTradeMint u = true ∧ OragamiVault.raisesNav u = false := by
  obtain ⟨pre, act, post⟩ := t
  intro u hu
  cases act with
  | vault now c =>
      cases h
      cases List.mem_singleton.mp hu
      exact ht _ rfl
  | multi now c =>
      obtain ⟨cs, hlabels, -⟩ := h
      obtain ⟨d, hd⟩ := label_of_calls hlabels hu
      simp only [OragamiVault.freshTradeMint, OragamiVault.raisesNav, hd, and_self]
  | token c =>
      cases h
      cases List.mem_singleton.mp hu
      exact ⟨rfl, rfl⟩

omit [TokenProgram K] in
theorem MultiView.steady {k : K} {t : Transition (Chain K) (Action K)}
    {us : List (Transition (MultiAssetVault.State K) (MultiAssetVault.Action K))}
    (h : MultiView t us) (ht : ∀ u ∈ onMulti t, MultiAssetVault.raisesNav k u = false) :
    ∀ u ∈ us, MultiAssetVault.raisesNav k u = false := by
  obtain ⟨pre, act, post⟩ := t
  intro u hu
  cases act with
  | vault now c =>
      obtain ⟨cs, hlabels, -⟩ := h
      obtain ⟨d, hd⟩ := label_of_calls hlabels hu
      simp only [MultiAssetVault.raisesNav, hd]
  | multi now c =>
      cases h
      cases List.mem_singleton.mp hu
      exact ht _ rfl
  | token c =>
      cases h
      cases List.mem_singleton.mp hu
      rfl

/-- A steady run of the chain is a steady run of oragami-vault alone, -/
theorem Reaches.vault_steady (h : Reaches ledger ts s) (hsteady : VaultSteady ts) :
    ∃ us, OragamiVault.Reaches ledger us s.vaultSide ∧ OragamiVault.OpensOverFreshMint us ∧
      OragamiVault.NavNeverRaised us := by
  obtain ⟨uss, hall, hrun⟩ := h.vaultRun
  have hboth := forall_mem_flatten hall VaultView.steady hsteady
  exact ⟨uss.flatten, hrun, fun u hu => (hboth u hu).1, fun u hu => (hboth u hu).2⟩

/-- and of multi-asset-vault. -/
theorem Reaches.multi_steady {k : K} (h : Reaches ledger ts s) (hsteady : MultiSteady k ts) :
    ∃ us, MultiAssetVault.Reaches ledger us s.multiSide ∧ MultiAssetVault.NavNeverRaised k us := by
  obtain ⟨uss, hall, hrun⟩ := h.multiRun
  exact ⟨uss.flatten, hrun, forall_mem_flatten hall MultiView.steady hsteady⟩

/-! ## Backing -/

/-- In a run of the chain that starts with a balanced ledger and never raises the NAVs in
question, any accounts together can be paid for the shares they hold: those of a vault of
multi-asset-vault by that vault, those of oragami-vault, of either kind, by oragami-vault.
And where a vault holds cVAULT, what oragami-vault holds covers at once the shares of
oragami-vault in any accounts but that vault's and, in deposit tokens, the shares of the
vault over them. -/
theorem holders_backed (h : Reaches ledger ts s) (hledger : ledger.Balanced) (A : Finset K) :
    (∀ k v, MultiSteady k ts → s.multi.vaults k = some v →
      v.navPriceBps.toNat * s.ledger.held v.shareMint A ≤
        10000 * s.ledger.amount v.vaultTokenAccount) ∧
    (VaultSteady ts → ∀ vs, s.vault.vaultState = some vs →
      vs.navPriceBps.toNat * (s.ledger.held vs.cvaultMint A + s.ledger.held vs.cvaultTradeMint A) ≤
          10000 * s.ledger.amount vs.vaultTokenAccount ∧
      ∀ k v, MultiSteady k ts → s.multi.vaults k = some v → v.assetMint = vs.cvaultMint →
        v.vaultTokenAccount ∉ A →
        vs.navPriceBps.toNat * (10000 *
              (s.ledger.held vs.cvaultMint A + s.ledger.held vs.cvaultTradeMint A) +
            v.navPriceBps.toNat * s.ledger.held v.shareMint A) ≤
          10000 * 10000 * s.ledger.amount vs.vaultTokenAccount) := by
  have hbalanced := h.balanced hledger
  have hmulti : ∀ k v, MultiSteady k ts → s.multi.vaults k = some v →
      v.navPriceBps.toNat * s.ledger.held v.shareMint A ≤
        10000 * s.ledger.amount v.vaultTokenAccount := by
    intro k v hsteady hv
    obtain ⟨us, hrun, hnav⟩ := h.multi_steady hsteady
    exact hrun.owed hbalanced hnav hv A
  refine ⟨hmulti, ?_⟩
  intro hsteady vs hvs
  obtain ⟨us, hrun, hfresh, hnav⟩ := h.vault_steady hsteady
  have howed : ∀ B, vs.navPriceBps.toNat *
      (s.ledger.held vs.cvaultMint B + s.ledger.held vs.cvaultTradeMint B) ≤
        10000 * s.ledger.amount vs.vaultTokenAccount :=
    fun B => hrun.owed hbalanced hfresh hnav hvs B
  refine ⟨howed A, ?_⟩
  intro k v hsteadyk hv hasset hout
  obtain ⟨_, -, hmultirun⟩ := h.multiRun
  obtain ⟨acc, hacc, -, hmint⟩ := hmultirun.stocked k v hv
  -- the vault over cVAULT is one more account of cVAULT
  have hinsert : s.ledger.held vs.cvaultMint (insert v.vaultTokenAccount A) =
      s.ledger.amount v.vaultTokenAccount + s.ledger.held vs.cvaultMint A :=
    Ledger.held_insert hacc (hmint.trans hasset) hout
  have htrade : s.ledger.held vs.cvaultTradeMint A ≤
      s.ledger.held vs.cvaultTradeMint (insert v.vaultTokenAccount A) :=
    Ledger.held_mono (Finset.subset_insert _ _)
  have hall := howed (insert v.vaultTokenAccount A)
  have houter := hmulti k v hsteadyk hv
  rw [hinsert] at hall
  have hsum : 10000 * (s.ledger.held vs.cvaultMint A + s.ledger.held vs.cvaultTradeMint A) +
      v.navPriceBps.toNat * s.ledger.held v.shareMint A ≤
      10000 * (s.ledger.amount v.vaultTokenAccount + s.ledger.held vs.cvaultMint A +
        s.ledger.held vs.cvaultTradeMint (insert v.vaultTokenAccount A)) := by
    omega
  calc vs.navPriceBps.toNat * (10000 *
          (s.ledger.held vs.cvaultMint A + s.ledger.held vs.cvaultTradeMint A) +
          v.navPriceBps.toNat * s.ledger.held v.shareMint A)
      ≤ vs.navPriceBps.toNat * (10000 * (s.ledger.amount v.vaultTokenAccount +
          s.ledger.held vs.cvaultMint A +
          s.ledger.held vs.cvaultTradeMint (insert v.vaultTokenAccount A))) :=
        Nat.mul_le_mul_left _ hsum
    _ = 10000 * (vs.navPriceBps.toNat * (s.ledger.amount v.vaultTokenAccount +
          s.ledger.held vs.cvaultMint A +
          s.ledger.held vs.cvaultTradeMint (insert v.vaultTokenAccount A))) := by ring
    _ ≤ 10000 * (10000 * s.ledger.amount vs.vaultTokenAccount) := Nat.mul_le_mul_left _ hall
    _ = 10000 * 10000 * s.ledger.amount vs.vaultTokenAccount := by ring

end Backing

/-! ## Two levels of holders -/

namespace Cluster

open OragamiVault (cvaultMintKey)
open OragamiVault.Cluster (usdc aliceUsdc aliceCvault aliceTrade)

/-- All the USDC there is is Alice's. -/
theorem ledger_balanced : ledger.Balanced := by
  intro m A
  have hterm : ∀ k ∈ A, ledger.priceAt (Pi.single m 1) k * ledger.amount k =
      if aliceUsdc = k then ledger.supply m else 0 := by
    intro k _
    by_cases hk : aliceUsdc = k
    · subst hk
      rw [if_pos rfl]
      by_cases hm : m = usdc
      · subst hm
        rfl
      · have hnone : ledger.supply m = 0 := by
          by_cases ht : m = OragamiVault.Cluster.tradeMint
          · subst ht
            rfl
          · simp [Ledger.supply, ledger, hm, ht]
        have hprice : ledger.priceAt (Pi.single m 1) aliceUsdc = 0 := by
          show (Pi.single m 1 : FreeKey → Nat) usdc = 0
          exact Pi.single_eq_of_ne (Ne.symm hm) 1
        rw [hprice, hnone, Nat.zero_mul]
    · rw [if_neg hk]
      by_cases ht : k = aliceTrade
      · subst ht
        rfl
      · simp [Ledger.amount, ledger, Ne.symm hk, ht]
  rw [Ledger.held, Ledger.worth, Finset.sum_congr rfl hterm, Finset.sum_ite_eq]
  split
  · exact Nat.le_refl _
  · exact Nat.zero_le _

/-- Alice holds shares of both levels, the lower of both kinds, and both were marked down. -/
def twoLevels : List (Action FreeKey) :=
  setUpOver ++ [lift (OragamiVault.Cluster.deposit 1000), depositCvault 501,
    lift (OragamiVault.Cluster.convert 100), lift (OragamiVault.Cluster.setNav 9000),
    .multi 0 (.setNav ⟨MultiAssetVault.factoryKey, MultiAssetVault.assetVaultKey cvaultMintKey,
      OragamiVault.Cluster.admin⟩ 15000)]

end Cluster

open Cluster in
open OragamiVault.Cluster (aliceCvault aliceTrade) in
set_option maxRecDepth 4000 in
theorem holders_backed_twoLevels :
    ∃ vs v, (final (genesis Cluster.ledger) twoLevels).vault.vaultState = some vs ∧
      (final (genesis Cluster.ledger) twoLevels).multi.vaults
        (MultiAssetVault.assetVaultKey OragamiVault.cvaultMintKey) = some v ∧
      vs.navPriceBps.toNat * (10000 *
          ((final (genesis Cluster.ledger) twoLevels).ledger.held vs.cvaultMint
              {aliceCvault, aliceTrade, aliceOuter} +
            (final (genesis Cluster.ledger) twoLevels).ledger.held vs.cvaultTradeMint
              {aliceCvault, aliceTrade, aliceOuter}) +
          v.navPriceBps.toNat * (final (genesis Cluster.ledger) twoLevels).ledger.held v.shareMint
            {aliceCvault, aliceTrade, aliceOuter}) ≤
        10000 * 10000 *
          (final (genesis Cluster.ledger) twoLevels).ledger.amount vs.vaultTokenAccount := by
  obtain ⟨vs, hvs, hmint⟩ := Option.map_eq_some_iff.mp
    (show (final (genesis Cluster.ledger) twoLevels).vault.vaultState.map (·.cvaultMint) =
      some OragamiVault.cvaultMintKey from rfl)
  obtain ⟨v, hv, hfields⟩ := Option.map_eq_some_iff.mp
    (show ((final (genesis Cluster.ledger) twoLevels).multi.vaults
        (MultiAssetVault.assetVaultKey OragamiVault.cvaultMintKey)).map
          (fun v => (v.assetMint, v.vaultTokenAccount)) =
      some (OragamiVault.cvaultMintKey,
        MultiAssetVault.vaultTokenKey OragamiVault.cvaultMintKey) from rfl)
  obtain ⟨hasset, haccount⟩ := Prod.mk.inj hfields
  have hrun : Reaches Cluster.ledger (play (genesis Cluster.ledger) twoLevels)
      (final (genesis Cluster.ledger) twoLevels) := reaches_final (by decide)
  have hbacked := holders_backed hrun ledger_balanced
    {aliceCvault, aliceTrade, aliceOuter}
  exact ⟨vs, v, hvs, hv, (hbacked.2 (by decide) vs hvs).2 _ v (by decide) hv
    (hasset.trans hmint.symm) (by rw [haccount]; decide)⟩

end Chain
