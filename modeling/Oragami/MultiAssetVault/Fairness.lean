/-
# `Oragami.MultiAssetVault.Fairness` — no arbitrage between vaults

Prices for all tokens at once, deposit tokens and shares alike, are consistent with
the vaults (`Priced`) when every share costs its NAV's part of a token of its
asset:

    price(share) · 10000 = price(asset) · NAV

Vaults may hold the shares of other vaults, and several a token that is worth the
same; the prices run through the chain.  At such prices no instruction of any vault
adds to what a set of accounts holds, nor does a direct call to the token program,
as long as nothing comes in from outside.  So whatever route through whatever
vaults is taken, what is gained is gained by repricing.

An instruction pays out of the token account of its vault what it takes to be
tokens of the vault's asset; that they are, is an invariant of its own (`Stocked`).
-/
import Oragami.Lib.Conversion
import Oragami.Lib.Holdings
import Oragami.MultiAssetVault.Registry

namespace MultiAssetVault

open Anchor Addresses Lts

variable {K : Type}

/-! ## Flows -/

/-- The account an instruction takes tokens of a holder from, and the one it gives tokens to. -/
def Call.flow : Call K → Option (Option K × K)
  | .deposit a _ => some (some a.depositorAssetAccount, a.depositorShareAccount)
  | .redeem a _ => some (some a.redeemerShareAccount, a.redeemerAssetAccount)
  | .transferShares a _ => some (some a.senderShareAccount, a.receiverShareAccount)
  | _ => none

def Action.flow : Action K → Option (Option K × K)
  | .program _ _ c => c.flow
  | .token c => c.flow

section Unaided

variable [DecidableEq K]

/-- Nothing comes into the accounts `A` but out of them. -/
def Unaided (A : Finset K) (act : Action K) : Prop := ∀ f ∈ act.flow, Ledger.Within A f

instance (A : Finset K) (act : Action K) : Decidable (Unaided A act) :=
  inferInstanceAs (Decidable (∀ f ∈ act.flow, _))

end Unaided

/-! ## Prices -/

variable [Addresses K] [Deployment K]

/-- The prices of a registered asset and of the shares in it agree with the NAV. -/
def Priced (p : K → Nat) (s : State K) : Prop :=
  ∀ m ∈ s.registered, ∀ v ∈ s.vaults (assetVaultKey m),
    p v.shareMint * 10000 = p v.assetMint * v.navPriceBps.toNat

instance (p : K → Nat) (s : State K) : Decidable (Priced p s) :=
  inferInstanceAs (Decidable (∀ m ∈ s.registered, _))

theorem Priced.vault {p : K → Nat} {s : State K} {k : K} {v : AssetVault K} (h : Priced p s)
    (hg : Guarded s) (hr : Registry s) (hv : s.vaults k = some v) :
    p v.shareMint * 10000 = p v.assetMint * v.navPriceBps.toNat := by
  have hkey := (hg k v hv).key
  have hvault : s.vaults (assetVaultKey v.assetMint) = some v := hkey ▸ hv
  exact h _ ((hr.filed _).mp ⟨v, hvault⟩) v hvault

/-! ## Whose tokens a vault holds -/

/-- The token account of every vault holds tokens of its asset, for the vault. -/
def Stocked (s : State K) : Prop :=
  ∀ k v, s.vaults k = some v → s.ledger.Holds v.vaultTokenAccount k v.assetMint

omit [Addresses K] [Deployment K] in
theorem stocked_genesis (ledger : Ledger K) : Stocked (State.genesis ledger) := by
  intro k v hv
  cases hv

variable [DecidableEq K] [TokenProgram K]

section Steps

variable {s s' : State K} {act : Action K} {now : Int64}
  {view : View K} {c : Call K}

omit [DecidableEq K] [Addresses K] [Deployment K] [TokenProgram K] in
/-- Vaults rewritten with their asset and account kept, over a ledger that evolved. -/
theorem Stocked.evolves {d e b i : K → Nat} (h : Stocked s) (he : s.ledger.Evolves s'.ledger d e b i)
    (hvaults : ∀ k v', s'.vaults k = some v' → ∃ v, s.vaults k = some v ∧
      v'.assetMint = v.assetMint ∧ v'.vaultTokenAccount = v.vaultTokenAccount) : Stocked s' := by
  intro k v' hv'
  obtain ⟨v, hv, hasset, haccount⟩ := hvaults k v' hv'
  rw [hasset, haccount]
  exact (h k v hv).evolves he

omit [Addresses K] [Deployment K] [TokenProgram K] in
/-- One vault rewritten so. -/
theorem rewritten_from {k : K} {v v' : AssetVault K} (hv : s.vaults k = some v)
    (hvaults : s'.vaults = Function.update s.vaults k (some v')) (hasset : v'.assetMint = v.assetMint)
    (haccount : v'.vaultTokenAccount = v.vaultTokenAccount) :
    ∀ j w', s'.vaults j = some w' → ∃ w, s.vaults j = some w ∧
      w'.assetMint = w.assetMint ∧ w'.vaultTokenAccount = w.vaultTokenAccount := by
  intro j w' hw'
  rw [hvaults] at hw'
  rcases update_some hw' with ⟨rfl, rfl⟩ | ⟨-, hw⟩
  · exact ⟨v, hv, hasset, haccount⟩
  · exact ⟨w', hw, rfl, rfl⟩

theorem effect_stocked (hs : Stocked s) (h : Effect now view s c s') : Stocked s' := by
  have same : s'.vaults = s.vaults → ∀ k v', s'.vaults k = some v' → ∃ v, s.vaults k = some v ∧
      v'.assetMint = v.assetMint ∧ v'.vaultTokenAccount = v.vaultTokenAccount := by
    intro heq k v' hv'
    exact ⟨v', heq ▸ hv', rfl, rfl⟩
  cases h with
  | openFactory _ _ => exact hs.evolves (.refl _) (same rfl)
  | @register a p _ f hr =>
      intro k v hv
      rw [hr.state] at hv ⊢
      rcases update_some hv with ⟨rfl, rfl⟩ | ⟨-, hk⟩
      · exact ⟨_, Ledger.setAccount_account_self .., rfl, rfl⟩
      · refine Ledger.Holds.setAccount (hs k v hk) ?_
        intro heq
        obtain ⟨acc, hacc, -⟩ := hs k v hk
        have hvacant := hr.tokenVacant.1
        rw [← heq] at hvacant
        cases hvacant.symm.trans hacc
  | setNav _ hload _ =>
      exact hs.evolves (.refl _) (rewritten_from (loadVault_eq_ok.mp hload).1 rfl rfl rfl)
  | pause _ hload =>
      exact hs.evolves (.refl _) (rewritten_from (loadVault_eq_ok.mp hload).1 rfl rfl rfl)
  | issue _ _ _ _ _ _ _ => exact hs.evolves (.refl _) (same rfl)
  | revoke _ _ _ => exact hs.evolves (.refl _) (same rfl)
  | record _ _ _ _ _ _ => exact hs.evolves (.refl _) (same rfl)
  | deposit hd =>
      obtain ⟨_, _, -, -, hvaults⟩ := hd.totals
      exact hs.evolves ((TokenProgram.transfer_evolves hd.transfer).trans
        (TokenProgram.mintTo_evolves hd.mint))
        (rewritten_from (loadVault_eq_ok.mp hd.vault).1 hvaults rfl rfl)
  | redeem hr =>
      have hvaults := congrArg Accounts.vaults (congrArg State.toAccounts hr.state)
      exact hs.evolves ((TokenProgram.burn_evolves hr.burn).trans
        (TokenProgram.transfer_evolves hr.transfer))
        (rewritten_from (loadVault_eq_ok.mp hr.vault).1 hvaults rfl rfl)
  | transfer ht => exact hs.evolves (TokenProgram.transfer_evolves ht.transfer) (same rfl)

theorem step_stocked (hg : Guarded s) (hs : Stocked s) (h : Step s act s') : Stocked s' := by
  cases h with
  | program _ hexec => exact effect_stocked hs (exec_effect hexec)
  | token hsig hrun =>
      intro k v hv
      refine TokenCall.run_holds hrun (hs k v hv) ?_
      intro heq
      exact hsig (heq ▸ (hg k v hv).owned)

end Steps

/-! ## Worth -/

section Worth

variable {s s' : State K} {act : Action K} {now : Int64} {view : View K} {c : Call K}
  {p : K → Nat} {A : Finset K}

/-- At consistent prices no instruction adds to what `A` holds. -/
theorem effect_worth (hg : Guarded s) (hr : Registry s) (hs : Stocked s) (hp : Priced p s)
    (hA : ∀ m, vaultTokenKey m ∉ A) (hin : Unaided A (.program now view c))
    (h : Effect now view s c s') : s'.ledger.worth p A ≤ s.ledger.worth p A := by
  cases h with
  | openFactory _ _ => exact Nat.le_refl _
  | @register a p' _ f hreg =>
      -- an empty account in a vacant place
      obtain ⟨hvacant, -⟩ := hreg.tokenVacant
      rw [hreg.state]
      refine Nat.le_of_eq (Ledger.worth_setAccount ?_)
      simp [Ledger.amount, hvacant]
  | setNav _ _ _ => exact Nat.le_refl _
  | pause _ _ => exact Nat.le_refl _
  | issue _ _ _ _ _ _ _ => exact Nat.le_refl _
  | revoke _ _ _ => exact Nat.le_refl _
  | record _ _ _ _ _ _ => exact Nat.le_refl _
  | @deposit a amount _ v cred shares L hd =>
      obtain ⟨hv, -⟩ := loadVault_eq_ok.mp hd.vault
      obtain ⟨acc, hacc, -, hmint⟩ := hs _ v hv
      obtain ⟨-, -, hprice⟩ := sharesFor_eq_ok.mp hd.price
      refine Ledger.worth_le_of_buy (hd.vaultTokenAccount ▸ hd.transfer) (hd.shareMint ▸ hd.mint)
        hacc ?_ (hin _ rfl) ?_
      · rw [(hg _ v hv).vaultTokenAccount]
        exact hA _
      · rw [hmint, hprice]
        exact Conversion.buys_worth_le (hp.vault hg hr hv) _
  | @redeem a x _ v assetAmount supply L hred =>
      obtain ⟨hv, -⟩ := loadVault_eq_ok.mp hred.vault
      obtain ⟨acc, hacc, -, hmint⟩ := hs _ v hv
      obtain ⟨-, hprice⟩ := payoutFor_eq_ok.mp hred.payout
      refine Ledger.worth_le_of_sell (hred.shareMint ▸ hred.burn)
        (hred.vaultTokenAccount ▸ hred.transfer) hacc ?_ (hin _ rfl) ?_
      · rw [(hg _ v hv).vaultTokenAccount]
        exact hA _
      · rw [hmint, hprice]
        exact Conversion.pays_worth_le (by decide) (hp.vault hg hr hv) _
  | transfer ht =>
      -- as if the sender had called the token program
      exact TokenCall.run_worth (c := .transfer _ _ _ _) ht.transfer hin

theorem Step.worth (hg : Guarded s) (hr : Registry s) (hs : Stocked s) (hp : Priced p s)
    (hA : ∀ m, vaultTokenKey m ∉ A) (hin : Unaided A act) (h : Step s act s') :
    s'.ledger.worth p A ≤ s.ledger.worth p A := by
  cases h with
  | program _ hexec => exact effect_worth hg hr hs hp hA hin (exec_effect hexec)
  | token _ hrun => exact TokenCall.run_worth hrun hin

end Worth

/-! ## Runs -/

/-- What a change of the prices adds to what `A` holds. -/
def repricing (P : State K → K → Nat) (A : Finset K) (t : Transition (State K) (Action K)) : Nat :=
  t.post.ledger.worth (fun m => P t.post m - P t.pre m) A

variable {ledger : Ledger K} {ts us : List (Transition (State K) (Action K))} {s₀ s : State K}
  {P : State K → K → Nat} {A : Finset K}

theorem Reaches.stocked (h : Reaches ledger ts s) : Stocked s := by
  have hboth : Guarded s ∧ Stocked s := by
    refine Run.invariant (I := fun s => Guarded s ∧ Stocked s)
      ⟨guarded_genesis ledger, stocked_genesis ledger⟩ ?_ h
    rintro s act s' ⟨hg, hs⟩ hstep
    exact ⟨step_guarded hg hstep, step_stocked hg hs hstep⟩
  exact hboth.2

/-- Price all tokens in every state, consistently with the NAVs of all vaults.  Whatever a set of
accounts left to itself does with whatever vaults, and whatever everybody else does meanwhile,
what it holds is worth at most what it was plus what repricing added on the way: no route
through the vaults gains anything, and where no price rises nothing is gained. -/
theorem no_arbitrage (h : Reaches ledger ts s₀) (hrun : Run Step s₀ us s)
    (hp : ∀ t ∈ us, Priced (P t.pre) t.pre) (hA : ∀ m, vaultTokenKey m ∉ A)
    (hin : ∀ t ∈ us, Unaided A t.label) :
    s.ledger.worth (P s) A ≤ s₀.ledger.worth (P s₀) A + (us.map (repricing P A)).sum ∧
    ((∀ t ∈ us, ∀ m, P t.post m ≤ P t.pre m) →
      s.ledger.worth (P s) A ≤ s₀.ledger.worth (P s₀) A) := by
  refine hrun.worth (L := State.ledger) ?_
  intro t ht
  obtain ⟨⟨before, hbefore⟩, hstep⟩ := hrun.of_mem ht
  have hreach : Reaches ledger (ts ++ before) t.pre := Run.append_iff.mpr ⟨s₀, h, hbefore⟩
  exact hstep.worth hreach.guarded hreach.registry hreach.stocked (hp t ht) hA (hin t ht)

/-- The NAV of the vault of an asset. -/
def navOf (s : State FreeKey) (m : FreeKey) : Nat :=
  ((s.vaults (assetVaultKey m)).map (·.navPriceBps.toNat)).getD 0

/-- Prices through both vaults of the cluster, in 1/10000 of a USDC. -/
def nestedPrices (s : State FreeKey) (m : FreeKey) : Nat :=
  if m = Cluster.usdc then 10000
  else if m = Cluster.shares then navOf s Cluster.usdc
  else if m = shareMintKey Cluster.shares then
    navOf s Cluster.usdc * navOf s Cluster.shares / 10000
  else 0

/-- In through both vaults and out again, the inner one marked down on the way. -/
def roundTrip : List (Action FreeKey) :=
  [Cluster.deposit Cluster.usdc Cluster.aliceUsdc Cluster.aliceShares 1000,
    Cluster.deposit Cluster.shares Cluster.aliceShares Cluster.aliceOuter 401,
    Cluster.setNav Cluster.usdc 9000,
    Cluster.transferShares Cluster.usdc Cluster.aliceShares Cluster.aliceSpare 100,
    Cluster.redeem Cluster.shares Cluster.aliceOuter Cluster.aliceShares 51,
    Cluster.redeem Cluster.usdc Cluster.aliceShares Cluster.aliceUsdc 33]

set_option maxRecDepth 4000 in
theorem no_arbitrage_roundTrip :
    (final (final (.genesis Cluster.ledger) Cluster.setUp) roundTrip).ledger.worth
        (nestedPrices (final (final (.genesis Cluster.ledger) Cluster.setUp) roundTrip))
        {Cluster.aliceUsdc, Cluster.aliceShares, Cluster.aliceSpare, Cluster.aliceOuter} ≤
      (final (.genesis Cluster.ledger) Cluster.setUp).ledger.worth
          (nestedPrices (final (.genesis Cluster.ledger) Cluster.setUp))
          {Cluster.aliceUsdc, Cluster.aliceShares, Cluster.aliceSpare, Cluster.aliceOuter} +
        ((play (final (.genesis Cluster.ledger) Cluster.setUp) roundTrip).map
          (repricing nestedPrices
            {Cluster.aliceUsdc, Cluster.aliceShares, Cluster.aliceSpare, Cluster.aliceOuter})).sum := by
  refine (no_arbitrage (Cluster.reaches_final (by decide)) (Cluster.run_final (by decide) _)
    (by decide) ?_ (by decide)).1
  intro m
  simp only [Finset.mem_insert, Finset.mem_singleton, not_or]
  exact ⟨nofun, nofun, nofun, nofun⟩

end MultiAssetVault
