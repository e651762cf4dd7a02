/-
# `Oragami.Chain.Fairness` — no arbitrage between the two programs

Shares of oragami-vault may be deposited in a vault of multi-asset-vault, and the
other way round.  Prices of all tokens are consistent when they agree with the NAVs
of both programs (`Priced`).  At such prices nothing that happens on the chain adds
to what a set of accounts holds, both programs' own accounts and what comes in from
outside excepted, so no route through the two programs gains anything but by
repricing.

Each program's part is its own result; what it assumes of the state holds on the
chain because its side of the chain is a state the program reaches alone
(`Reaches.vaultRun`, `Reaches.multiRun`).
-/
import Oragami.Chain.Composition
import Oragami.MultiAssetVault.Fairness
import Oragami.OragamiVault.Fairness

namespace Chain

open Lts

variable {K : Type}

/-! ## Flows and prices -/

/-- The account an action takes tokens of a holder from, and the one it gives tokens to. -/
def Action.flow : Action K → Option (Option K × K)
  | .vault _ c => c.flow
  | .multi _ c => c.flow
  | .token c => c.flow

section Unaided

variable [DecidableEq K]

/-- Nothing comes into the accounts `A` but out of them. -/
def Unaided (A : Finset K) (act : Action K) : Prop := ∀ f ∈ act.flow, Ledger.Within A f

instance (A : Finset K) (act : Action K) : Decidable (Unaided A act) :=
  inferInstanceAs (Decidable (∀ f ∈ act.flow, _))

end Unaided

variable [Addresses K] [Deployment K]

/-- The prices agree with the NAVs of both programs. -/
def Priced (p : K → Nat) (s : Chain K) : Prop :=
  OragamiVault.Priced p s.vaultSide ∧ MultiAssetVault.Priced p s.multiSide

/-- Neither program keeps its tokens in `A`. -/
def Outside (A : Finset K) : Prop :=
  OragamiVault.vaultTokenKey ∉ A ∧ ∀ m, MultiAssetVault.vaultTokenKey m ∉ A

variable [DecidableEq K]

instance (p : K → Nat) (s : Chain K) : Decidable (Priced p s) :=
  inferInstanceAs (Decidable (_ ∧ _))

variable [TokenProgram K]

/-! ## Worth -/

section Runs

variable {ledger : Ledger K} {ts us : List (Transition (Chain K) (Action K))} {s₀ s s' : Chain K}
  {act : Action K} {p : K → Nat} {P : Chain K → K → Nat} {A : Finset K}

/-- At consistent prices nothing that happens adds to what `A` holds. -/
theorem Step.worth (h : Reaches ledger ts s) (hp : Priced p s) (hA : Outside A)
    (hin : Unaided A act) (hstep : Step s act s') : s'.ledger.worth p A ≤ s.ledger.worth p A := by
  obtain ⟨_, -, hvault⟩ := h.vaultRun
  obtain ⟨_, -, hmulti⟩ := h.multiRun
  cases hstep with
  | vault _ hexec =>
      exact OragamiVault.effect_worth hvault.guarded hp.1 hA.1 hin (OragamiVault.exec_effect hexec)
  | multi _ hexec =>
      exact MultiAssetVault.effect_worth hmulti.guarded hmulti.registry hmulti.stocked hp.2 hA.2
        hin (MultiAssetVault.exec_effect hexec)
  | token _ hrun => exact TokenCall.run_worth hrun hin

/-- Price all tokens in every state of the chain, consistently with the NAVs of both programs.
Whatever a set of accounts left to itself does with the two, and whatever everybody else does
meanwhile, what it holds is worth at most what it was plus what repricing added on the way:
no route through both programs gains anything, and where no price rises nothing is gained. -/
theorem no_cross_arbitrage (h : Reaches ledger ts s₀) (hrun : Run Step s₀ us s)
    (hp : ∀ t ∈ us, Priced (P t.pre) t.pre) (hA : Outside A)
    (hin : ∀ t ∈ us, Unaided A t.label) :
    s.ledger.worth (P s) A ≤
        s₀.ledger.worth (P s₀) A + (us.map (Ledger.repricing Chain.ledger P A)).sum ∧
    ((∀ t ∈ us, ∀ m, P t.post m ≤ P t.pre m) →
      s.ledger.worth (P s) A ≤ s₀.ledger.worth (P s₀) A) := by
  refine hrun.worth (L := Chain.ledger) ?_
  intro t ht
  obtain ⟨⟨before, hbefore⟩, hstep⟩ := hrun.of_mem ht
  have hreach : Reaches ledger (ts ++ before) t.pre := Run.append_iff.mpr ⟨s₀, h, hbefore⟩
  exact Step.worth hreach (hp t ht) hA (hin t ht) hstep

end Runs

/-! ## A route through both -/

namespace Cluster

open OragamiVault (cvaultMintKey)
open OragamiVault.Cluster (usdc tradeMint admin alice aliceUsdc aliceCvault)

/-- Alice's account for the shares of a vault over cVAULT. -/
def aliceOuter : FreeKey := .num 40

/-- A vault of multi-asset-vault over the shares of oragami-vault. -/
def registerCvault : Action FreeKey :=
  .multi 0 (.registerAsset
    { factory := MultiAssetVault.factoryKey,
      assetVault := MultiAssetVault.assetVaultKey cvaultMintKey,
      shareMint := MultiAssetVault.shareMintKey cvaultMintKey,
      vaultTokenAccount := MultiAssetVault.vaultTokenKey cvaultMintKey,
      assetMint := cvaultMintKey, authority := admin, tokenProgram := TokenProgram.id }
    { ticker := .replicate 8 0, navPriceBps := 20000, minDeposit := 1,
      maxDeposit := 1000000000000, travelRuleRequired := false })

def openOuter : Action FreeKey :=
  .token (.openAccount (MultiAssetVault.shareMintKey cvaultMintKey) alice aliceOuter)

/-- Alice moves cVAULT into that vault, and back. -/
def depositCvault (amount : UInt64) : Action FreeKey :=
  .multi 0 (.deposit
    { assetVault := MultiAssetVault.assetVaultKey cvaultMintKey,
      shareMint := MultiAssetVault.shareMintKey cvaultMintKey,
      vaultTokenAccount := MultiAssetVault.vaultTokenKey cvaultMintKey,
      depositorAssetAccount := aliceCvault, depositorShareAccount := aliceOuter,
      credential := OragamiVault.credentialKey alice, travelRuleData := none, depositor := alice,
      tokenProgram := TokenProgram.id } amount)

def redeemCvault (amount : UInt64) : Action FreeKey :=
  .multi 0 (.redeem
    { assetVault := MultiAssetVault.assetVaultKey cvaultMintKey,
      shareMint := MultiAssetVault.shareMintKey cvaultMintKey,
      vaultTokenAccount := MultiAssetVault.vaultTokenKey cvaultMintKey,
      redeemerShareAccount := aliceOuter, redeemerAssetAccount := aliceCvault, redeemer := alice,
      tokenProgram := TokenProgram.id } amount)

/-- Both programs are open, the second over the shares of the first. -/
def setUpOver : List (Action FreeKey) :=
  OragamiVault.Cluster.setUp.map lift ++ [factory, registerCvault, openOuter]

/-- In through both programs and out again, the inner one marked down on the way. -/
def crossing : List (Action FreeKey) :=
  [lift (OragamiVault.Cluster.deposit 1000), depositCvault 501,
    lift (OragamiVault.Cluster.setNav 9000), redeemCvault 77,
    .vault 0 (.redeem
      { vaultState := OragamiVault.vaultStateKey, cvaultMint := cvaultMintKey,
        vaultTokenAccount := OragamiVault.vaultTokenKey, redeemerCvaultAccount := aliceCvault,
        redeemerDepositAccount := aliceUsdc, redeemer := alice,
        tokenProgram := TokenProgram.id } 33)]

def navOf (s : Chain FreeKey) : Nat := (s.vault.vaultState.map (·.navPriceBps.toNat)).getD 0

/-- Prices through both programs, in 1/10000 of a USDC. -/
def crossPrices (s : Chain FreeKey) (m : FreeKey) : Nat :=
  if m = usdc then 10000
  else if m = cvaultMintKey ∨ m = tradeMint then navOf s
  else if m = MultiAssetVault.shareMintKey cvaultMintKey then
    navOf s * MultiAssetVault.navOf s.multiSide cvaultMintKey / 10000
  else 0

end Cluster

open Cluster in
set_option maxRecDepth 4000 in
theorem no_cross_arbitrage_crossing :
    (final (final (genesis Cluster.ledger) setUpOver) crossing).ledger.worth
        (crossPrices (final (final (genesis Cluster.ledger) setUpOver) crossing))
        {OragamiVault.Cluster.aliceUsdc, OragamiVault.Cluster.aliceCvault, aliceOuter} ≤
      (final (genesis Cluster.ledger) setUpOver).ledger.worth
        (crossPrices (final (genesis Cluster.ledger) setUpOver))
        {OragamiVault.Cluster.aliceUsdc, OragamiVault.Cluster.aliceCvault, aliceOuter} +
      ((play (final (genesis Cluster.ledger) setUpOver) crossing).map
        (Ledger.repricing Chain.ledger crossPrices
          {OragamiVault.Cluster.aliceUsdc, OragamiVault.Cluster.aliceCvault, aliceOuter})).sum := by
  refine (no_cross_arbitrage (reaches_final (by decide)) (run_final (by decide) _) (by decide)
    ⟨by decide, ?_⟩ (by decide)).1
  intro m
  simp only [Finset.mem_insert, Finset.mem_singleton, not_or]
  exact ⟨nofun, nofun, nofun⟩

end Chain
