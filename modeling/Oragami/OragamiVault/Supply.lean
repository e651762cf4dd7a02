/-
# `Oragami.OragamiVault.Supply` — one supply over two share tokens

The vault state counts shares once, in `totalSupply`, while they circulate as
two tokens: deposits and redemptions mint and burn cVAULT and move the count,
conversions burn one and mint the other and leave it.  `Issued` is the invariant
that makes this right: the count is the sum of the two supplies and of what
holders have burned without the program, `directBurns`, which its own
instructions never see.

It rests on what the tradeable mint was when the vault was opened
(`OpensOverFreshMint`): issued by the vault state address alone, with nothing in
circulation.  That it is not the cVAULT mint follows, for that one did not exist
yet.
-/
import Oragami.OragamiVault.Accounting
import Oragami.OragamiVault.Scenario

namespace OragamiVault

open Addresses Lts

variable {K : Type} [Addresses K] [Deployment K]

/-! ## The invariant -/

/-- The shares on the books are the two supplies and the `burned` ones. -/
structure Issued (L : Ledger K) (vs : VaultState K) (burned : Nat) : Prop where
  distinct : vs.cvaultTradeMint ≠ cvaultMintKey
  trade : ∃ M, L.mint vs.cvaultTradeMint = some M ∧ M.mintAuthority = some vaultStateKey
  total : vs.totalSupply.toNat =
    L.supply cvaultMintKey + L.supply vs.cvaultTradeMint + burned

/-- `Issued` once the vault exists; before, nothing was burned. -/
def Supplied (s : State K) (burned : Nat) : Prop :=
  match s.vaultState with
  | none => burned = 0
  | some vs => Issued s.ledger vs burned

theorem Supplied.issued {s : State K} {vs : VaultState K} {burned : Nat} (h : Supplied s burned)
    (hvs : s.vaultState = some vs) : Issued s.ledger vs burned := by
  rw [Supplied, hvs] at h
  exact h

theorem supplied_of {s : State K} {vs : VaultState K} {burned : Nat}
    (hvs : s.vaultState = some vs) (h : Issued s.ledger vs burned) : Supplied s burned := by
  rw [Supplied, hvs]
  exact h

theorem supplied_genesis (ledger : Ledger K) : Supplied (State.genesis ledger) 0 := rfl

/-- The invariant looks at the vault state and the ledger only. -/
theorem Supplied.congr {s s' : State K} {burned : Nat} (h : Supplied s burned)
    (hvs : s'.vaultState = s.vaultState) (hL : s'.ledger = s.ledger) : Supplied s' burned := by
  unfold Supplied at h ⊢
  rw [hvs, hL]
  exact h

section Moves

variable {L L' : Ledger K} {vs vs' : VaultState K} {burned : Nat}

/-- Tokens minted and burned by the program, with the count moved as the sum of the two
supplies moved. -/
theorem Issued.evolves {d c b m : K → Nat} (h : Issued L vs burned) (he : L.Evolves L' d c b m)
    (htrade : vs'.cvaultTradeMint = vs.cvaultTradeMint)
    (htotal : vs'.totalSupply.toNat + (b cvaultMintKey + b vs.cvaultTradeMint) =
      vs.totalSupply.toNat + (m cvaultMintKey + m vs.cvaultTradeMint)) :
    Issued L' vs' burned where
  distinct := htrade ▸ h.distinct
  trade := by
    obtain ⟨M, hM, hauth⟩ := h.trade
    obtain ⟨M', hM', hs⟩ := he.mint hM
    exact ⟨M', htrade ▸ hM', hs.mintAuthority.trans hauth⟩
  total := by
    have hc := he.supply cvaultMintKey
    have ht := he.supply vs.cvaultTradeMint
    have hsum := h.total
    rw [htrade]
    omega

end Moves

variable [DecidableEq K]

/-- A vault is opened only over a tradeable mint that it alone issues, and of which there
is nothing yet. -/
def freshTradeMint (t : Transition (State K) (Action K)) : Bool :=
  match t.label with
  | .program _ (.initializeVault _ p) =>
      (t.pre.ledger.mint p.cvaultTradeMint).any fun M =>
        M.mintAuthority = some vaultStateKey ∧ M.supply = 0
  | _ => true

def OpensOverFreshMint (ts : List (Transition (State K) (Action K))) : Prop :=
  ∀ t ∈ ts, freshTradeMint t = true

instance (ts : List (Transition (State K) (Action K))) : Decidable (OpensOverFreshMint ts) :=
  inferInstanceAs (Decidable (∀ t ∈ ts, _))

/-- The shares a step burned without the program. -/
def directBurn (t : Transition (State K) (Action K)) : Nat :=
  match t.label, t.pre.vaultState with
  | .token c, some vs => c.burned vs.cvaultMint + c.burned vs.cvaultTradeMint
  | _, _ => 0

/-- The shares a run burned without the program. -/
def directBurns (ts : List (Transition (State K) (Action K))) : Nat := (ts.map directBurn).sum

section Steps

variable {s s' : State K} {vs : VaultState K} {burned : Nat}

theorem Initialized.issued {a : InitializeVault K} {p : InitializeVaultParams K}
    (h : Initialized a p s s' vs) {M : Mint K} (hM : s.ledger.mint p.cvaultTradeMint = some M)
    (hauth : M.mintAuthority = some vaultStateKey) (hsupply : M.supply = 0) :
    Issued s'.ledger vs 0 := by
  have hne : p.cvaultTradeMint ≠ cvaultMintKey := by
    intro heq
    rw [heq, h.cvaultVacant.2] at hM
    cases hM
  have htrade : s'.ledger.mint p.cvaultTradeMint = some M := by
    rw [h.ledger]
    exact (Ledger.setMint_mint_ne _ _ hne).trans hM
  have hcvault : s'.ledger.mint cvaultMintKey = some ⟨.token, some vaultStateKey, 0⟩ := by
    rw [h.ledger]
    exact Ledger.setMint_mint_self ..
  refine ⟨h.cvaultTradeMint ▸ hne, ⟨M, h.cvaultTradeMint ▸ htrade, hauth⟩, ?_⟩
  rw [h.totalSupply, h.cvaultTradeMint, Ledger.supply_of_mint hcvault,
    Ledger.supply_of_mint htrade, hsupply]
  rfl

variable [TokenProgram K]

/-- The program's own instructions keep the count right. -/
theorem effect_supplied {now : Int64} {c : Call K} (hg : Guarded s) (hs : Supplied s burned)
    (hfresh : freshTradeMint ⟨s, .program now c, s'⟩ = true) (h : Effect now s c s') :
    Supplied s' burned := by
  cases h with
  | quiet hq =>
      have hb := hq.books
      unfold Supplied at hs ⊢
      rw [hq.ledger]
      generalize s.vaultState = x, s'.vaultState = y at hb hs
      cases hb with
      | none => exact hs
      | some hsame => exact ⟨hsame.cvaultTradeMint ▸ hs.distinct, hsame.cvaultTradeMint ▸ hs.trade,
          by rw [hsame.totalSupply, hsame.cvaultTradeMint]; exact hs.total⟩
  | @init a p _ vs hi =>
      obtain ⟨M, hM, hissue⟩ := (Option.any_eq_true _ _).mp hfresh
      obtain ⟨hauth, hsupply⟩ := of_decide_eq_true hissue
      have hzero : burned = 0 := by
        rw [Supplied, hi.fresh] at hs
        exact hs
      exact hzero ▸ supplied_of hi.vaultState (hi.issued hM hauth hsupply)
  | setNav hvs =>
      obtain ⟨hne, htrade, htotal⟩ := hs.issued hvs
      exact supplied_of rfl ⟨hne, htrade, htotal⟩
  | issue hw _ _ _ _ _ => exact hs.congr (hw.state ▸ rfl) (hw.state ▸ rfl)
  | revoke hw _ _ => exact hs.congr (hw.state ▸ rfl) (hw.state ▸ rfl)
  | record _ _ _ _ _ _ => exact hs.congr rfl rfl
  | deposit hd =>
      obtain ⟨-, hvs, -⟩ := loadVaultState_eq_ok.mp hd.vaultState
      obtain ⟨deposits, supply, -, hsupply, hvs'⟩ := hd.totals
      have hi := hs.issued hvs
      have he := (TokenProgram.transfer_evolves hd.transfer).trans
        (TokenProgram.mintTo_evolves hd.mint)
      rw [hd.cvaultMint, (hg _ hvs).cvaultMint] at he
      refine supplied_of hvs' (hi.evolves he rfl ?_)
      simp only [Pi.add_apply, Pi.zero_apply, Pi.single_eq_same, Pi.single_eq_of_ne hi.distinct]
      omega
  | redeem hr =>
      obtain ⟨-, hvs, -⟩ := loadVaultState_eq_ok.mp hr.vaultState
      have hi := hs.issued hvs
      have he := (TokenProgram.burn_evolves hr.burn).trans
        (TokenProgram.transfer_evolves hr.transfer)
      rw [hr.cvaultMint, (hg _ hvs).cvaultMint] at he
      have hsupply := hr.totalSupply
      refine supplied_of rfl (hi.evolves he rfl ?_)
      simp only [Pi.add_apply, Pi.zero_apply, Pi.single_eq_same, Pi.single_eq_of_ne hi.distinct]
      omega
  | convert hc =>
      obtain ⟨-, hvs, -⟩ := loadVaultState_eq_ok.mp hc.vaultState
      have hi := hs.issued hvs
      have he := (TokenProgram.burn_evolves hc.burn).trans (TokenProgram.mintTo_evolves hc.mint)
      rw [hc.cvaultMint, hc.cvaultTradeMint, (hg _ hvs).cvaultMint] at he
      refine supplied_of hvs (hi.evolves he rfl ?_)
      simp only [Pi.add_apply, Pi.zero_apply, Pi.single_eq_same, Pi.single_eq_of_ne hi.distinct,
        Pi.single_eq_of_ne hi.distinct.symm]
      omega
  | rewrap hu hm =>
      obtain ⟨-, hvs, -⟩ := loadVaultState_eq_ok.mp hu.vaultState
      have hi := hs.issued hvs
      have he := (TokenProgram.burn_evolves hu.burn).trans (TokenProgram.mintTo_evolves hm)
      rw [hu.cvaultMint, hu.cvaultTradeMint, (hg _ hvs).cvaultMint] at he
      refine supplied_of hvs (hi.evolves he rfl ?_)
      simp only [Pi.add_apply, Pi.zero_apply, Pi.single_eq_same, Pi.single_eq_of_ne hi.distinct,
        Pi.single_eq_of_ne hi.distinct.symm]
      omega
  | payOut hu hp =>
      obtain ⟨-, hvs, -⟩ := loadVaultState_eq_ok.mp hu.vaultState
      have hi := hs.issued hvs
      have he := (TokenProgram.burn_evolves hu.burn).trans
        (TokenProgram.transfer_evolves hp.transfer)
      rw [hu.cvaultTradeMint] at he
      have hsupply := hp.totalSupply
      refine supplied_of rfl (hi.evolves he rfl ?_)
      simp only [Pi.add_apply, Pi.zero_apply, Pi.single_eq_same,
        Pi.single_eq_of_ne hi.distinct.symm]
      omega

/-- A direct call changes the two supplies by what it burns. -/
theorem token_supplied {c : TokenCall K} {L : Ledger K} (hg : Guarded s) (hs : Supplied s burned)
    (hsig : ¬ Owned c.signer) (hrun : c.run s.ledger = some L) :
    Supplied { s with ledger := L }
      (burned + directBurn ⟨s, .token c, { s with ledger := L }⟩) := by
  rcases hvs : s.vaultState with _ | vs
  · rw [Supplied, hvs] at hs
    simp only [Supplied, directBurn, hvs, hs]
  · obtain ⟨hne, ⟨M, hM, hauth⟩, htotal⟩ := hs.issued hvs
    obtain ⟨C, hC, hCauth⟩ := (hg vs hvs).mint
    have owned_of : ∀ {m : Mint K}, m.mintAuthority = some vaultStateKey →
        ∀ auth, m.mintAuthority = some auth → Owned auth := by
      intro m hm auth hauth'
      cases hm.symm.trans hauth'
      exact owned_vaultStateKey
    have hc := TokenCall.run_supply hrun hC (owned_of hCauth) hsig
    have ht := TokenCall.run_supply hrun hM (owned_of hauth) hsig
    obtain ⟨M', hM', hs', -⟩ := (TokenCall.run_kept hrun hsig).mint hM (owned_of hauth)
    refine supplied_of hvs ⟨hne, ⟨M', hM', hs'.mintAuthority.trans hauth⟩, ?_⟩
    simp only [directBurn, hvs, (hg vs hvs).cvaultMint]
    omega

end Steps

/-! ## Runs -/

variable [TokenProgram K] {ledger : Ledger K} {ts : List (Transition (State K) (Action K))} {s : State K}
  {vs : VaultState K}

theorem Reaches.supplied (h : Reaches ledger ts s) (hfresh : OpensOverFreshMint ts) :
    Supplied s (directBurns ts) := by
  refine Run.history (I := fun ts s => OpensOverFreshMint ts → Supplied s (directBurns ts))
    (fun _ => supplied_genesis ledger) ?_ h hfresh
  intro ts s act s' hr ih hstep hfresh
  have hs := ih fun t ht => hfresh t (List.mem_append_left _ ht)
  have hlast := hfresh _ (List.mem_append_right ts List.mem_cons_self)
  have hg : Guarded s := Reaches.guarded hr
  have hsum : directBurns (ts ++ [⟨s, act, s'⟩]) = directBurns ts + directBurn ⟨s, act, s'⟩ := by
    simp [directBurns]
  rw [hsum]
  cases hstep with
  | program hsig hexec => exact effect_supplied hg hs hlast (exec_effect hexec)
  | token hsig hrun => exact token_supplied hg hs hsig hrun

/-- Nobody burns more of either token than there are shares on the books. -/
theorem Issued.burn_le {L L' : Ledger K} {src m auth : K} {x : UInt64} {burned : Nat}
    (h : Issued L vs burned) (hm : m = cvaultMintKey ∨ m = vs.cvaultTradeMint)
    (hb : TokenProgram.burn L src m auth x = some L') : x.toNat ≤ vs.totalSupply.toNat := by
  obtain ⟨a, M, -, hM, -, -, -, -, -, -, hle⟩ := TokenProgram.burn_ok hb
  have hsupply := UInt64.le_iff_toNat_le.mp hle
  rw [← Ledger.supply_of_mint hM] at hsupply
  have htotal := h.total
  rcases hm with rfl | rfl
  · omega
  · omega

/-! ## There and back -/

/-- The accounts of a re-wrap that undoes a conversion. -/
def ConvertToTradeable.back {K : Type} [Addresses K] [Deployment K] (a : ConvertToTradeable K)
    (destination : K) : RedeemTradeable K where
  vaultState := a.vaultState
  cvaultTradeMint := a.cvaultTradeMint
  cvaultMint := a.cvaultMint
  vaultTokenAccount := vaultTokenKey
  userCvaultTradeAccount := a.userCvaultTradeAccount
  userCvaultAccount := a.userCvaultAccount
  userDestination := destination
  authority := a.user
  tokenProgram := a.tokenProgram

/-- Nothing but allowances differs: the program's accounts, all balances and all supplies. -/
structure Restored {K : Type} (s s' : State K) : Prop where
  accounts : s'.toAccounts = s.toAccounts
  amount : ∀ k, s'.ledger.amount k = s.ledger.amount k
  supply : ∀ k, s'.ledger.supply k = s.ledger.supply k

/-- Converting and re-wrapping on the same accounts restores everything. -/
theorem convert_rewrap {a : ConvertToTradeable K} {destination : K} {x : UInt64}
    {s₁ s₂ : State K} {ev₁ ev₂ : Option (Event K)}
    (h₁ : convertToTradeable a x s = .ok (s₁, ev₁))
    (h₂ : redeemTradeable (a.back destination) x true s₁ = .ok (s₂, ev₂)) : Restored s s₂ := by
  obtain ⟨vs, L, L₁, hc, hs₁⟩ := convertToTradeable_eq_ok.mp h₁
  cases hs₁
  obtain ⟨vs', L', L₂, hu, hm, hs₂⟩ := rewrap_eq_ok.mp h₂
  cases hs₂
  have he₁ := (TokenProgram.burn_evolves hc.burn).trans (TokenProgram.mintTo_evolves hc.mint)
  have he₂ := (TokenProgram.burn_evolves hu.burn).trans (TokenProgram.mintTo_evolves hm)
  have he := he₁.trans he₂
  refine ⟨rfl, ?_, ?_⟩
  · intro k
    have hk := he.amount k
    simp only [ConvertToTradeable.back, Pi.add_apply, Pi.zero_apply] at hk
    show L₂.amount k = _
    omega
  · intro k
    have hk := he.supply k
    simp only [ConvertToTradeable.back, Pi.add_apply, Pi.zero_apply] at hk
    show L₂.supply k = _
    omega

/-- The re-wrap goes through whenever the user may spend from the tradeable account. -/
theorem rewrap_isOk {a : ConvertToTradeable K} {destination : K} {x : UInt64} {s₁ : State K}
    {ev₁ : Option (Event K)} {burned : Nat} (hc : Custody s.ledger vs)
    (hi : Issued s.ledger vs burned) (hvs : s.vaultState = some vs)
    (h₁ : convertToTradeable a x s = .ok (s₁, ev₁)) (hdest : s.ledger.IsAccount destination)
    (hspend : ∀ acc, s.ledger.account a.userCvaultTradeAccount = some acc →
      acc.CanDebit a.user x) :
    ∃ out, redeemTradeable (a.back destination) x true s₁ = .ok out := by
  obtain ⟨vs', L, L₁, hconv, hs₁⟩ := convertToTradeable_eq_ok.mp h₁
  cases hs₁
  obtain ⟨hkey, hvs', -⟩ := loadVaultState_eq_ok.mp hconv.vaultState
  cases hvs.symm.trans hvs'
  have hb := TokenProgram.burn_evolves hconv.burn
  have he := hb.trans (TokenProgram.mintTo_evolves hconv.mint)
  have hne : a.cvaultTradeMint ≠ a.cvaultMint := by
    rw [hconv.cvaultTradeMint, hconv.cvaultMint, hc.cvaultMint]
    exact hi.distinct
  obtain ⟨L₂, hburn⟩ :=
    TokenProgram.unmint_isSome hconv.burn hconv.mint hne hspend
  have hmint : L₂.MintOk a.cvaultMint a.userCvaultAccount a.vaultState x := by
    refine TokenProgram.remint_ok hconv.burn (he.trans (TokenProgram.burn_evolves hburn)) ?_ ?_ ?_
    · obtain ⟨C, hC, hauth⟩ := hc.mint
      rw [hconv.cvaultMint, hc.cvaultMint, hkey]
      exact ⟨C, hC, hauth⟩
    · simp only [Pi.add_apply, Pi.zero_apply, Pi.single_eq_same]
      omega
    · simp only [Pi.add_apply, Pi.zero_apply, Pi.single_eq_same]
      omega
  obtain ⟨L₃, hL₃⟩ := Option.isSome_iff_exists.mp ((TokenProgram.mintTo_isSome ..).mpr hmint)
  obtain ⟨v, hv, -, -, -, hvp⟩ := hc.account
  obtain ⟨c, C, hcacc, hC, hcp, hCp, -⟩ := TokenProgram.burn_ok hconv.burn
  exact ⟨_, rewrap_eq_ok.mpr ⟨vs, L₂, L₃, ⟨hconv.vaultState, hconv.cvaultTradeMint,
    hconv.cvaultMint, he.isMint_iff.mpr ⟨C, hC, hCp⟩, rfl, he.isAccount_iff.mpr ⟨v, hv, hvp⟩,
    he.isAccount_iff.mpr ⟨c, hcacc, hcp⟩, he.isAccount_iff.mpr hdest, hconv.tokenProgram,
    hconv.unpaused, hburn⟩, hL₃, rfl⟩⟩

/-! ## Conservation -/

/-- The shares on the books are those in circulation as either token and those burned
directly.  So the checked subtraction of `totalSupply` never fails: an exit that overflows
does so in the product, or, the direct one, on the deposits.  And a conversion is undone by
re-wrapping on the same accounts, which goes through if the user may spend from them. -/
theorem supply_conserved (h : Reaches ledger ts s) (hfresh : OpensOverFreshMint ts)
    (hvs : s.vaultState = some vs) :
    (vs.totalSupply.toNat =
      s.ledger.supply vs.cvaultMint + s.ledger.supply vs.cvaultTradeMint + directBurns ts) ∧
    ((∀ t ∈ ts, directBurn t = 0) → vs.totalSupply.toNat =
      s.ledger.supply vs.cvaultMint + s.ledger.supply vs.cvaultTradeMint) ∧
    (∀ a x, redeem a x s = .error (.code .overflow) →
      2 ^ 64 ≤ x.toNat * vs.navPriceBps.toNat) ∧
    (∀ a x, redeemTradeable a x false s = .error (.code .overflow) →
      2 ^ 64 ≤ x.toNat * vs.navPriceBps.toNat ∨
        ∃ usdc, payoutFor x vs.navPriceBps = .ok usdc ∧ vs.totalDeposits < usdc) ∧
    (∀ a x destination s₁ ev₁, convertToTradeable a x s = .ok (s₁, ev₁) →
      (∀ s₂ ev₂, redeemTradeable (a.back destination) x true s₁ = .ok (s₂, ev₂) → Restored s s₂) ∧
      (s.ledger.IsAccount destination →
        (∀ acc, s.ledger.account a.userCvaultTradeAccount = some acc → acc.CanDebit a.user x) →
        ∃ out, redeemTradeable (a.back destination) x true s₁ = .ok out)) := by
  have hc := h.guarded vs hvs
  have hi := (h.supplied hfresh).issued hvs
  have htotal := hi.total
  rw [← hc.cvaultMint] at htotal
  refine ⟨htotal, ?_, ?_, ?_, ?_⟩
  · intro hnone
    have hzero : directBurns ts = 0 := by
      refine List.sum_eq_zero ?_
      intro n hn
      obtain ⟨t, ht, rfl⟩ := List.mem_map.mp hn
      exact hnone t ht
    rw [hzero, Nat.add_zero] at htotal
    exact htotal
  · intro a x hfail
    obtain ⟨vs', hvs', hover | ⟨L, hmint, hburn, hlt⟩⟩ := redeem_overflow hfail
    · cases hvs.symm.trans hvs'
      exact hover
    · cases hvs.symm.trans hvs'
      have hle := hi.burn_le (.inl (hmint.trans hc.cvaultMint)) hburn
      omega
  · intro a x hfail
    obtain ⟨vs', hvs', hover | ⟨L, usdc, htrade, hburn, hpay, hless⟩⟩ := payOut_overflow hfail
    · cases hvs.symm.trans hvs'
      exact .inl hover
    · cases hvs.symm.trans hvs'
      have hle := hi.burn_le (.inr htrade) hburn
      rcases hless with hdeposits | hsupply
      · exact .inr ⟨usdc, hpay, UInt64.lt_iff_toNat_lt.mpr hdeposits⟩
      · omega
  · intro a x destination s₁ ev₁ hconv
    constructor
    · intro s₂ ev₂ hback
      exact convert_rewrap hconv hback
    · intro hdest hspend
      exact rewrap_isOk hc hi hvs hconv hdest hspend

/-- Half the shares of a deposit are tradeable, and some of those are burned directly. -/
def burnedRun : List (Action FreeKey) :=
  Cluster.setUp ++ [Cluster.deposit 1000, Cluster.convert 500,
    .token (.burn Cluster.aliceTrade Cluster.tradeMint Cluster.alice 20)]

theorem supply_conserved_burned :
    ∃ vs, (final (.genesis Cluster.ledger) burnedRun).vaultState = some vs ∧
      vs.totalSupply.toNat = (final (.genesis Cluster.ledger) burnedRun).ledger.supply vs.cvaultMint +
        (final (.genesis Cluster.ledger) burnedRun).ledger.supply vs.cvaultTradeMint +
        directBurns (play (.genesis Cluster.ledger) burnedRun) := by
  obtain ⟨vs, hvs⟩ := Option.isSome_iff_exists.mp
    (show (final (.genesis Cluster.ledger) burnedRun).vaultState.isSome by decide)
  exact ⟨vs, hvs, (supply_conserved (Cluster.reaches_final (by decide)) (by decide) hvs).1⟩

end OragamiVault
