/-
# `Oragami.OragamiVault.Fairness` — nobody gains by trading with the vault

Take any set `A` of token accounts, the vault's own left out, and price what they
hold: a token the vault takes deposits in at 10000, a share of either kind at the
NAV.  Deposits round the shares down, redemptions round the payment down,
conversions are one to one, and a transfer is worth to one account what it costs
another.  So no instruction and no direct call to the token program adds to what
`A` holds, as long as `A` is left to itself (`Unaided`); only a rise of the NAV
does, by the rise for each share in `A` at that moment (`navGain`).

The tradeable mint must not be the one deposits are made in: `initialize_vault`
takes both from its caller and compares neither with the other.
-/
import Oragami.Lib.Conversion
import Oragami.Lib.Holdings
import Oragami.OragamiVault.Solvency

namespace OragamiVault

open Anchor Addresses Lts

variable {K : Type}

/-! ## Flows -/

/-- The account an instruction takes tokens of a holder from, and the one it gives tokens to. -/
def Call.flow : Call K → Option (Option K × K)
  | .deposit a _ => some (some a.payerDepositAccount, a.payerCvaultAccount)
  | .redeem a _ => some (some a.redeemerCvaultAccount, a.redeemerDepositAccount)
  | .convertToTradeable a _ => some (some a.userCvaultAccount, a.userCvaultTradeAccount)
  | .redeemTradeable a _ true => some (some a.userCvaultTradeAccount, a.userCvaultAccount)
  | .redeemTradeable a _ false => some (some a.userCvaultTradeAccount, a.userDestination)
  | _ => none

def Action.flow : Action K → Option (Option K × K)
  | .program _ c => c.flow
  | .token c => c.flow

variable [DecidableEq K]

/-- Nothing comes into the accounts `A` but out of them. -/
def Unaided (A : Finset K) (act : Action K) : Prop := ∀ f ∈ act.flow, Ledger.Within A f

instance (A : Finset K) (act : Action K) : Decidable (Unaided A act) :=
  inferInstanceAs (Decidable (∀ f ∈ act.flow, _))

/-! ## Prices -/

/-- What a token is worth, in 1/10000 of one the vault takes deposits in. -/
def prices (asset : Option K) (vs : VaultState K) (m : K) : Nat :=
  if asset = some m then 10000
  else if m = vs.cvaultMint ∨ m = vs.cvaultTradeMint then vs.navPriceBps.toNat
  else 0

/-- One for a share, of either kind. -/
def isShare (vs : VaultState K) (m : K) : Nat :=
  if m = vs.cvaultMint ∨ m = vs.cvaultTradeMint then 1 else 0

/-- The same shares at another NAV. -/
theorem prices_le {asset : Option K} {vs vs' : VaultState K} (hc : vs'.cvaultMint = vs.cvaultMint)
    (ht : vs'.cvaultTradeMint = vs.cvaultTradeMint) (m : K) :
    prices asset vs' m ≤
      prices asset vs m + (vs'.navPriceBps.toNat - vs.navPriceBps.toNat) * isShare vs m := by
  unfold prices isShare
  rw [hc, ht]
  split
  · exact Nat.le_add_right _ _
  · split <;> omega

variable [Addresses K] [Deployment K]

/-- Prices of all tokens agree with the NAV: a share costs its part of a token of the vault's
account, of either kind. -/
def Priced (p : K → Nat) (s : State K) : Prop :=
  ∀ vs ∈ s.vaultState, ∀ v ∈ s.ledger.account vaultTokenKey,
    p vs.cvaultMint * 10000 = p v.mint * vs.navPriceBps.toNat ∧
      p vs.cvaultTradeMint = p vs.cvaultMint

instance (p : K → Nat) (s : State K) : Decidable (Priced p s) :=
  inferInstanceAs (Decidable (∀ vs ∈ s.vaultState, _))

/-- The mint of the tokens the vault holds, those it takes deposits in. -/
def State.assetMint (s : State K) : Option K := (s.ledger.account vaultTokenKey).map (·.mint)

/-- What the accounts in `A` hold, in 1/10000 of a deposit token. -/
def State.worth (s : State K) (A : Finset K) : Nat :=
  match s.vaultState with
  | none => 0
  | some vs => s.ledger.worth (prices s.assetMint vs) A

/-- The shares the accounts in `A` hold. -/
def State.shares (s : State K) (A : Finset K) : Nat :=
  match s.vaultState with
  | none => 0
  | some vs => s.ledger.worth (isShare vs) A

/-- What a rise of the NAV is worth to the accounts in `A`. -/
def navGain (A : Finset K) (t : Transition (State K) (Action K)) : Nat :=
  (t.post.book.price - t.pre.book.price) * t.pre.shares A

/-- The vault is open, and its tradeable token is not the one deposits are made in. -/
def Open (s : State K) : Prop :=
  ∃ vs, s.vaultState = some vs ∧ s.assetMint ≠ some vs.cvaultTradeMint

section Steps

variable {s s' : State K} {vs : VaultState K} {A : Finset K}

theorem State.worth_of (h : s.vaultState = some vs) :
    s.worth A = s.ledger.worth (prices s.assetMint vs) A := by
  simp only [State.worth, h]

omit [Addresses K] [Deployment K] in
theorem State.shares_of (h : s.vaultState = some vs) :
    s.shares A = s.ledger.worth (isShare vs) A := by
  simp only [State.shares, h]

omit [DecidableEq K] in
theorem Custody.assetMint_ne (h : Custody s.ledger vs) : s.assetMint ≠ some vs.cvaultMint := by
  obtain ⟨v, hv, -, -, hne, -⟩ := h.account
  rw [State.assetMint, hv, h.cvaultMint]
  simpa using hne

/-- The prices in deposit tokens agree with the NAV. -/
theorem priced_prices (hg : Guarded s) (hvs : s.vaultState = some vs)
    (hdistinct : s.assetMint ≠ some vs.cvaultTradeMint) : Priced (prices s.assetMint vs) s := by
  intro vs' hvs' v hv
  cases hvs.symm.trans hvs'
  have hasset : s.assetMint = some v.mint := by
    rw [State.assetMint, Option.mem_def.mp hv]
    rfl
  have hcvault := (hg vs hvs).assetMint_ne
  simp only [prices, if_pos hasset, if_neg hcvault, if_neg hdistinct, true_or, or_true, if_true]
  exact ⟨Nat.mul_comm .., trivial⟩

variable [TokenProgram K]

/-- At prices that agree with the NAV no instruction adds to what `A` holds. -/
theorem effect_worth {p : K → Nat} {now : Int64} {c : Call K} (hg : Guarded s) (hp : Priced p s)
    (hA : vaultTokenKey ∉ A) (hin : Unaided A (.program now c)) (h : Effect now s c s') :
    s'.ledger.worth p A ≤ s.ledger.worth p A := by
  -- the vault's token account and what the prices say of it, wherever the vault is loaded
  have loaded : ∀ {k : K} {vs : VaultState K}, s.loadVaultState k = .ok vs →
      ∃ v, s.ledger.account vaultTokenKey = some v ∧
        p vs.cvaultMint * 10000 = p v.mint * vs.navPriceBps.toNat ∧
        p vs.cvaultTradeMint = p vs.cvaultMint := by
    intro k vs hload
    obtain ⟨-, hvs, -⟩ := loadVaultState_eq_ok.mp hload
    obtain ⟨v, hv, -⟩ := (hg vs hvs).account
    exact ⟨v, hv, hp vs hvs v hv⟩
  cases h with
  | quiet hq => rw [hq.ledger]
  | init hi =>
      -- an empty account in a vacant place
      obtain ⟨hvacant, -⟩ := hi.tokenVacant
      rw [hi.ledger]
      refine Nat.le_of_eq (Ledger.worth_setAccount ?_)
      simp [Ledger.amount, hvacant]
  | setNav _ => exact Nat.le_refl _
  | issue hw _ _ _ _ _ => rw [hw.state]
  | revoke hw _ _ => rw [hw.state]
  | record _ _ _ _ _ _ => exact Nat.le_refl _
  | deposit hd =>
      obtain ⟨v, hv, hshare, -⟩ := loaded hd.vaultState
      obtain ⟨-, -, hprice⟩ := sharesFor_eq_ok.mp hd.price
      refine Ledger.worth_le_of_buy (hd.vaultTokenAccount ▸ hd.transfer) (hd.cvaultMint ▸ hd.mint)
        hv hA (hin _ rfl) ?_
      rw [hprice]
      exact Conversion.buys_worth_le hshare _
  | redeem hr =>
      obtain ⟨v, hv, hshare, -⟩ := loaded hr.vaultState
      obtain ⟨-, hprice⟩ := payoutFor_eq_ok.mp hr.payout
      refine Ledger.worth_le_of_sell (hr.cvaultMint ▸ hr.burn) (hr.vaultTokenAccount ▸ hr.transfer)
        hv hA (hin _ rfl) ?_
      rw [hprice]
      exact Conversion.pays_worth_le (by decide) hshare _
  | convert hx =>
      obtain ⟨v, hv, -, htrade⟩ := loaded hx.vaultState
      refine Ledger.worth_le_of_exchange (hx.cvaultMint ▸ hx.burn) (hx.cvaultTradeMint ▸ hx.mint)
        (hin _ rfl) ?_
      rw [htrade]
  | rewrap hu hm =>
      obtain ⟨v, hv, -, htrade⟩ := loaded hu.vaultState
      refine Ledger.worth_le_of_exchange (hu.cvaultTradeMint ▸ hu.burn) (hu.cvaultMint ▸ hm)
        (hin _ rfl) ?_
      rw [htrade]
  | payOut hu hp' =>
      obtain ⟨v, hv, hshare, htrade⟩ := loaded hu.vaultState
      obtain ⟨-, hprice⟩ := payoutFor_eq_ok.mp hp'.payout
      refine Ledger.worth_le_of_sell (hu.cvaultTradeMint ▸ hu.burn)
        (hu.vaultTokenAccount ▸ hp'.transfer) hv hA (hin _ rfl) ?_
      rw [hprice, htrade]
      exact Conversion.pays_worth_le (by decide) hshare _

theorem Step.worth_le {p : K → Nat} {act : Action K} (hg : Guarded s) (hp : Priced p s)
    (hA : vaultTokenKey ∉ A) (hin : Unaided A act) (h : Step s act s') :
    s'.ledger.worth p A ≤ s.ledger.worth p A := by
  cases h with
  | program _ hexec => exact effect_worth hg hp hA hin (exec_effect hexec)
  | token _ hrun => exact TokenCall.run_worth hrun hin

/-- An instruction on an open vault leaves it open, over the same share tokens. -/
theorem effect_mints {now : Int64} {c : Call K} (hvs : s.vaultState = some vs)
    (h : Effect now s c s') :
    ∃ vs', s'.vaultState = some vs' ∧ vs'.cvaultMint = vs.cvaultMint ∧
      vs'.cvaultTradeMint = vs.cvaultTradeMint := by
  cases h with
  | quiet hq =>
      obtain ⟨vs', hvs', hsame⟩ := hq.stored hvs
      exact ⟨vs', hvs', hsame.cvaultMint, hsame.cvaultTradeMint⟩
  | init hi => cases hvs.symm.trans hi.fresh
  | setNav hvs' =>
      cases hvs.symm.trans hvs'
      exact ⟨_, rfl, rfl, rfl⟩
  | issue hw _ _ _ _ _ => exact ⟨vs, hw.state ▸ hvs, rfl, rfl⟩
  | revoke hw _ _ => exact ⟨vs, hw.state ▸ hvs, rfl, rfl⟩
  | record _ _ _ _ _ _ => exact ⟨vs, hvs, rfl, rfl⟩
  | deposit hd =>
      obtain ⟨-, hvs', -⟩ := loadVaultState_eq_ok.mp hd.vaultState
      cases hvs.symm.trans hvs'
      obtain ⟨_, _, -, -, hafter⟩ := hd.totals
      exact ⟨_, hafter, rfl, rfl⟩
  | redeem hr =>
      obtain ⟨-, hvs', -⟩ := loadVaultState_eq_ok.mp hr.vaultState
      cases hvs.symm.trans hvs'
      exact ⟨_, rfl, rfl, rfl⟩
  | convert _ => exact ⟨vs, hvs, rfl, rfl⟩
  | rewrap _ _ => exact ⟨vs, hvs, rfl, rfl⟩
  | payOut hu _ =>
      obtain ⟨-, hvs', -⟩ := loadVaultState_eq_ok.mp hu.vaultState
      cases hvs.symm.trans hvs'
      exact ⟨_, rfl, rfl, rfl⟩

theorem Step.mints {act : Action K} (hvs : s.vaultState = some vs) (h : Step s act s') :
    ∃ vs', s'.vaultState = some vs' ∧ vs'.cvaultMint = vs.cvaultMint ∧
      vs'.cvaultTradeMint = vs.cvaultTradeMint := by
  cases h with
  | program _ hexec => exact effect_mints hvs (exec_effect hexec)
  | token _ _ => exact ⟨vs, hvs, rfl, rfl⟩

/-- The vault's token account keeps its mint: nobody else signs for it. -/
theorem Step.assetMint {act : Action K} (hc : Custody s.ledger vs) (h : Step s act s') :
    s'.assetMint = s.assetMint := by
  obtain ⟨v, hv, howner, -⟩ := hc.account
  have hheld : s.ledger.Holds vaultTokenKey vaultStateKey v.mint := ⟨v, hv, howner, rfl⟩
  have hheld' : s'.ledger.Holds vaultTokenKey vaultStateKey v.mint := by
    cases h with
    | program _ hexec =>
        rcases (exec_effect hexec).moves with ⟨_, _, _, _, he⟩ | ⟨_, hvacant, -, -⟩
        · exact hheld.evolves he
        · obtain ⟨M, hM, -⟩ := hc.mint
          cases hM.symm.trans hvacant.2
    | token hsig hrun =>
        refine TokenCall.run_holds hrun hheld ?_
        intro heq
        exact hsig (heq ▸ owned_vaultStateKey)
  obtain ⟨v', hv', -, hmint⟩ := hheld'
  rw [State.assetMint, State.assetMint, hv, hv']
  exact congrArg some hmint

/-- An open vault stays open. -/
theorem Step.isOpen {act : Action K} (hg : Guarded s) (ho : Open s) (h : Step s act s') :
    Open s' := by
  obtain ⟨vs, hvs, hdistinct⟩ := ho
  obtain ⟨vs', hvs', -, htrade⟩ := h.mints hvs
  refine ⟨vs', hvs', ?_⟩
  rw [h.assetMint (hg vs hvs), htrade]
  exact hdistinct

/-- One step adds to what `A` holds no more than a rise of the NAV is worth to it. -/
theorem Step.worth {act : Action K} (hg : Guarded s) (ho : Open s) (hA : vaultTokenKey ∉ A)
    (hin : Unaided A act) (h : Step s act s') :
    s'.worth A ≤ s.worth A + navGain A ⟨s, act, s'⟩ := by
  obtain ⟨vs, hvs, hdistinct⟩ := ho
  obtain ⟨vs', hvs', hcvault, htrade⟩ := h.mints hvs
  have hrise : s'.ledger.worth (prices s.assetMint vs') A ≤
      s'.ledger.worth (prices s.assetMint vs) A +
        (vs'.navPriceBps.toNat - vs.navPriceBps.toNat) * s'.ledger.worth (isShare vs) A :=
    Ledger.worth_le_of_prices (prices_le hcvault htrade)
  simp only [navGain]
  rw [State.worth_of hvs, State.worth_of hvs', State.shares_of hvs, State.book_of hvs,
    State.book_of hvs', h.assetMint (hg vs hvs)]
  refine hrise.trans ?_
  have hledger := h.worth_le hg (priced_prices hg hvs hdistinct) hA hin
  cases h with
  | @program _ now c _ hsig hexec =>
      have heff := exec_effect hexec
      rcases effect_price heff with hsame | ⟨a, nav, _, rfl, -, -⟩
      · -- the same NAV: the second summands vanish
        rw [State.book_of hvs, State.book_of hvs'] at hsame
        have hnav : vs'.navPriceBps.toNat = vs.navPriceBps.toNat := hsame
        rw [hnav, Nat.sub_self, Nat.zero_mul, Nat.zero_mul]
        exact hledger
      · have hstill : s'.ledger = s.ledger := by
          cases heff with
          | quiet hq => exact hq.ledger
          | setNav _ => rfl
        rw [hstill]
  | token hsig hrun =>
      cases hvs.symm.trans hvs'
      rw [Nat.sub_self, Nat.zero_mul, Nat.zero_mul]
      exact hledger

end Steps

/-! ## Runs -/

variable [TokenProgram K] {ledger : Ledger K} {ts us : List (Transition (State K) (Action K))}
  {s₀ s : State K} {A : Finset K}

/-- Along a run `A` gains no more than the rises of the NAV are worth to it. -/
theorem worth_run (hg : Guarded s₀) (ho : Open s₀) (hA : vaultTokenKey ∉ A)
    (hrun : Run Step s₀ us s) (hin : ∀ t ∈ us, Unaided A t.label) :
    Guarded s ∧ Open s ∧ s.worth A ≤ s₀.worth A + (us.map (navGain A)).sum := by
  induction hrun with
  | nil => exact ⟨hg, ho, Nat.le_add_right _ _⟩
  | @snoc us s s' act _ hstep ih =>
      simp only [List.forall_mem_append, List.forall_mem_singleton] at hin
      obtain ⟨hgs, hos, hle⟩ := ih hin.1
      have hnext := hstep.worth hgs hos hA hin.2
      refine ⟨(step_book hgs hstep).1, hstep.isOpen hgs hos, ?_⟩
      rw [List.map_append, List.sum_append, List.map_singleton, List.sum_singleton]
      omega

/-- Whatever a set of accounts left to itself does with an open vault and the token program, and
whatever everybody else does meanwhile, it gains only where the NAV rises: what it holds is
worth at most what it was plus each rise for each share it held then.  In a run that never
raises the NAV it gains nothing. -/
theorem no_free_lunch (h : Reaches ledger ts s₀) (ho : Open s₀) (hA : vaultTokenKey ∉ A)
    (hrun : Run Step s₀ us s) (hin : ∀ t ∈ us, Unaided A t.label) :
    s.worth A ≤ s₀.worth A + (us.map (navGain A)).sum ∧
    (NavNeverRaised us → s.worth A ≤ s₀.worth A) := by
  obtain ⟨-, -, hle⟩ := worth_run h.guarded ho hA hrun hin
  refine ⟨hle, ?_⟩
  intro hnav
  have hzero : (us.map (navGain A)).sum = 0 := by
    refine List.sum_eq_zero ?_
    intro n hn
    obtain ⟨t, ht, rfl⟩ := List.mem_map.mp hn
    have hprice : t.post.book.price ≤ t.pre.book.price := (hrun.of_mem ht).2.price_le (hnav t ht)
    rw [navGain, Nat.sub_eq_zero_of_le hprice, Nat.zero_mul]
  rw [hzero, Nat.add_zero] at hle
  exact hle

/-- Alice's accounts, while she deposits, converts, is marked down and redeems, in a vault whose
share does not divide her deposit. -/
def traded : List (Action FreeKey) :=
  [Cluster.setNav 7000, Cluster.deposit 1000, Cluster.convert 400,
    .program 0 (.redeemTradeable Cluster.unwrapAccounts 399 false), Cluster.setNav 6000]

theorem no_free_lunch_traded :
    (final (final (.genesis Cluster.ledger) Cluster.setUp) traded).worth
        ({Cluster.aliceUsdc, Cluster.aliceCvault, Cluster.aliceTrade} : Finset FreeKey) ≤
      (final (.genesis Cluster.ledger) Cluster.setUp).worth
        {Cluster.aliceUsdc, Cluster.aliceCvault, Cluster.aliceTrade} := by
  obtain ⟨vs, hvs, htrade⟩ := Option.map_eq_some_iff.mp
    (show (final (.genesis Cluster.ledger) Cluster.setUp).vaultState.map (·.cvaultTradeMint) =
      some Cluster.tradeMint by decide)
  have ho : Open (final (.genesis Cluster.ledger) Cluster.setUp) :=
    ⟨vs, hvs, by rw [htrade]; decide⟩
  exact (no_free_lunch (Cluster.reaches_final (by decide)) ho (by decide)
    (Cluster.run_final (by decide) _) (by decide)).2 (by decide)

end OragamiVault
