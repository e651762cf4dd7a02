/-
# `Oragami.Lib.Holdings` — what a set of token accounts is worth

A price for every mint makes token accounts comparable: `L.worth p A` adds up what
the accounts in `A` hold, each token at the price of its mint.

Tokens that leave one account against tokens that enter another, worth no more,
add nothing to any set that contains the first account if it contains the second
(`Evolves.worth_le_of_trade`).  A program that trades with the holders of accounts
does so in one of three ways: it is paid and mints, it burns and pays, it burns
and mints (`worth_le_of_buy`, `worth_le_of_sell`, `worth_le_of_exchange`).  And a
call made to the token program directly adds nothing to a set but what it brings
in from outside (`TokenCall.run_worth`).  Along a run in which no step adds anything at
the prices it started with, what is gained is gained by repricing (`Run.worth`).

Whatever the token program does, no set of accounts holds more of a token than there
is (`Balanced`).
-/
import Mathlib.Algebra.BigOperators.Group.Finset.Piecewise
import Mathlib.Algebra.BigOperators.Ring.Finset
import Mathlib.Algebra.Order.BigOperators.Group.Finset
import Oragami.Lib.Run
import Oragami.Lib.TokenCall

namespace Ledger

variable {K : Type}

/-- The price of the tokens in account `k`, zero where there is none. -/
def priceAt (L : Ledger K) (p : K → Nat) (k : K) : Nat :=
  ((L.account k).map fun a => p a.mint).getD 0

/-- What the accounts in `A` hold, at the prices `p`. -/
def worth (L : Ledger K) (p : K → Nat) (A : Finset K) : Nat :=
  ∑ k ∈ A, L.priceAt p k * L.amount k

/-- A flow of tokens stays within `A`: into `A` it comes only out of `A`. -/
def Within (A : Finset K) (flow : Option K × K) : Prop :=
  flow.2 ∈ A → ∃ k ∈ A, flow.1 = some k

instance [DecidableEq K] (A : Finset K) (flow : Option K × K) : Decidable (Within A flow) :=
  inferInstanceAs (Decidable (_ → _))

theorem Within.mem {A : Finset K} {src dst : K} (h : Within A (some src, dst)) (hdst : dst ∈ A) :
    src ∈ A := by
  obtain ⟨k, hk, heq⟩ := h hdst
  exact Option.some.inj heq ▸ hk

variable {L L' : Ledger K} {p : K → Nat} {A : Finset K} {d c b m : K → Nat}

theorem priceAt_of_account {k : K} {a : TokenAccount K} (h : L.account k = some a) :
    L.priceAt p k = p a.mint := by
  simp [priceAt, h]

/-- The token in an account stays what it is. -/
theorem Evolves.priceAt (h : L.Evolves L' d c b m) (p : K → Nat) (k : K) :
    L'.priceAt p k = L.priceAt p k := by
  have hk := h.holding k
  unfold Ledger.priceAt
  generalize L.account k = x, L'.account k = y at hk
  cases hk with
  | none => rfl
  | some hs => simp [hs.mint]

/-- What is debited leaves the worth of a set, what is credited enters it. -/
theorem Evolves.worth (h : L.Evolves L' d c b m) (p : K → Nat) (A : Finset K) :
    L'.worth p A + ∑ k ∈ A, L.priceAt p k * d k = L.worth p A + ∑ k ∈ A, L.priceAt p k * c k := by
  unfold Ledger.worth
  rw [← Finset.sum_add_distrib, ← Finset.sum_add_distrib]
  refine Finset.sum_congr rfl ?_
  intro k _
  rw [h.priceAt, ← Nat.mul_add, ← Nat.mul_add, h.amount]

/-- Worthless tokens are worth nothing together. -/
theorem worth_eq_zero (h : ∀ m, p m = 0) : L.worth p A = 0 := by
  refine Finset.sum_eq_zero ?_
  intro k _
  cases hk : L.account k with
  | none => simp [Ledger.priceAt, hk]
  | some a => rw [priceAt_of_account hk, h, Nat.zero_mul]

/-- Where prices rise by at most `r` for each of the tokens `q` counts, so does what is held. -/
theorem worth_le_of_prices {p' q : K → Nat} {r : Nat} (h : ∀ m, p' m ≤ p m + r * q m) :
    L.worth p' A ≤ L.worth p A + r * L.worth q A := by
  have hprice : ∀ k, L.priceAt p' k ≤ L.priceAt p k + r * L.priceAt q k := by
    intro k
    cases hk : L.account k with
    | none => simp [Ledger.priceAt, hk]
    | some a =>
        rw [priceAt_of_account hk, priceAt_of_account hk, priceAt_of_account hk]
        exact h a.mint
  unfold Ledger.worth
  rw [Finset.mul_sum, ← Finset.sum_add_distrib]
  refine Finset.sum_le_sum ?_
  intro k _
  rw [← Nat.mul_assoc, ← Nat.add_mul]
  exact Nat.mul_le_mul_right _ (hprice k)

variable [DecidableEq K]

/-- The worth of what moves, where all that moves in `A` moves at one account. -/
theorem sum_priceAt_single {f : K → Nat} {k : K} {n : Nat}
    (h : ∀ j ∈ A, f j = (Pi.single k n : K → Nat) j) :
    ∑ j ∈ A, L.priceAt p j * f j = if k ∈ A then L.priceAt p k * n else 0 := by
  have hterm : ∀ j ∈ A, L.priceAt p j * f j = if k = j then L.priceAt p k * n else 0 := by
    intro j hj
    rw [h j hj]
    by_cases heq : k = j
    · subst heq
      simp
    · simp [heq]
  rw [Finset.sum_congr rfl hterm, Finset.sum_ite_eq]

/-- `sold` tokens leave `src`, and into `A` nothing enters but `bought` tokens at `dst`, worth no
more: then `A`, which has `src` if it has `dst`, has gained nothing. -/
theorem Evolves.worth_le_of_trade {src dst : K} {sold bought : Nat}
    (h : L.Evolves L' d c b m) (hd : ∀ k ∈ A, d k = (Pi.single src sold : K → Nat) k)
    (hc : ∀ k ∈ A, c k = (Pi.single dst bought : K → Nat) k)
    (hfair : L.priceAt p dst * bought ≤ L.priceAt p src * sold) (hin : dst ∈ A → src ∈ A) :
    L'.worth p A ≤ L.worth p A := by
  have hw := h.worth p A
  rw [sum_priceAt_single hd, sum_priceAt_single hc] at hw
  by_cases hdst : dst ∈ A
  · rw [if_pos (hin hdst), if_pos hdst] at hw
    omega
  · rw [if_neg hdst] at hw
    omega

/-- An account put in the place of one worth as much leaves the worth of every set. -/
theorem worth_setAccount {k : K} {a : TokenAccount K}
    (h : p a.mint * a.amount.toNat = L.priceAt p k * L.amount k) :
    (L.setAccount k a).worth p A = L.worth p A := by
  refine Finset.sum_congr rfl ?_
  intro j _
  by_cases hj : j = k
  · subst hj
    rw [priceAt_of_account (setAccount_account_self ..),
      amount_of_account (setAccount_account_self ..), h]
  · simp only [priceAt, amount, setAccount_account_ne L a hj]

end Ledger

/-! ## Trades -/

namespace Ledger

open TokenProgram

variable {K : Type} [DecidableEq K] [TokenProgram K] {L L' L'' : Ledger K} {p : K → Nat}
  {A : Finset K} {src dst vault m m' auth auth' : K} {x n : UInt64} {v : TokenAccount K}

/-- Tokens paid to a vault outside `A` for tokens it mints. -/
theorem worth_le_of_buy (hpay : transfer L src vault auth x = some L')
    (hmint : mintTo L' m dst auth' n = some L'') (hv : L.account vault = some v)
    (hA : vault ∉ A) (hin : Within A (some src, dst))
    (hfair : p m * n.toNat ≤ p v.mint * x.toNat) : L''.worth p A ≤ L.worth p A := by
  obtain ⟨u, v', hu, hv', -, -, hsame, -⟩ := transfer_ok hpay
  obtain ⟨_, w', -, hw', -, -, hw'm, -⟩ := mintTo_ok hmint
  cases hv.symm.trans hv'
  obtain ⟨w, hw, hs⟩ := (transfer_evolves hpay).account_back hw'
  have hd : ∀ k ∈ A, (Pi.single src x.toNat + 0 : K → Nat) k =
      (Pi.single src x.toNat : K → Nat) k := by
    intro k _
    simp
  have hc : ∀ k ∈ A, (Pi.single vault x.toNat + Pi.single dst n.toNat : K → Nat) k =
      (Pi.single dst n.toNat : K → Nat) k := by
    intro k hk
    have hne : k ≠ vault := fun heq => hA (heq ▸ hk)
    simp [Pi.single_eq_of_ne hne]
  refine ((transfer_evolves hpay).trans (mintTo_evolves hmint)).worth_le_of_trade hd hc ?_ hin.mem
  rw [priceAt_of_account hu, priceAt_of_account hw, ← hs.mint, hw'm, hsame]
  exact hfair

/-- Tokens burned for tokens a vault outside `A` pays. -/
theorem worth_le_of_sell (hburn : burn L src m auth x = some L')
    (hpay : transfer L' vault dst auth' n = some L'') (hv : L.account vault = some v)
    (hA : vault ∉ A) (hin : Within A (some src, dst))
    (hfair : p v.mint * n.toNat ≤ p m * x.toNat) : L''.worth p A ≤ L.worth p A := by
  obtain ⟨u, _, hu, -, -, -, hum, -⟩ := burn_ok hburn
  obtain ⟨v', w', hv', hw', -, -, hsame, -⟩ := transfer_ok hpay
  obtain ⟨w, hw, hs⟩ := (burn_evolves hburn).account_back hw'
  obtain ⟨v₁, hv₁, hsv⟩ := (burn_evolves hburn).account hv
  cases hv₁.symm.trans hv'
  have hd : ∀ k ∈ A, (Pi.single src x.toNat + Pi.single vault n.toNat : K → Nat) k =
      (Pi.single src x.toNat : K → Nat) k := by
    intro k hk
    have hne : k ≠ vault := fun heq => hA (heq ▸ hk)
    simp [Pi.single_eq_of_ne hne]
  have hc : ∀ k ∈ A, (0 + Pi.single dst n.toNat : K → Nat) k =
      (Pi.single dst n.toNat : K → Nat) k := by
    intro k _
    simp
  refine ((burn_evolves hburn).trans (transfer_evolves hpay)).worth_le_of_trade hd hc ?_ hin.mem
  rw [priceAt_of_account hu, priceAt_of_account hw, ← hs.mint, ← hsame, hsv.mint, hum]
  exact hfair

/-- Tokens burned for tokens minted. -/
theorem worth_le_of_exchange (hburn : burn L src m auth x = some L')
    (hmint : mintTo L' m' dst auth' n = some L'') (hin : Within A (some src, dst))
    (hfair : p m' * n.toNat ≤ p m * x.toNat) : L''.worth p A ≤ L.worth p A := by
  obtain ⟨u, _, hu, -, -, -, hum, -⟩ := burn_ok hburn
  obtain ⟨_, w', -, hw', -, -, hw'm, -⟩ := mintTo_ok hmint
  obtain ⟨w, hw, hs⟩ := (burn_evolves hburn).account_back hw'
  have hd : ∀ k ∈ A, (Pi.single src x.toNat + 0 : K → Nat) k =
      (Pi.single src x.toNat : K → Nat) k := by
    intro k _
    simp
  have hc : ∀ k ∈ A, (0 + Pi.single dst n.toNat : K → Nat) k =
      (Pi.single dst n.toNat : K → Nat) k := by
    intro k _
    simp
  refine ((burn_evolves hburn).trans (mintTo_evolves hmint)).worth_le_of_trade hd hc ?_ hin.mem
  rw [priceAt_of_account hu, priceAt_of_account hw, ← hs.mint, hw'm, hum]
  exact hfair

end Ledger

namespace TokenCall

open Ledger

variable {K : Type}

/-- Where a call takes the tokens it moves, if from an account, and where it puts them. -/
def flow : TokenCall K → Option (Option K × K)
  | transfer s d _ _ => some (some s, d)
  | mintTo _ d _ _ => some (none, d)
  | _ => none

variable [DecidableEq K] [TokenProgram K] {L L' : Ledger K} {p : K → Nat} {A : Finset K}

/-- A call whose flow stays within `A` adds nothing to what `A` is worth. -/
theorem run_worth {c : TokenCall K} (h : run L c = some L') (hin : ∀ f ∈ c.flow, Within A f) :
    L'.worth p A ≤ L.worth p A := by
  cases c with
  | transfer s d auth n =>
      obtain ⟨a, b, ha, hb, -, -, hmint, -⟩ := TokenProgram.transfer_ok h
      refine (TokenProgram.transfer_evolves h).worth_le_of_trade (fun _ _ => rfl) (fun _ _ => rfl)
        ?_ (hin _ rfl).mem
      rw [priceAt_of_account ha, priceAt_of_account hb, hmint]
  | mintTo m d auth n =>
      have hout : d ∉ A := by
        intro hd
        obtain ⟨k, -, hnone⟩ := hin _ rfl hd
        cases hnone
      have hw := (TokenProgram.mintTo_evolves h).worth p A
      rw [sum_priceAt_single (fun _ _ => rfl : ∀ j ∈ A, _ = (Pi.single d n.toNat : K → Nat) j),
        if_neg hout] at hw
      omega
  | burn s m auth n =>
      have hw := (TokenProgram.burn_evolves h).worth p A
      simp only [Pi.zero_apply, Nat.mul_zero, Finset.sum_const_zero] at hw
      omega
  | approve k delegate n owner =>
      simp only [run] at h
      split at h
      · next a ha =>
          split at h
          · cases h
            refine Nat.le_of_eq (worth_setAccount ?_)
            rw [priceAt_of_account ha, amount_of_account ha]
          · cases h
      · cases h
  | setOwner k newOwner owner =>
      simp only [run] at h
      split at h
      · next a ha =>
          split at h
          · cases h
            refine Nat.le_of_eq (worth_setAccount ?_)
            rw [priceAt_of_account ha, amount_of_account ha]
          · cases h
      · cases h
  | openMint auth program k =>
      simp only [run] at h
      split at h
      · cases h
        exact Nat.le_refl _
      · cases h
  | openAccount m owner k =>
      simp only [run] at h
      split at h
      · split at h
        · next hv =>
            cases h
            refine Nat.le_of_eq (worth_setAccount ?_)
            simp [amount, hv.1]
        · cases h
      · cases h

end TokenCall

/-! ## Runs -/

section Runs

open Lts

variable {K σ ε : Type} {step : σ → ε → σ → Prop} {s₀ s : σ} {ts : List (Transition σ ε)}
  {A : Finset K}

/-- What a change of the prices adds to what `A` holds. -/
def Ledger.repricing (L : σ → Ledger K) (P : σ → K → Nat) (A : Finset K) (t : Transition σ ε) :
    Nat :=
  (L t.post).worth (fun m => P t.post m - P t.pre m) A

/-- Where no step adds to what `A` holds at the prices of the state before, a run adds what
repricing does, and where no price rises nothing. -/
theorem Lts.Run.worth {L : σ → Ledger K} {P : σ → K → Nat} (h : Run step s₀ ts s)
    (hstep : ∀ t ∈ ts, (L t.post).worth (P t.pre) A ≤ (L t.pre).worth (P t.pre) A) :
    (L s).worth (P s) A ≤
        (L s₀).worth (P s₀) A + (ts.map (Ledger.repricing L P A)).sum ∧
    ((∀ t ∈ ts, ∀ m, P t.post m ≤ P t.pre m) → (L s).worth (P s) A ≤ (L s₀).worth (P s₀) A) := by
  have hbound : (L s).worth (P s) A ≤
      (L s₀).worth (P s₀) A + (ts.map (Ledger.repricing L P A)).sum := by
    induction h with
    | nil => exact Nat.le_add_right _ _
    | @snoc ts s s' e _ hs ih =>
        simp only [List.forall_mem_append, List.forall_mem_singleton] at hstep
        have hle := ih hstep.1
        have hnext := hstep.2
        have hprice : (L s').worth (P s') A ≤ (L s').worth (P s) A +
            1 * (L s').worth (fun m => P s' m - P s m) A :=
          Ledger.worth_le_of_prices fun m => by omega
        rw [List.map_append, List.sum_append, List.map_singleton, List.sum_singleton]
        simp only [Ledger.repricing]
        omega
  refine ⟨hbound, ?_⟩
  intro hfall
  have hzero : (ts.map (Ledger.repricing L P A)).sum = 0 := by
    refine List.sum_eq_zero ?_
    intro n hn
    obtain ⟨t, ht, rfl⟩ := List.mem_map.mp hn
    exact Ledger.worth_eq_zero fun m => Nat.sub_eq_zero_of_le (hfall t ht m)
  rw [hzero, Nat.add_zero] at hbound
  exact hbound

end Runs

/-! ## Supplies -/

namespace Ledger

variable {K : Type} [DecidableEq K]

/-- The tokens of `m` in the accounts `A`. -/
def held (L : Ledger K) (m : K) (A : Finset K) : Nat := L.worth (Pi.single m 1) A

/-- No accounts hold more of a token than there is. -/
def Balanced (L : Ledger K) : Prop := ∀ m A, L.held m A ≤ L.supply m

variable {L L' : Ledger K} {A : Finset K}

/-- One more account of the token. -/
theorem held_insert {k m : K} {a : TokenAccount K} (ha : L.account k = some a) (hm : a.mint = m)
    (hk : k ∉ A) : L.held m (insert k A) = L.amount k + L.held m A := by
  rw [held, worth, Finset.sum_insert hk, priceAt_of_account ha, hm, Pi.single_eq_same, Nat.one_mul]
  rfl

theorem held_mono {m : K} {A B : Finset K} (h : A ⊆ B) : L.held m A ≤ L.held m B :=
  Finset.sum_le_sum_of_subset h

end Ledger

namespace TokenCall

open Ledger

variable {K : Type} [DecidableEq K] [TokenProgram K] {L L' : Ledger K}

omit [TokenProgram K] in
/-- Another account in the place of one that held as much leaves a ledger balanced. -/
theorem balanced_setAccount {k : K} {a : TokenAccount K} (h : L.Balanced)
    (ha : ∀ p : K → Nat, p a.mint * a.amount.toNat = L.priceAt p k * L.amount k) :
    (L.setAccount k a).Balanced := by
  intro m A
  rw [held, worth_setAccount (ha _)]
  exact h m A

/-- No call makes accounts hold more than there is. -/
theorem run_balanced {c : TokenCall K} (hrun : run L c = some L') (h : L.Balanced) :
    L'.Balanced := by
  cases c with
  | transfer s d auth n =>
      intro m A
      have he := TokenProgram.transfer_evolves hrun
      have hwithin : ∀ f ∈ (transfer s d auth n).flow, Within (insert s A) f := by
        rintro _ ⟨⟩ -
        exact ⟨s, Finset.mem_insert_self s A, rfl⟩
      calc L'.held m A ≤ L'.held m (insert s A) := held_mono (Finset.subset_insert s A)
        _ ≤ L.held m (insert s A) := run_worth hrun hwithin
        _ ≤ L.supply m := h m _
        _ = L'.supply m := (he.supply m).symm
  | mintTo m' d auth n =>
      intro m A
      obtain ⟨M, b, -, hb, -, -, hmint, -⟩ := TokenProgram.mintTo_ok hrun
      have he := TokenProgram.mintTo_evolves hrun
      have hw := he.worth (Pi.single m 1) A
      have hsupply := he.supply m
      rw [sum_priceAt_single (fun _ _ => rfl : ∀ j ∈ A, _ = (Pi.single d n.toNat : K → Nat) j),
        priceAt_of_account hb, hmint] at hw
      simp only [Pi.zero_apply, Nat.mul_zero, Finset.sum_const_zero, Nat.add_zero] at hw hsupply
      have hle := h m A
      unfold held at hle ⊢
      rw [hw, hsupply]
      by_cases hm : m' = m
      · subst hm
        simp only [Pi.single_eq_same, Nat.one_mul]
        split <;> omega
      · simp only [Pi.single_eq_of_ne hm, Nat.zero_mul, ite_self, Nat.add_zero]
        omega
  | burn s m' auth n =>
      intro m A
      obtain ⟨a, M, ha, -, -, -, hmint, -⟩ := TokenProgram.burn_ok hrun
      have he := TokenProgram.burn_evolves hrun
      have hw := he.worth (Pi.single m 1) (insert s A)
      have hsupply := he.supply m
      rw [sum_priceAt_single (fun _ _ => rfl : ∀ j ∈ insert s A, _ =
          (Pi.single s n.toNat : K → Nat) j), if_pos (Finset.mem_insert_self s A),
        priceAt_of_account ha, hmint] at hw
      simp only [Pi.zero_apply, Nat.mul_zero, Finset.sum_const_zero, Nat.add_zero] at hw hsupply
      have hle := h m (insert s A)
      have hsub : L'.held m A ≤ L'.held m (insert s A) := held_mono (Finset.subset_insert s A)
      unfold held at hle hsub ⊢
      by_cases hm : m' = m
      · subst hm
        rw [Pi.single_eq_same] at hw hsupply
        omega
      · rw [Pi.single_eq_of_ne hm] at hw
        rw [Pi.single_eq_of_ne (Ne.symm hm)] at hsupply
        omega
  | approve k delegate n owner =>
      simp only [run] at hrun
      split at hrun
      · next a ha =>
          split at hrun
          · cases hrun
            refine balanced_setAccount h ?_
            intro p
            rw [priceAt_of_account ha, amount_of_account ha]
          · cases hrun
      · cases hrun
  | setOwner k newOwner owner =>
      simp only [run] at hrun
      split at hrun
      · next a ha =>
          split at hrun
          · cases hrun
            refine balanced_setAccount h ?_
            intro p
            rw [priceAt_of_account ha, amount_of_account ha]
          · cases hrun
      · cases hrun
  | openMint auth program k =>
      simp only [run] at hrun
      split at hrun
      · next hv =>
          cases hrun
          intro m A
          have hle := h m A
          by_cases hm : m = k
          · -- there was no such token, and nobody held any
            subst hm
            have hnone : L.supply m = 0 := by simp [supply, hv.2]
            rw [hnone] at hle
            exact hle.trans (Nat.zero_le _)
          · have hsame : (L.setMint k ⟨program, some auth, 0⟩).supply m = L.supply m := by
              simp only [supply, setMint_mint_ne L _ hm]
            rw [hsame]
            exact hle
      · cases hrun
  | openAccount m' owner k =>
      simp only [run] at hrun
      split at hrun
      · split at hrun
        · next hv =>
            cases hrun
            refine balanced_setAccount h ?_
            intro p
            simp [amount, hv.1]
        · cases hrun
      · cases hrun

end TokenCall
