/-
# `Oragami.Lib.LegacyToken` — a token program in full

The three operations as the legacy token program performs them, allowances
included, and the proof that they are a `TokenProgram`: each accepts exactly
under its precondition and has its effect.  The class is therefore inhabited,
and closed examples can be run.
-/
import Oragami.Lib.Ledger

namespace LegacyToken

open Ledger

variable {K : Type} [DecidableEq K]

/-- The account after `n` tokens went out on `auth`'s signature. -/
def debit (a : TokenAccount K) (auth : K) (n : UInt64) : TokenAccount K :=
  { a.spend auth n with amount := a.amount - n }

def credit (a : TokenAccount K) (n : UInt64) : TokenAccount K :=
  { a with amount := a.amount + n }

def transfer (L : Ledger K) (src dst auth : K) (n : UInt64) : Option (Ledger K) :=
  match L.account src, L.account dst with
  | some a, some b =>
      if a.program = .token ∧ b.program = .token ∧ a.mint = b.mint ∧ a.frozen = false ∧
          b.frozen = false ∧ n ≤ a.amount ∧ a.CanDebit auth n then
        if src = dst then some L
        else if b.amount.toNat + n.toNat < 2 ^ 64 then
          some ((L.setAccount src (debit a auth n)).setAccount dst (credit b n))
        else none
      else none
  | _, _ => none

def mintTo (L : Ledger K) (m dst auth : K) (n : UInt64) : Option (Ledger K) :=
  match L.mint m, L.account dst with
  | some M, some b =>
      if M.program = .token ∧ b.program = .token ∧ b.mint = m ∧ b.frozen = false ∧
          M.mintAuthority = some auth ∧ M.supply.toNat + n.toNat < 2 ^ 64 ∧
          b.amount.toNat + n.toNat < 2 ^ 64 then
        some ((L.setAccount dst (credit b n)).setMint m { M with supply := M.supply + n })
      else none
  | _, _ => none

def burn (L : Ledger K) (src m auth : K) (n : UInt64) : Option (Ledger K) :=
  match L.account src, L.mint m with
  | some a, some M =>
      if a.program = .token ∧ M.program = .token ∧ a.mint = m ∧ a.frozen = false ∧
          n ≤ a.amount ∧ a.CanDebit auth n ∧ n ≤ M.supply then
        some ((L.setAccount src (debit a auth n)).setMint m { M with supply := M.supply - n })
      else none
  | _, _ => none

/-! ## Preconditions -/

theorem transfer_isSome (L : Ledger K) (src dst auth : K) (n : UInt64) :
    (transfer L src dst auth n).isSome ↔ L.TransferOk src dst auth n := by
  unfold transfer TransferOk
  constructor
  · intro h
    split at h
    · next a b ha hb =>
        split at h
        · next hc =>
            obtain ⟨h1, h2, h3, h4, h5, h6, h7⟩ := hc
            refine ⟨a, b, ha, hb, h1, h2, h3, h4, h5, h6, h7, ?_⟩
            intro hne
            rw [if_neg hne] at h
            split at h
            · assumption
            · cases h
        · cases h
    · cases h
  · rintro ⟨a, b, ha, hb, h1, h2, h3, h4, h5, h6, h7, h8⟩
    simp only [ha, hb]
    rw [if_pos ⟨h1, h2, h3, h4, h5, h6, h7⟩]
    by_cases hne : src = dst
    · simp only [if_pos hne, Option.isSome_some]
    · simp only [if_neg hne, if_pos (h8 hne), Option.isSome_some]

theorem mintTo_isSome (L : Ledger K) (m dst auth : K) (n : UInt64) :
    (mintTo L m dst auth n).isSome ↔ L.MintOk m dst auth n := by
  unfold mintTo MintOk
  constructor
  · intro h
    split at h
    · next M b hM hb =>
        split at h
        · next hc => exact ⟨M, b, hM, hb, hc⟩
        · cases h
    · cases h
  · rintro ⟨M, b, hM, hb, hc⟩
    simp only [hM, hb, if_pos hc, Option.isSome_some]

theorem burn_isSome (L : Ledger K) (src m auth : K) (n : UInt64) :
    (burn L src m auth n).isSome ↔ L.BurnOk src m auth n := by
  unfold burn BurnOk
  constructor
  · intro h
    split at h
    · next a M ha hM =>
        split at h
        · next hc => exact ⟨a, M, ha, hM, hc⟩
        · cases h
    · cases h
  · rintro ⟨a, M, ha, hM, hc⟩
    simp only [ha, hM, if_pos hc, Option.isSome_some]

/-! ## Effects -/

section Effects

variable {L : Ledger K} {n : UInt64}

theorem evolves_setAccount {k : K} {a a' : TokenAccount K} {x y : Nat} (ha : L.account k = some a)
    (hs : a.SameHolding a') (hxy : a'.amount.toNat + x = a.amount.toNat + y) :
    L.Evolves (L.setAccount k a') (Pi.single k x) (Pi.single k y) 0 0 where
  holding j := by
    by_cases hj : j = k
    · subst hj
      rw [setAccount_account_self, ha]
      exact .some hs
    · rw [setAccount_account_ne L a' hj]
      exact (Evolves.refl L).holding j
  issuer j := (Evolves.refl L).issuer j
  amount j := by
    by_cases hj : j = k
    · subst hj
      rw [amount_of_account (L.setAccount_account_self j a'), amount_of_account ha,
        Pi.single_eq_same, Pi.single_eq_same]
      exact hxy
    · simp only [Ledger.amount, setAccount_account_ne L a' hj, Pi.single_eq_of_ne hj]
  supply _ := rfl

theorem evolves_setMint {m : K} {M M' : Mint K} {x y : Nat} (hM : L.mint m = some M)
    (hs : M.SameIssuer M') (hxy : M'.supply.toNat + x = M.supply.toNat + y) :
    L.Evolves (L.setMint m M') 0 0 (Pi.single m x) (Pi.single m y) where
  holding j := (Evolves.refl L).holding j
  issuer j := by
    by_cases hj : j = m
    · subst hj
      rw [setMint_mint_self, hM]
      exact .some hs
    · rw [setMint_mint_ne L M' hj]
      exact (Evolves.refl L).issuer j
  amount _ := rfl
  supply j := by
    by_cases hj : j = m
    · subst hj
      rw [supply_of_mint (L.setMint_mint_self j M'), supply_of_mint hM,
        Pi.single_eq_same, Pi.single_eq_same]
      exact hxy
    · simp only [Ledger.supply, setMint_mint_ne L M' hj, Pi.single_eq_of_ne hj]

theorem debit_sameHolding (a : TokenAccount K) (auth : K) : a.SameHolding (debit a auth n) := by
  unfold debit TokenAccount.spend
  split
  · refine ⟨rfl, rfl, rfl, rfl, ?_⟩
    show ite _ _ _ = _ ∨ ite _ _ _ = _
    split
    · exact .inr rfl
    · exact .inl rfl
  · exact ⟨rfl, rfl, rfl, rfl, .inl rfl⟩

theorem debit_evolves {k : K} {a : TokenAccount K} (auth : K) (ha : L.account k = some a)
    (hn : n ≤ a.amount) :
    L.Evolves (L.setAccount k (debit a auth n)) (Pi.single k n.toNat) 0 0 0 := by
  have hle := UInt64.le_iff_toNat_le.mp hn
  have he := evolves_setAccount (x := n.toNat) (y := 0) ha (debit_sameHolding a auth) (by
    show (a.amount - n).toNat + n.toNat = _
    rw [UInt64.toNat_sub_of_le _ _ hn]
    omega)
  rwa [Pi.single_zero] at he

theorem credit_evolves {k : K} {a : TokenAccount K} (ha : L.account k = some a)
    (hn : a.amount.toNat + n.toNat < 2 ^ 64) :
    L.Evolves (L.setAccount k (credit a n)) 0 (Pi.single k n.toNat) 0 0 := by
  have hs : a.SameHolding (credit a n) := ⟨rfl, rfl, rfl, rfl, .inl rfl⟩
  have he := evolves_setAccount (x := 0) (y := n.toNat) ha hs (by
    show (a.amount + n).toNat + 0 = _
    rw [UInt64.toNat_add, Nat.mod_eq_of_lt hn, Nat.add_zero])
  rwa [Pi.single_zero] at he

theorem issue_evolves {m : K} {M : Mint K} (hM : L.mint m = some M)
    (hn : M.supply.toNat + n.toNat < 2 ^ 64) :
    L.Evolves (L.setMint m { M with supply := M.supply + n }) 0 0 0 (Pi.single m n.toNat) := by
  have hs : M.SameIssuer { M with supply := M.supply + n } := ⟨rfl, rfl⟩
  have he := evolves_setMint (x := 0) (y := n.toNat) hM hs (by
    show (M.supply + n).toNat + 0 = _
    rw [UInt64.toNat_add, Nat.mod_eq_of_lt hn, Nat.add_zero])
  rwa [Pi.single_zero] at he

theorem retire_evolves {m : K} {M : Mint K} (hM : L.mint m = some M) (hn : n ≤ M.supply) :
    L.Evolves (L.setMint m { M with supply := M.supply - n }) 0 0 (Pi.single m n.toNat) 0 := by
  have hle := UInt64.le_iff_toNat_le.mp hn
  have hs : M.SameIssuer { M with supply := M.supply - n } := ⟨rfl, rfl⟩
  have he := evolves_setMint (x := n.toNat) (y := 0) hM hs (by
    show (M.supply - n).toNat + n.toNat = _
    rw [UInt64.toNat_sub_of_le _ _ hn]
    omega)
  rwa [Pi.single_zero] at he

theorem transfer_evolves {L' : Ledger K} {src dst auth : K}
    (h : transfer L src dst auth n = some L') :
    L.Evolves L' (Pi.single src n.toNat) (Pi.single dst n.toNat) 0 0 := by
  unfold transfer at h
  split at h
  · next a b ha hb =>
      split at h
      · next hc =>
          obtain ⟨-, -, -, -, -, hle, -⟩ := hc
          split at h
          · next hsd =>
              cases h
              subst hsd
              exact ⟨(Evolves.refl L).holding, (Evolves.refl L).issuer, fun _ => rfl, fun _ => rfl⟩
          · next hsd =>
              split at h
              · next hlt =>
                  cases h
                  have hb' : (L.setAccount src (debit a auth n)).account dst = some b := by
                    rw [setAccount_account_ne L _ (Ne.symm hsd), hb]
                  have he := (debit_evolves auth ha hle).trans (credit_evolves hb' hlt)
                  simpa only [add_zero, zero_add] using he
              · cases h
      · cases h
  · cases h

theorem mintTo_evolves {L' : Ledger K} {m dst auth : K} (h : mintTo L m dst auth n = some L') :
    L.Evolves L' 0 (Pi.single dst n.toNat) 0 (Pi.single m n.toNat) := by
  unfold mintTo at h
  split at h
  · next M b hM hb =>
      split at h
      · next hc =>
          obtain ⟨-, -, -, -, -, hsup, hamt⟩ := hc
          cases h
          have hM' : (L.setAccount dst (credit b n)).mint m = some M := hM
          have he := (credit_evolves hb hamt).trans (issue_evolves hM' hsup)
          simpa only [add_zero, zero_add] using he
      · cases h
  · cases h

theorem burn_evolves {L' : Ledger K} {src m auth : K} (h : burn L src m auth n = some L') :
    L.Evolves L' (Pi.single src n.toNat) 0 (Pi.single m n.toNat) 0 := by
  unfold burn at h
  split at h
  · next a M ha hM =>
      split at h
      · next hc =>
          obtain ⟨-, -, -, -, hamt, -, hsup⟩ := hc
          cases h
          have hM' : (L.setAccount src (debit a auth n)).mint m = some M := hM
          have he := (debit_evolves auth ha hamt).trans (retire_evolves hM' hsup)
          simpa only [add_zero, zero_add] using he
      · cases h
  · cases h

end Effects

/-! ## Allowances -/

section Allowances

variable {L L' : Ledger K} {n : UInt64}

/-- Minting leaves every allowance as it is. -/
theorem mintTo_allowance {m dst auth : K} (h : mintTo L m dst auth n = some L') (k : K) :
    (L'.account k).map (·.allowance) = (L.account k).map (·.allowance) := by
  unfold mintTo at h
  split at h
  · next M b hM hb =>
      split at h
      · cases h
        show ((L.setAccount dst (credit b n)).account k).map _ = _
        by_cases hk : k = dst
        · subst hk
          rw [setAccount_account_self, hb]
          rfl
        · rw [setAccount_account_ne L _ hk]
      · cases h
  · cases h

/-- Burning spends the allowance of the burned account only. -/
theorem burn_allowance {src m auth : K} (h : burn L src m auth n = some L') (k : K) :
    (L'.account k).map (·.allowance) =
      (L.account k).map fun a => (if k = src then a.spend auth n else a).allowance := by
  unfold burn at h
  split at h
  · next a M ha hM =>
      split at h
      · cases h
        show ((L.setAccount src (debit a auth n)).account k).map _ = _
        by_cases hk : k = src
        · subst hk
          rw [setAccount_account_self, ha, Option.map_some, Option.map_some, if_pos rfl]
          rfl
        · rw [setAccount_account_ne L _ hk]
          simp only [if_neg hk]
      · cases h
  · cases h

end Allowances

/-- The legacy token program, deployed at `id`. -/
@[reducible] def program (id : K) : TokenProgram K where
  id
  transfer
  mintTo
  burn
  transfer_isSome
  mintTo_isSome
  burn_isSome
  transfer_evolves
  mintTo_evolves
  burn_evolves
  mintTo_allowance
  burn_allowance

end LegacyToken
