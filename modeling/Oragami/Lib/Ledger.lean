/-
# `Oragami.Lib.Ledger` — token accounts, mints and the program that moves them

The state a token program keeps, and what its instructions are documented to do
to it.  The token program itself is a parameter: `TokenProgram K` is any set of
operations that accept exactly under the stated preconditions (`TransferOk`,
`MintOk`, `BurnOk`) and whose effect on balances and supplies is the stated one
(`Evolves`).  How an implementation keeps its allowances is left to it.

`Evolves` adds up: two operations in a row debit, credit, mint and burn the sum
of what each does.  A program that calls the token program several times reads
the balances after the last call off one `Evolves`.

`Kept P` is the other direction, for a program that signs for the keys in `P`:
whatever anyone else has the token program do, an account owned by a key of `P`
without a delegate loses nothing, and a mint only keys of `P` may mint from is
not inflated.
-/
import Mathlib.Algebra.Group.Pi.Basic
import Mathlib.Algebra.GroupWithZero.Nat
import Mathlib.Tactic.Common

/-- The two token programs. -/
inductive TokenProgramId where
  | token
  | token2022
deriving DecidableEq

/-- A token account: whose tokens, of which mint, how many. -/
structure TokenAccount (K : Type) where
  program : TokenProgramId
  mint : K
  owner : K
  amount : UInt64
  delegate : Option K
  delegatedAmount : UInt64
  frozen : Bool

/-- A mint: who may issue its tokens, how many there are. -/
structure Mint (K : Type) where
  program : TokenProgramId
  mintAuthority : Option K
  supply : UInt64

/-- All token accounts and mints, by address. -/
structure Ledger (K : Type) where
  account : K → Option (TokenAccount K)
  mint : K → Option (Mint K)

namespace Ledger

variable {K : Type}

/-- The balance of an account, zero where there is none. -/
def amount (L : Ledger K) (k : K) : Nat := ((L.account k).map (·.amount.toNat)).getD 0

/-- The supply of a mint, zero where there is none. -/
def supply (L : Ledger K) (k : K) : Nat := ((L.mint k).map (·.supply.toNat)).getD 0

theorem amount_of_account {L : Ledger K} {k : K} {a : TokenAccount K}
    (h : L.account k = some a) : L.amount k = a.amount.toNat := by
  simp [amount, h]

theorem supply_of_mint {L : Ledger K} {k : K} {m : Mint K}
    (h : L.mint k = some m) : L.supply k = m.supply.toNat := by
  simp [supply, h]

/-- No account of either kind lives at `k`. -/
def Vacant (L : Ledger K) (k : K) : Prop := L.account k = none ∧ L.mint k = none

instance (L : Ledger K) (k : K) : Decidable (L.Vacant k) :=
  inferInstanceAs (Decidable (_ ∧ _))

/-- A token account of the legacy program lives at `k`. -/
def IsAccount (L : Ledger K) (k : K) : Prop := ∃ a, L.account k = some a ∧ a.program = .token

/-- A mint of the legacy program lives at `k`. -/
def IsMint (L : Ledger K) (k : K) : Prop := ∃ M, L.mint k = some M ∧ M.program = .token

variable [DecidableEq K]

def setAccount (L : Ledger K) (k : K) (a : TokenAccount K) : Ledger K :=
  { L with account := Function.update L.account k (some a) }

def setMint (L : Ledger K) (k : K) (m : Mint K) : Ledger K :=
  { L with mint := Function.update L.mint k (some m) }

/-- A new mint of the legacy program at `k`. -/
def openMint (L : Ledger K) (k authority : K) : Ledger K :=
  L.setMint k ⟨.token, some authority, 0⟩

/-- A new, empty token account of the legacy program at `k`. -/
def openAccount (L : Ledger K) (k mint owner : K) : Ledger K :=
  L.setAccount k ⟨.token, mint, owner, 0, none, 0, false⟩

@[simp] theorem setAccount_account_self (L : Ledger K) (k : K) (a : TokenAccount K) :
    (L.setAccount k a).account k = some a := by
  simp [setAccount]

theorem setAccount_account_ne (L : Ledger K) {k j : K} (a : TokenAccount K) (h : j ≠ k) :
    (L.setAccount k a).account j = L.account j := by
  simp [setAccount, h]

@[simp] theorem setAccount_mint (L : Ledger K) (k : K) (a : TokenAccount K) :
    (L.setAccount k a).mint = L.mint := rfl

@[simp] theorem setMint_mint_self (L : Ledger K) (k : K) (m : Mint K) :
    (L.setMint k m).mint k = some m := by
  simp [setMint]

theorem setMint_mint_ne (L : Ledger K) {k j : K} (m : Mint K) (h : j ≠ k) :
    (L.setMint k m).mint j = L.mint j := by
  simp [setMint, h]

@[simp] theorem setMint_account (L : Ledger K) (k : K) (m : Mint K) :
    (L.setMint k m).account = L.account := rfl

/-- A mint elsewhere is not affected by a new one. -/
theorem IsMint.setMint {L : Ledger K} {j k : K} {m : Mint K} (h : L.IsMint j)
    (hk : L.mint k = none) : (L.setMint k m).IsMint j := by
  obtain ⟨M, hM, hp⟩ := h
  have hne : j ≠ k := by
    rintro rfl
    cases hM.symm.trans hk
  exact ⟨M, by rw [setMint_mint_ne L m hne, hM], hp⟩

end Ledger

/-! ## What an operation asks for -/

section Preconditions

variable {K : Type} [DecidableEq K]

/-- `auth` may take `n` tokens out of `a`: as its delegate, up to the allowance, or
else as its owner. -/
def TokenAccount.CanDebit (a : TokenAccount K) (auth : K) (n : UInt64) : Prop :=
  if a.delegate = some auth then n ≤ a.delegatedAmount else a.owner = auth

instance (a : TokenAccount K) (auth : K) (n : UInt64) : Decidable (a.CanDebit auth n) :=
  inferInstanceAs
    (Decidable (if a.delegate = some auth then n ≤ a.delegatedAmount else a.owner = auth))

/-- The delegate and what it may still spend. -/
def TokenAccount.allowance {K : Type} (a : TokenAccount K) : Option K × UInt64 :=
  (a.delegate, a.delegatedAmount)

/-- The account after `auth` used `n` of its allowance, if it has one; a spent allowance
is dropped. -/
def TokenAccount.spend (a : TokenAccount K) (auth : K) (n : UInt64) : TokenAccount K :=
  if a.delegate = some auth then
    { a with
      delegatedAmount := a.delegatedAmount - n
      delegate := if a.delegatedAmount = n then none else a.delegate }
  else a

theorem TokenAccount.spend_owner (a : TokenAccount K) (auth : K) (n : UInt64) :
    (a.spend auth n).owner = a.owner := by
  unfold spend
  split <;> rfl

/-- Owner and allowance decide who may debit. -/
theorem TokenAccount.canDebit_congr {a a' : TokenAccount K} {auth : K} {n : UInt64}
    (ho : a'.owner = a.owner) (hw : a'.allowance = a.allowance) :
    a'.CanDebit auth n ↔ a.CanDebit auth n := by
  obtain ⟨hdel, hamt⟩ := Prod.mk.inj hw
  simp only [CanDebit, ho, hdel, hamt]

/-- When a transfer of `n` from `src` to `dst` signed by `auth` is accepted. -/
def Ledger.TransferOk (L : Ledger K) (src dst auth : K) (n : UInt64) : Prop :=
  ∃ a b, L.account src = some a ∧ L.account dst = some b ∧
    a.program = .token ∧ b.program = .token ∧ a.mint = b.mint ∧
    a.frozen = false ∧ b.frozen = false ∧ n ≤ a.amount ∧ a.CanDebit auth n ∧
    (src ≠ dst → b.amount.toNat + n.toNat < 2 ^ 64)

/-- When minting `n` tokens of `m` into `dst` signed by `auth` is accepted. -/
def Ledger.MintOk (L : Ledger K) (m dst auth : K) (n : UInt64) : Prop :=
  ∃ M b, L.mint m = some M ∧ L.account dst = some b ∧
    M.program = .token ∧ b.program = .token ∧ b.mint = m ∧ b.frozen = false ∧
    M.mintAuthority = some auth ∧
    M.supply.toNat + n.toNat < 2 ^ 64 ∧ b.amount.toNat + n.toNat < 2 ^ 64

/-- When burning `n` tokens of `m` out of `src` signed by `auth` is accepted. -/
def Ledger.BurnOk (L : Ledger K) (src m auth : K) (n : UInt64) : Prop :=
  ∃ a M, L.account src = some a ∧ L.mint m = some M ∧
    a.program = .token ∧ M.program = .token ∧ a.mint = m ∧ a.frozen = false ∧
    n ≤ a.amount ∧ a.CanDebit auth n ∧ n ≤ M.supply

end Preconditions

/-! ## What an operation does -/

/-- The same account but for its balance and a delegate that may have been dropped. -/
structure TokenAccount.SameHolding {K : Type} (a a' : TokenAccount K) : Prop where
  program : a'.program = a.program
  mint : a'.mint = a.mint
  owner : a'.owner = a.owner
  frozen : a'.frozen = a.frozen
  delegate : a'.delegate = a.delegate ∨ a'.delegate = none

/-- The same mint but for its supply. -/
structure Mint.SameIssuer {K : Type} (m m' : Mint K) : Prop where
  program : m'.program = m.program
  mintAuthority : m'.mintAuthority = m.mintAuthority

namespace Ledger

variable {K : Type}

/-- From `L` to `L'` accounts were debited and credited, and mints burned from and
minted from, as the four functions say; nothing was created, closed or handed over. -/
structure Evolves (L L' : Ledger K) (debit credit burned minted : K → Nat) : Prop where
  holding : ∀ k, Option.Rel TokenAccount.SameHolding (L.account k) (L'.account k)
  issuer : ∀ k, Option.Rel Mint.SameIssuer (L.mint k) (L'.mint k)
  amount : ∀ k, L'.amount k + debit k = L.amount k + credit k
  supply : ∀ k, L'.supply k + burned k = L.supply k + minted k

theorem Evolves.account {L L' : Ledger K} {d c b m : K → Nat} {k : K} {a : TokenAccount K}
    (h : Evolves L L' d c b m) (ha : L.account k = some a) :
    ∃ a', L'.account k = some a' ∧ a.SameHolding a' := by
  have hk := h.holding k
  rw [ha] at hk
  cases hk' : L'.account k with
  | none => rw [hk'] at hk; cases hk
  | some a' => rw [hk'] at hk; cases hk with | some hs => exact ⟨a', rfl, hs⟩

theorem Evolves.account_back {L L' : Ledger K} {d c b m : K → Nat} {k : K}
    {a' : TokenAccount K} (h : Evolves L L' d c b m) (ha : L'.account k = some a') :
    ∃ a, L.account k = some a ∧ a.SameHolding a' := by
  have hk := h.holding k
  rw [ha] at hk
  cases hk' : L.account k with
  | none => rw [hk'] at hk; cases hk
  | some a => rw [hk'] at hk; cases hk with | some hs => exact ⟨a, rfl, hs⟩

theorem Evolves.mint {L L' : Ledger K} {d c b m : K → Nat} {k : K} {M : Mint K}
    (h : Evolves L L' d c b m) (hM : L.mint k = some M) :
    ∃ M', L'.mint k = some M' ∧ M.SameIssuer M' := by
  have hk := h.issuer k
  rw [hM] at hk
  cases hk' : L'.mint k with
  | none => rw [hk'] at hk; cases hk
  | some M' => rw [hk'] at hk; cases hk with | some hs => exact ⟨M', rfl, hs⟩

/-- Nothing is created or closed, nor moved between the token programs. -/
theorem Evolves.isAccount_iff {L L' : Ledger K} {d c b m : K → Nat} {k : K}
    (h : Evolves L L' d c b m) : L'.IsAccount k ↔ L.IsAccount k := by
  have hk := h.holding k
  unfold IsAccount
  generalize L.account k = x, L'.account k = y at hk
  cases hk with
  | none => rfl
  | some hs => simp [hs.program]

theorem Evolves.isMint_iff {L L' : Ledger K} {d c b m : K → Nat} {k : K}
    (h : Evolves L L' d c b m) : L'.IsMint k ↔ L.IsMint k := by
  have hk := h.issuer k
  unfold IsMint
  generalize L.mint k = x, L'.mint k = y at hk
  cases hk with
  | none => rfl
  | some hs => simp [hs.program]

/-- The account at `k` is `owner`'s, of `mint`. -/
def Holds (L : Ledger K) (k owner mint : K) : Prop :=
  ∃ a, L.account k = some a ∧ a.owner = owner ∧ a.mint = mint

theorem Holds.evolves {L L' : Ledger K} {d c b m : K → Nat} {k owner mint : K}
    (h : L.Holds k owner mint) (he : Evolves L L' d c b m) : L'.Holds k owner mint := by
  obtain ⟨a, ha, howner, hmint⟩ := h
  obtain ⟨a', ha', hs⟩ := he.account ha
  exact ⟨a', ha', hs.owner.trans howner, hs.mint.trans hmint⟩

/-- Another account changes nothing here. -/
theorem Holds.setAccount [DecidableEq K] {L : Ledger K} {k j owner mint : K} {a' : TokenAccount K}
    (h : L.Holds k owner mint) (hne : k ≠ j) : (L.setAccount j a').Holds k owner mint := by
  obtain ⟨a, ha, howner, hmint⟩ := h
  exact ⟨a, (setAccount_account_ne L a' hne).trans ha, howner, hmint⟩

/-- Nor does an account of another owner. -/
theorem Holds.setAnothers [DecidableEq K] {L : Ledger K} {k j owner mint : K}
    {a a' : TokenAccount K} (h : L.Holds k owner mint) (ha : L.account j = some a)
    (hne : a.owner ≠ owner) : (L.setAccount j a').Holds k owner mint := by
  refine h.setAccount ?_
  rintro rfl
  obtain ⟨acc, hacc, howner, -⟩ := h
  cases hacc.symm.trans ha
  exact hne howner

theorem Evolves.refl (L : Ledger K) : Evolves L L 0 0 0 0 where
  holding k := by
    cases L.account k with
    | none => exact .none
    | some a => exact .some ⟨rfl, rfl, rfl, rfl, .inl rfl⟩
  issuer k := by
    cases L.mint k with
    | none => exact .none
    | some m => exact .some ⟨rfl, rfl⟩
  amount _ := rfl
  supply _ := rfl

theorem SameHolding.trans {a a' a'' : TokenAccount K} (h : a.SameHolding a')
    (h' : a'.SameHolding a'') : a.SameHolding a'' where
  program := h'.program.trans h.program
  mint := h'.mint.trans h.mint
  owner := h'.owner.trans h.owner
  frozen := h'.frozen.trans h.frozen
  delegate := by
    rcases h'.delegate with hd | hd
    · rw [hd]; exact h.delegate
    · exact .inr hd

/-- Effects add up. -/
theorem Evolves.trans {L L' L'' : Ledger K} {d c b m d' c' b' m' : K → Nat}
    (h : Evolves L L' d c b m) (h' : Evolves L' L'' d' c' b' m') :
    Evolves L L'' (d + d') (c + c') (b + b') (m + m') where
  holding k := by
    have hk := h.holding k
    have hk' := h'.holding k
    generalize L.account k = x, L'.account k = y, L''.account k = z at hk hk'
    cases hk with
    | none => exact hk'
    | some hs => cases hk' with | some hs' => exact .some (SameHolding.trans hs hs')
  issuer k := by
    have hk := h.issuer k
    have hk' := h'.issuer k
    generalize L.mint k = x, L'.mint k = y, L''.mint k = z at hk hk'
    cases hk with
    | none => exact hk'
    | some hs =>
        cases hk' with
        | some hs' =>
            exact .some ⟨hs'.program.trans hs.program, hs'.mintAuthority.trans hs.mintAuthority⟩
  amount k := by
    have h1 := h.amount k
    have h2 := h'.amount k
    simp only [Pi.add_apply]
    omega
  supply k := by
    have h1 := h.supply k
    have h2 := h'.supply k
    simp only [Pi.add_apply]
    omega

end Ledger

/-! ## The token program -/

/-- A token program: operations that accept under the documented preconditions and
have the documented effect. -/
class TokenProgram (K : Type) [DecidableEq K] where
  /-- The address the program is deployed at. -/
  id : K
  /-- `transfer ledger source destination authority amount`. -/
  transfer : Ledger K → K → K → K → UInt64 → Option (Ledger K)
  /-- `mintTo ledger mint account authority amount`. -/
  mintTo : Ledger K → K → K → K → UInt64 → Option (Ledger K)
  /-- `burn ledger account mint authority amount`. -/
  burn : Ledger K → K → K → K → UInt64 → Option (Ledger K)
  transfer_isSome : ∀ L s d auth n, (transfer L s d auth n).isSome ↔ L.TransferOk s d auth n
  mintTo_isSome : ∀ L m d auth n, (mintTo L m d auth n).isSome ↔ L.MintOk m d auth n
  burn_isSome : ∀ L s m auth n, (burn L s m auth n).isSome ↔ L.BurnOk s m auth n
  transfer_evolves : ∀ {L s d auth n L'}, transfer L s d auth n = some L' →
    L.Evolves L' (Pi.single s n.toNat) (Pi.single d n.toNat) 0 0
  mintTo_evolves : ∀ {L m d auth n L'}, mintTo L m d auth n = some L' →
    L.Evolves L' 0 (Pi.single d n.toNat) 0 (Pi.single m n.toNat)
  burn_evolves : ∀ {L s m auth n L'}, burn L s m auth n = some L' →
    L.Evolves L' (Pi.single s n.toNat) 0 (Pi.single m n.toNat) 0
  /-- Minting touches no allowance, -/
  mintTo_allowance : ∀ {L m d auth n L'}, mintTo L m d auth n = some L' → ∀ k,
    (L'.account k).map (·.allowance) = (L.account k).map (·.allowance)
  /-- and burning that of the burned account only. -/
  burn_allowance : ∀ {L s m auth n L'}, burn L s m auth n = some L' → ∀ k,
    (L'.account k).map (·.allowance) =
      (L.account k).map fun a => (if k = s then a.spend auth n else a).allowance

namespace TokenProgram

open Ledger

variable {K : Type} [DecidableEq K] [TokenProgram K] {L L' : Ledger K} {n : UInt64}

theorem transfer_ok {s d auth : K} (h : transfer L s d auth n = some L') :
    L.TransferOk s d auth n :=
  (transfer_isSome ..).mp (by simp [h])

theorem mintTo_ok {m d auth : K} (h : mintTo L m d auth n = some L') :
    L.MintOk m d auth n :=
  (mintTo_isSome ..).mp (by simp [h])

theorem burn_ok {s m auth : K} (h : burn L s m auth n = some L') :
    L.BurnOk s m auth n :=
  (burn_isSome ..).mp (by simp [h])

theorem burn_amount {s m auth : K} (h : burn L s m auth n = some L') (k : K) :
    L'.amount k + (if k = s then n.toNat else 0) = L.amount k := by
  have hk := (burn_evolves h).amount k
  rw [Pi.single_apply, Pi.zero_apply, Nat.add_zero] at hk
  exact hk

theorem burn_supply {s m auth : K} (h : burn L s m auth n = some L') (k : K) :
    L'.supply k + (if k = m then n.toNat else 0) = L.supply k := by
  have hk := (burn_evolves h).supply k
  rw [Pi.single_apply, Pi.zero_apply, Nat.add_zero] at hk
  exact hk

theorem mintTo_amount {m d auth : K} (h : mintTo L m d auth n = some L') (k : K) :
    L'.amount k = L.amount k + (if k = d then n.toNat else 0) := by
  have hk := (mintTo_evolves h).amount k
  rw [Pi.single_apply, Pi.zero_apply, Nat.add_zero] at hk
  exact hk

theorem mintTo_supply {m d auth : K} (h : mintTo L m d auth n = some L') (k : K) :
    L'.supply k = L.supply k + (if k = m then n.toNat else 0) := by
  have hk := (mintTo_evolves h).supply k
  rw [Pi.single_apply, Pi.zero_apply, Nat.add_zero] at hk
  exact hk

/-- What may be spent from an account after a burn, -/
theorem allowance_after_burn {k s m auth : K} {a a' : TokenAccount K}
    (h : burn L s m auth n = some L') (ha : L.account k = some a) (ha' : L'.account k = some a') :
    a'.allowance = (if k = s then a.spend auth n else a).allowance := by
  have hw := burn_allowance h k
  rw [ha, ha', Option.map_some, Option.map_some, Option.some.injEq] at hw
  exact hw

/-- and after a mint. -/
theorem allowance_after_mint {k m d auth : K} {a a' : TokenAccount K}
    (h : mintTo L m d auth n = some L') (ha : L.account k = some a) (ha' : L'.account k = some a') :
    a'.allowance = a.allowance := by
  have hw := mintTo_allowance h k
  rw [ha, ha', Option.map_some, Option.map_some, Option.some.injEq] at hw
  exact hw

/-- What was just minted to an account can be burned by who may debit it. -/
theorem remint_burn {m d auth user : K} {a : TokenAccount K}
    (h : mintTo L m d auth n = some L') (ha : L.account d = some a) (hd : a.CanDebit user n) :
    ∃ L'', burn L' d m user n = some L'' := by
  obtain ⟨M, a₀, hM, ha₀, hMp, hap, ham, haf, -⟩ := mintTo_ok h
  cases ha.symm.trans ha₀
  obtain ⟨a', ha', hs⟩ := (mintTo_evolves h).account ha
  obtain ⟨M', hM', hsM⟩ := (mintTo_evolves h).mint hM
  have hamount := mintTo_amount h d
  rw [if_pos rfl, amount_of_account ha', amount_of_account ha] at hamount
  have hsupply := mintTo_supply h m
  rw [if_pos rfl, supply_of_mint hM', supply_of_mint hM] at hsupply
  have hdebit : a'.CanDebit user n :=
    (TokenAccount.canDebit_congr hs.owner (allowance_after_mint h ha ha')).mpr hd
  exact Option.isSome_iff_exists.mp ((burn_isSome ..).mpr ⟨a', M', ha', hM', hs.program.trans hap,
    hsM.program.trans hMp, hs.mint.trans ham, hs.frozen.trans haf,
    UInt64.le_iff_toNat_le.mpr (by omega), hdebit, UInt64.le_iff_toNat_le.mpr (by omega)⟩)

/-- Tokens of one mint burned and as many of another minted: whoever may spend from the
account that received them can burn them again. -/
theorem unmint_isSome {L'' : Ledger K} {src dst m m' auth vault user : K}
    (hb : burn L src m auth n = some L') (hm : mintTo L' m' dst vault n = some L'')
    (hne : m' ≠ m)
    (hspend : ∀ acc, L.account dst = some acc → acc.CanDebit user n) :
    ∃ L₃, burn L'' dst m' user n = some L₃ := by
  obtain ⟨c, -, hc, -, -, -, hcm, -⟩ := burn_ok hb
  obtain ⟨M, t, -, ht, -, -, htm, -⟩ := mintTo_ok hm
  have hdst : dst ≠ src := by
    rintro rfl
    obtain ⟨c', hc', hs⟩ := (burn_evolves hb).account hc
    cases ht.symm.trans hc'
    exact hne (htm.symm.trans (hs.mint.trans hcm))
  obtain ⟨acc, hacc, hs⟩ := (burn_evolves hb).account_back ht
  have hallow := allowance_after_burn hb hacc ht
  rw [if_neg hdst] at hallow
  exact remint_burn hm ht ((TokenAccount.canDebit_congr hs.owner hallow).mpr (hspend acc hacc))

/-- Tokens burned at one time can be minted again at another, by who may mint them, if in
between at least as many more left the account and the supply as entered. -/
theorem remint_ok {src m auth vault : K} {L'' : Ledger K} {d c b i : K → Nat}
    (hb : burn L src m auth n = some L'') (he : L.Evolves L' d c b i)
    (hauth : ∃ M, L.mint m = some M ∧ M.mintAuthority = some vault)
    (hd : c src + n.toNat ≤ d src) (hs : i m + n.toNat ≤ b m) : L'.MintOk m src vault n := by
  obtain ⟨a, M, ha, hM, hap, hMp, ham, haf, -⟩ := burn_ok hb
  obtain ⟨a', ha', hsa⟩ := he.account ha
  obtain ⟨M', hM', hsM⟩ := he.mint hM
  obtain ⟨M₀, hM₀, hM₀auth⟩ := hauth
  cases hM.symm.trans hM₀
  have hamount := he.amount src
  rw [amount_of_account ha', amount_of_account ha] at hamount
  have hsupply := he.supply m
  rw [supply_of_mint hM', supply_of_mint hM] at hsupply
  have ha64 := a.amount.toNat_lt
  have hM64 := M.supply.toNat_lt
  exact ⟨M', a', hM', ha', hsM.program.trans hMp, hsa.program.trans hap, hsa.mint.trans ham,
    hsa.frozen.trans haf, hsM.mintAuthority.trans hM₀auth, by omega, by omega⟩

end TokenProgram

/-! ## What others can have the token program do -/

namespace Ledger

variable {K : Type}

/-- Nothing owned by `P` was taken, nothing `P` issues was inflated.  Accounts are
protected as long as they carry no delegate; a mint is as long as every authority
it may have is in `P`. -/
structure Kept (P : K → Prop) (L L' : Ledger K) : Prop where
  account : ∀ {k a}, L.account k = some a → P a.owner → a.delegate = none →
    ∃ a', L'.account k = some a' ∧ a.SameHolding a' ∧ a.amount.toNat ≤ a'.amount.toNat
  mint : ∀ {k M}, L.mint k = some M → (∀ auth, M.mintAuthority = some auth → P auth) →
    ∃ M', L'.mint k = some M' ∧ M.SameIssuer M' ∧ M'.supply.toNat ≤ M.supply.toNat

theorem Kept.refl (P : K → Prop) (L : Ledger K) : Kept P L L where
  account h _ _ := ⟨_, h, ⟨rfl, rfl, rfl, rfl, .inl rfl⟩, Nat.le_refl _⟩
  mint h _ := ⟨_, h, ⟨rfl, rfl⟩, Nat.le_refl _⟩

theorem Evolves.kept {P : K → Prop} {L L' : Ledger K} {d c b m : K → Nat}
    (h : Evolves L L' d c b m)
    (hd : ∀ {k a}, L.account k = some a → P a.owner → a.delegate = none → d k ≤ c k)
    (hm : ∀ {k M}, L.mint k = some M → (∀ auth, M.mintAuthority = some auth → P auth) →
      m k ≤ b k) : Kept P L L' where
  account {k a} ha hP hdel := by
    obtain ⟨a', ha', hs⟩ := h.account ha
    have hle := hd ha hP hdel
    have hbal := h.amount k
    rw [amount_of_account ha, amount_of_account ha'] at hbal
    exact ⟨a', ha', hs, by omega⟩
  mint {k M} hM hP := by
    obtain ⟨M', hM', hs⟩ := h.mint hM
    have hle := hm hM hP
    have hsup := h.supply k
    rw [supply_of_mint hM, supply_of_mint hM'] at hsup
    exact ⟨M', hM', hs, by omega⟩

end Ledger

section Kept

open Ledger TokenProgram

variable {K : Type} [DecidableEq K] {P : K → Prop} {L L' : Ledger K} {n : UInt64}

/-- An account owned by `P` and not delegated is debited only by `P`. -/
theorem TokenAccount.CanDebit.of_owner {a : TokenAccount K} {auth : K}
    (h : a.CanDebit auth n) (hP : P a.owner) (hdel : a.delegate = none) : P auth := by
  unfold CanDebit at h
  rw [if_neg (by simp [hdel])] at h
  exact h ▸ hP

variable [TokenProgram K]

theorem Ledger.transfer_kept {s d auth : K} (h : transfer L s d auth n = some L')
    (hP : ¬ P auth) : Kept P L L' := by
  obtain ⟨a, b, ha, hb, -, -, -, -, -, -, hdeb, -⟩ := transfer_ok h
  refine (transfer_evolves h).kept ?_ (fun _ _ => Nat.le_refl _)
  intro k a' ha' ho hdel
  by_cases hk : k = s
  · subst hk
    cases ha.symm.trans ha'
    exact absurd (hdeb.of_owner ho hdel) hP
  · simp [hk]

theorem Ledger.mintTo_kept {m d auth : K} (h : mintTo L m d auth n = some L')
    (hP : ¬ P auth) : Kept P L L' := by
  obtain ⟨M, b, hM, -, -, -, -, -, hauth, -, -⟩ := mintTo_ok h
  refine (mintTo_evolves h).kept (fun _ _ _ => Nat.zero_le _) ?_
  intro k M' hM' hall
  by_cases hk : k = m
  · subst hk
    cases hM.symm.trans hM'
    exact absurd (hall _ hauth) hP
  · simp [hk]

theorem Ledger.burn_kept {s m auth : K} (h : burn L s m auth n = some L')
    (hP : ¬ P auth) : Kept P L L' := by
  obtain ⟨a, M, ha, -, -, -, -, -, -, hdeb, -⟩ := burn_ok h
  refine (burn_evolves h).kept ?_ (fun _ _ => Nat.zero_le _)
  intro k a' ha' ho hdel
  by_cases hk : k = s
  · subst hk
    cases ha.symm.trans ha'
    exact absurd (hdeb.of_owner ho hdel) hP
  · simp [hk]

end Kept
