/-
# `Oragami.Lib.Anchor` — how an Anchor instruction fails, and how to read one that did not

An instruction is a computation in `Except (Failure ε)`: account constraints
first, then the handler, the first failure ending both.  `ε` is the program's
own error enumeration.  A failed instruction returns no state, as a failed
transaction changes none.

The lemmas read a computation from its result: an instruction that returned
passed every check, one that failed did so at some check.  Proofs about
instructions rewrite with them and never unfold the monad.
-/
import Oragami.Lib.Address
import Oragami.Lib.Checked
import Oragami.Lib.Ledger

/-- Failures of account validation. -/
inductive AnchorError where
  | accountNotInitialized
  | accountOwnedByWrongProgram
  | accountAlreadyInUse
  | constraintMut
  | constraintSeeds
  | constraintAddress
  | constraintHasOne
  | constraintClose
  | constraintDuplicateMutableAccount
  | invalidProgramId
  | accountNotEnoughKeys
  | accountNotSigner
  | instructionDidNotDeserialize
  | accountDidNotDeserialize
  /-- The runtime's: lamports went to an account passed as read-only. -/
  | readonlyLamportChange
deriving DecidableEq

/-- Why an instruction failed: an error of its own, a violated account constraint,
a call the token program refused, or a panic (arithmetic with overflow checks on). -/
inductive Failure (ε : Type) where
  | code (e : ε)
  | anchor (e : AnchorError)
  | token
  | panic
deriving DecidableEq

namespace Anchor

variable {ε α β : Type}

/-- Go on only if `c` holds. -/
def ensure (c : Prop) [Decidable c] (e : Failure ε) : Except (Failure ε) Unit :=
  if c then .ok () else .error e

/-- `require!`: the handler's own checks. -/
def require (c : Prop) [Decidable c] (e : ε) : Except (Failure ε) Unit :=
  ensure c (.code e)

/-- `ok_or`. -/
def orFail (o : Option α) (e : Failure ε) : Except (Failure ε) α :=
  match o with
  | some a => .ok a
  | none => .error e

/-- A call into the token program. -/
def cpi (o : Option α) : Except (Failure ε) α := orFail o .token

/-! ## Reading a result -/

theorem bind_eq_ok {x : Except ε α} {f : α → Except ε β} {b : β} :
    (x >>= f) = .ok b ↔ ∃ a, x = .ok a ∧ f a = .ok b := by
  cases x with
  | ok a => simp [bind, Except.bind]
  | error e => simp [bind, Except.bind]

theorem bind_eq_error {x : Except ε α} {f : α → Except ε β} {e : ε} :
    (x >>= f) = .error e ↔ x = .error e ∨ ∃ a, x = .ok a ∧ f a = .error e := by
  cases x with
  | ok a => simp [bind, Except.bind]
  | error e => simp [bind, Except.bind]

theorem pure_eq_ok {a b : α} : (pure a : Except ε α) = .ok b ↔ a = b := by
  simp [pure, Except.pure]

theorem pure_ne_error {a : α} {e : ε} : (pure a : Except ε α) ≠ .error e := by
  simp [pure, Except.pure]

theorem ensure_eq_ok {c : Prop} [Decidable c] {e : Failure ε} {u : Unit} :
    ensure c e = .ok u ↔ c := by
  unfold ensure
  split <;> simp_all

theorem ensure_eq_error {c : Prop} [Decidable c] {e e' : Failure ε} :
    ensure c e = .error e' ↔ ¬ c ∧ e = e' := by
  unfold ensure
  split <;> simp_all

theorem require_eq_ok {c : Prop} [Decidable c] {e : ε} {u : Unit} :
    require c e = .ok u ↔ c :=
  ensure_eq_ok

theorem require_eq_error {c : Prop} [Decidable c] {e : ε} {e' : Failure ε} :
    require c e = .error e' ↔ ¬ c ∧ .code e = e' :=
  ensure_eq_error

theorem orFail_eq_ok {o : Option α} {e : Failure ε} {a : α} :
    orFail o e = .ok a ↔ o = some a := by
  cases o <;> simp [orFail]

theorem orFail_eq_error {o : Option α} {e e' : Failure ε} :
    orFail o e = .error e' ↔ o = none ∧ e = e' := by
  cases o <;> simp [orFail]

theorem cpi_eq_ok {o : Option α} {a : α} : cpi (ε := ε) o = .ok a ↔ o = some a :=
  orFail_eq_ok

theorem cpi_eq_error {o : Option α} {e : Failure ε} :
    cpi o = .error e ↔ o = none ∧ .token = e :=
  orFail_eq_error

/-- A computation seen to succeed has a result. -/
theorem ok_of_isOk {x : Except ε α} (h : x.isOk = true) : ∃ a, x = .ok a := by
  cases x with
  | ok a => exact ⟨a, rfl⟩
  | error e => cases h

/-! ## Checked prices -/

section Prices

variable {x y z q : UInt64} {e e' f : Failure ε}

/-- A checked `x * y / z` is that quotient, rounded down, -/
theorem mulDiv_eq_ok :
    (orFail (Checked.mul x y) e >>= fun p => orFail (Checked.div p z) e') = .ok q ↔
      x.toNat * y.toNat < 2 ^ 64 ∧ z.toNat ≠ 0 ∧ q.toNat = x.toNat * y.toNat / z.toNat := by
  simp only [bind_eq_ok, orFail_eq_ok, Checked.div_eq_some]
  constructor
  · rintro ⟨p, hp, hz, hq⟩
    have hlt := Checked.lt_of_mul hp
    rw [Checked.mul_eq_some] at hp
    exact ⟨hlt, hz, hp ▸ hq⟩
  · rintro ⟨hlt, hz, hq⟩
    obtain ⟨p, hp⟩ := Checked.mul_of_lt hlt
    exact ⟨p, hp, hz, by rw [Checked.mul_eq_some.mp hp]; exact hq⟩

theorem exists_mulDiv (hlt : x.toNat * y.toNat < 2 ^ 64) (hz : z.toNat ≠ 0) :
    ∃ q, (orFail (Checked.mul x y) e >>= fun p => orFail (Checked.div p z) e') = .ok q := by
  have hq : x.toNat * y.toNat / z.toNat < 2 ^ 64 := Nat.lt_of_le_of_lt (Nat.div_le_self ..) hlt
  exact ⟨_, mulDiv_eq_ok.mpr ⟨hlt, hz, UInt64.toNat_ofNat_of_lt' hq⟩⟩

/-- and where `z` is not zero it fails only on overflow of the product. -/
theorem mulDiv_eq_error (hz : z ≠ 0) :
    (orFail (Checked.mul x y) e >>= fun p => orFail (Checked.div p z) e') = .error f ↔
      2 ^ 64 ≤ x.toNat * y.toNat ∧ e = f := by
  simp only [bind_eq_error, orFail_eq_error, orFail_eq_ok, Checked.mul_eq_none,
    Checked.div_eq_none]
  constructor
  · rintro (h | ⟨_, _, hzero, _⟩)
    · exact h
    · exact absurd hzero hz
  · exact .inl

end Prices

/-! ## Accounts by address -/

section Store

variable {K : Type} [DecidableEq K] {m : K → Option α} {j k : K} {a b : α}

/-- An account found after a write is the one written, or was there before. -/
theorem update_some (h : Function.update m j (some a) k = some b) :
    (k = j ∧ b = a) ∨ (k ≠ j ∧ m k = some b) := by
  by_cases hk : k = j
  · rw [hk, Function.update_self] at h
    exact .inl ⟨hk, (Option.some.inj h).symm⟩
  · rw [Function.update_of_ne hk] at h
    exact .inr ⟨hk, h⟩

theorem update_none (h : Function.update m j (some a) k = none) : k ≠ j ∧ m k = none := by
  by_cases hk : k = j
  · rw [hk, Function.update_self] at h
    cases h
  · rw [Function.update_of_ne hk] at h
    exact ⟨hk, h⟩

end Store

/-! ## Account validation -/

section Accounts

variable {K : Type}

/-- `Account<'info, Mint>`: an initialised mint of the legacy token program. -/
def loadMint (L : Ledger K) (k : K) : Except (Failure ε) (Mint K) := do
  let m ← orFail (L.mint k) (.anchor .accountNotInitialized)
  ensure (m.program = .token) (.anchor .accountOwnedByWrongProgram)
  pure m

/-- `Account<'info, TokenAccount>`: an initialised account of the legacy token program. -/
def loadTokenAccount (L : Ledger K) (k : K) : Except (Failure ε) (TokenAccount K) := do
  let a ← orFail (L.account k) (.anchor .accountNotInitialized)
  ensure (a.program = .token) (.anchor .accountOwnedByWrongProgram)
  pure a

/-- An optional account, checked when it is passed. -/
def optional (load : K → Except (Failure ε) α) : Option K → Except (Failure ε) (Option α)
  | none => pure none
  | some k => do
      let a ← load k
      pure (some a)

theorem optional_eq_ok {load : K → Except (Failure ε) α} {k : Option K} {o : Option α} :
    optional load k = .ok o ↔
      (k = none ∧ o = none) ∨ ∃ k' a, k = some k' ∧ o = some a ∧ load k' = .ok a := by
  cases k with
  | none =>
      constructor
      · intro h
        exact .inl ⟨rfl, (pure_eq_ok.mp h).symm⟩
      · rintro (⟨-, rfl⟩ | ⟨k', a, hk, -, -⟩)
        · rfl
        · cases hk
  | some k =>
      constructor
      · intro h
        obtain ⟨a, ha, ho⟩ := bind_eq_ok.mp h
        exact .inr ⟨k, a, rfl, (pure_eq_ok.mp ho).symm, ha⟩
      · rintro (⟨hk, -⟩ | ⟨k', a, hk, rfl, ha⟩)
        · cases hk
        · cases hk
          exact bind_eq_ok.mpr ⟨a, ha, rfl⟩

theorem optional_eq_error {load : K → Except (Failure ε) α} {k : Option K} {e : Failure ε} :
    optional load k = .error e ↔ ∃ k', k = some k' ∧ load k' = .error e := by
  cases k with
  | none => simp [optional, pure_ne_error]
  | some k =>
      constructor
      · intro h
        rcases bind_eq_error.mp h with he | ⟨_, _, hp⟩
        · exact ⟨k, rfl, he⟩
        · exact absurd hp pure_ne_error
      · rintro ⟨k', hk, he⟩
        cases hk
        exact bind_eq_error.mpr (.inl he)

variable {L : Ledger K} {k k' : K}

theorem loadMint_eq_ok {m : Mint K} :
    loadMint (ε := ε) L k = .ok m ↔ L.mint k = some m ∧ m.program = .token := by
  simp only [loadMint, bind_eq_ok, orFail_eq_ok, ensure_eq_ok, pure_eq_ok]
  constructor
  · rintro ⟨m', hm, _, hp, rfl⟩
    exact ⟨hm, hp⟩
  · rintro ⟨hm, hp⟩
    exact ⟨m, hm, (), hp, rfl⟩

theorem loadTokenAccount_eq_ok {a : TokenAccount K} :
    loadTokenAccount (ε := ε) L k = .ok a ↔ L.account k = some a ∧ a.program = .token := by
  simp only [loadTokenAccount, bind_eq_ok, orFail_eq_ok, ensure_eq_ok, pure_eq_ok]
  constructor
  · rintro ⟨a', ha, _, hp, rfl⟩
    exact ⟨ha, hp⟩
  · rintro ⟨ha, hp⟩
    exact ⟨a, ha, (), hp, rfl⟩

/-- Loading an account never reports an error of the program's own. -/
theorem loadMint_ne_code {e : ε} : loadMint L k ≠ .error (.code e) := by
  simp only [loadMint, bind_eq_error, orFail_eq_error, ensure_eq_error, pure_ne_error,
    reduceCtorEq, and_false, exists_false, or_self, not_false_eq_true, ne_eq]

theorem loadTokenAccount_ne_code {e : ε} : loadTokenAccount L k ≠ .error (.code e) := by
  simp only [loadTokenAccount, bind_eq_error, orFail_eq_error, ensure_eq_error, pure_ne_error,
    reduceCtorEq, and_false, exists_false, or_self, not_false_eq_true, ne_eq]

variable [DecidableEq K]

/-- `seeds = …, bump`: the account passed is the one derived. -/
def seeds (k derived : K) : Except (Failure ε) Unit :=
  ensure (k = derived) (.anchor .constraintSeeds)

/-- `address = …`. -/
def address (k expected : K) : Except (Failure ε) Unit :=
  ensure (k = expected) (.anchor .constraintAddress)

/-- `init`: nothing lives at the address yet. -/
def init (free : Prop) [Decidable free] : Except (Failure ε) Unit :=
  ensure free (.anchor .accountAlreadyInUse)

/-- No account that is written back is passed twice.  Anchor 1 asks this of every context, for its
accounts that are `mut` and neither `init`, a `Signer` nor unchecked. -/
def distinct (keys : List K) : Except (Failure ε) Unit :=
  ensure keys.Nodup (.anchor .constraintDuplicateMutableAccount)

/-- `Program<'info, Token>`. -/
def tokenProgram [TokenProgram K] (k : K) : Except (Failure ε) Unit :=
  ensure (k = TokenProgram.id) (.anchor .invalidProgramId)

theorem seeds_eq_ok {u : Unit} : seeds (ε := ε) k k' = .ok u ↔ k = k' := ensure_eq_ok

theorem address_eq_ok {u : Unit} : address (ε := ε) k k' = .ok u ↔ k = k' := ensure_eq_ok

theorem init_eq_ok {c : Prop} [Decidable c] {u : Unit} : init (ε := ε) c = .ok u ↔ c :=
  ensure_eq_ok

theorem distinct_eq_ok {keys : List K} {u : Unit} :
    distinct (ε := ε) keys = .ok u ↔ keys.Nodup :=
  ensure_eq_ok

theorem tokenProgram_eq_ok [TokenProgram K] {u : Unit} :
    tokenProgram (ε := ε) k = .ok u ↔ k = TokenProgram.id :=
  ensure_eq_ok

theorem seeds_ne_code {e : ε} : seeds k k' ≠ .error (.code e) := by
  simp [seeds, ensure_eq_error]

theorem address_ne_code {e : ε} : address k k' ≠ .error (.code e) := by
  simp [address, ensure_eq_error]

theorem distinct_ne_code {keys : List K} {e : ε} : distinct keys ≠ .error (.code e) := by
  simp [distinct, ensure_eq_error]

theorem tokenProgram_ne_code [TokenProgram K] {e : ε} :
    tokenProgram k ≠ .error (.code e) := by
  simp [tokenProgram, ensure_eq_error]

end Accounts

end Anchor
