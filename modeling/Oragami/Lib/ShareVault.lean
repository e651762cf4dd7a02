/-
# `Oragami.Lib.ShareVault` — a vault that sells and buys back shares at a quoted price

What a share vault is for, without tokens, accounts or machine words: it holds
assets, records deposits, and owes each share a price quoted in `unit`-ths of an
asset.  Shares are sold for at least their price and bought back for at most
their price; both roundings go the vault's way.  Anyone may give it assets.  The
price is somebody else's to set.

Two numbers measure what the vault has beyond what its shares are worth, in
`unit`-ths: `surplus`, from what it holds, and `recorded`, from what it has on
its books.  Neither falls except where the price rises, and then by exactly the
rise times the shares outstanding (`lift`).  So over a run each falls by at most
the lifts of the run (`Run.surplus`, `Run.recorded`), and in a run where the
price never rises neither falls at all.

The books may forget deposits (`deposits` is truncated at zero when more is paid
out than was recorded); `recorded` survives that.
-/
import Mathlib.Algebra.BigOperators.Group.List.Basic
import Mathlib.Tactic.Linarith
import Mathlib.Tactic.Ring
import Oragami.Lib.Run

namespace ShareVault

/-- The books of a vault. -/
structure Book where
  /-- Assets held. -/
  custody : Nat
  /-- Deposits recorded and not yet paid out. -/
  deposits : Nat
  /-- Shares outstanding. -/
  shares : Nat
  /-- Price of a share, in `unit`-ths of an asset. -/
  price : Nat

/-- One movement of a vault. -/
inductive Step (unit : Nat) (b : Book) : Book → Prop
  /-- `paid` assets come in for `sold` shares, worth no more than that. -/
  | enter {paid sold : Nat} : sold * b.price ≤ paid * unit →
      Step unit b ⟨b.custody + paid, b.deposits + paid, b.shares + sold, b.price⟩
  /-- `back` shares are bought for `owed`, no more than they are worth, of which `out`
  leaves the vault: all of it, or nothing when the vault pays itself. -/
  | exit {back owed out : Nat} : owed * unit ≤ back * b.price → back ≤ b.shares →
      out ≤ owed → owed ≤ b.custody →
      Step unit b ⟨b.custody - out, b.deposits - owed, b.shares - back, b.price⟩
  | gift {extra : Nat} : Step unit b { b with custody := b.custody + extra }
  | reprice {price : Nat} : Step unit b { b with price }

/-- Nothing happened. -/
theorem Step.idle {unit : Nat} (b : Book) : Step unit b b := @Step.gift unit b 0

/-- Assets held beyond what the shares are worth, in `unit`-ths. -/
def surplus (unit : Nat) (b : Book) : Int := unit * b.custody - b.price * b.shares

/-- Deposits recorded beyond what the shares are worth, in `unit`-ths. -/
def recorded (unit : Nat) (b : Book) : Int := unit * b.deposits - b.price * b.shares

/-- What a rise of the price adds to what the shares are worth. -/
def lift (b b' : Book) : Nat := (b'.price - b.price) * b.shares

theorem lift_of_le {b b' : Book} (h : b'.price ≤ b.price) : lift b b' = 0 := by
  simp [lift, Nat.sub_eq_zero_of_le h]

section OneStep

variable {unit : Nat} {b b' : Book}

/-- Recorded deposits stay covered by what is held. -/
theorem Step.covered (h : Step unit b b') (hb : b.deposits ≤ b.custody) :
    b'.deposits ≤ b'.custody := by
  cases h with
  | enter _ => exact Nat.add_le_add_right hb _
  | exit _ _ hout _ =>
      show b.deposits - _ ≤ b.custody - _
      omega
  | gift => exact hb.trans (Nat.le_add_right _ _)
  | reprice => exact hb

theorem Step.surplus (h : Step unit b b') :
    surplus unit b ≤ surplus unit b' + lift b b' := by
  cases h with
  | @enter paid sold hw =>
      have hw' : (sold * b.price : Int) ≤ paid * unit := by exact_mod_cast hw
      simp only [ShareVault.surplus, lift, Nat.sub_self, Nat.zero_mul]
      push_cast
      linarith
  | @exit back owed out hw hback hout hheld =>
      have hw' : (owed * unit : Int) ≤ back * b.price := by exact_mod_cast hw
      have hout' : (out * unit : Int) ≤ owed * unit := by
        exact_mod_cast Nat.mul_le_mul_right unit hout
      simp only [ShareVault.surplus, lift, Nat.sub_self, Nat.zero_mul]
      rw [Nat.cast_sub (hout.trans hheld), Nat.cast_sub hback]
      push_cast
      linarith
  | @gift extra =>
      have hx : (0 : Int) ≤ unit * extra := by positivity
      simp only [ShareVault.surplus, lift, Nat.sub_self, Nat.zero_mul]
      push_cast
      linarith
  | @reprice price =>
      have hle : price ≤ (price - b.price) + b.price := by omega
      have hmul : (price * b.shares : Int) ≤ ((price - b.price : Nat) + b.price) * b.shares := by
        exact_mod_cast Nat.mul_le_mul_right b.shares hle
      simp only [ShareVault.surplus, lift]
      push_cast
      linarith

theorem Step.recorded (h : Step unit b b') :
    recorded unit b ≤ recorded unit b' + lift b b' := by
  cases h with
  | @enter paid sold hw =>
      have hw' : (sold * b.price : Int) ≤ paid * unit := by exact_mod_cast hw
      simp only [ShareVault.recorded, lift, Nat.sub_self, Nat.zero_mul]
      push_cast
      linarith
  | @exit back owed out hw hback hout hheld =>
      -- truncation only helps: the books never owe less than `deposits - owed`
      have htrunc : b.deposits ≤ (b.deposits - owed) + owed := by omega
      have hw' : (owed * unit : Int) ≤ back * b.price := by exact_mod_cast hw
      have hdep : (unit * b.deposits : Int) ≤ unit * ((b.deposits - owed : Nat) + owed) := by
        exact_mod_cast Nat.mul_le_mul_left unit htrunc
      simp only [ShareVault.recorded, lift, Nat.sub_self, Nat.zero_mul]
      rw [Nat.cast_sub hback]
      push_cast
      linarith
  | gift => simp [ShareVault.recorded, lift]
  | @reprice price =>
      have hle : price ≤ (price - b.price) + b.price := by omega
      have hmul : (price * b.shares : Int) ≤ ((price - b.price : Nat) + b.price) * b.shares := by
        exact_mod_cast Nat.mul_le_mul_right b.shares hle
      simp only [ShareVault.recorded, lift]
      push_cast
      linarith

end OneStep

/-! ## Runs -/

section Runs

open Lts

variable {unit : Nat} {ε : Type} {b₀ b : Book} {ts : List (Transition Book ε)}

/-- The steps of a vault, under any labels. -/
def Moves (unit : Nat) (b : Book) (_ : ε) (b' : Book) : Prop := Step unit b b'

/-- All the lifts of a run. -/
def lifts (ts : List (Transition Book ε)) : Nat := (ts.map fun t => lift t.pre t.post).sum

theorem lifts_snoc (t : Transition Book ε) : lifts (ts ++ [t]) = lifts ts + lift t.pre t.post := by
  simp [lifts]

/-- A measure no step lowers by more than its lift is lowered by no run by more than
its lifts. -/
theorem run_le_of_step {f : Book → Int}
    (hf : ∀ {b b'}, Step unit b b' → f b ≤ f b' + lift b b')
    (h : Run (Moves unit) b₀ ts b) : f b₀ ≤ f b + lifts ts := by
  induction h with
  | nil => simp [lifts]
  | @snoc ts s s' e _ hs ih =>
      have hstep := hf hs
      rw [lifts_snoc]
      push_cast
      linarith

theorem Run.surplus (h : Run (Moves unit) b₀ ts b) :
    surplus unit b₀ ≤ surplus unit b + lifts ts :=
  run_le_of_step Step.surplus h

theorem Run.recorded (h : Run (Moves unit) b₀ ts b) :
    recorded unit b₀ ≤ recorded unit b + lifts ts :=
  run_le_of_step Step.recorded h

theorem lifts_eq_zero (h : ∀ t ∈ ts, t.post.price ≤ t.pre.price) : lifts ts = 0 := by
  refine List.sum_eq_zero ?_
  intro n hn
  obtain ⟨t, ht, rfl⟩ := List.mem_map.mp hn
  exact lift_of_le (h t ht)

end Runs

/-! ## Buying back -/

/-- Shares bought back at a price the holding covers are covered, rounded down. -/
theorem payout_le {unit price shares held back : Nat}
    (hcover : price * shares ≤ unit * held) (hback : back ≤ shares) :
    back * price / unit ≤ held := by
  apply Nat.div_le_of_le_mul
  calc back * price ≤ shares * price := Nat.mul_le_mul_right _ hback
    _ = price * shares := Nat.mul_comm _ _
    _ ≤ unit * held := hcover

end ShareVault
