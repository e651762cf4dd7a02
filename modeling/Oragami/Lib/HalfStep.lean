/-
# `Oragami.Lib.HalfStep` — a value updated by at most half of itself

A value may be replaced by a positive one that differs from it by at most half of
it, rounded down.  From one this leaves nothing but one.  From anything larger a
step up by one and a step down by one are both possible, so every positive value
can be reached; only the largest value an update may start from sets a bound.
-/
import Mathlib.Data.Nat.Init
import Mathlib.Logic.Relation

namespace HalfStep

open Relation

/-- `m` is positive and differs from `n` by at most half of `n`. -/
def Near (n m : Nat) : Prop := 0 < m ∧ ((m : Int) - n).natAbs ≤ n / 2

instance (n m : Nat) : Decidable (Near n m) := inferInstanceAs (Decidable (_ ∧ _))

theorem near_iff {n m : Nat} : Near n m ↔ 0 < m ∧ n - n / 2 ≤ m ∧ m ≤ n + n / 2 := by
  unfold Near
  omega

theorem near_self {n : Nat} (h : 1 ≤ n) : Near n n := near_iff.mpr (by omega)

theorem near_up {n : Nat} (h : 2 ≤ n) : Near n (n + 1) := near_iff.mpr (by omega)

theorem near_down {n : Nat} (h : 1 ≤ n) : Near (n + 1) n := near_iff.mpr (by omega)

/-- From one there is no way but one. -/
theorem near_one {m : Nat} : Near 1 m ↔ m = 1 := by
  rw [near_iff]
  omega

section Reach

variable {α : Type} {R : α → α → Prop} {f : Nat → α} {limit : Nat}

/-- Values are climbed one at a time, -/
theorem climb (hR : ∀ {a b}, a ≤ limit → Near a b → R (f a) (f b)) {n t : Nat} (hn : 2 ≤ n)
    (hle : n ≤ t) (ht : t ≤ limit + 1) : ReflTransGen R (f n) (f t) := by
  induction t, hle using Nat.le_induction with
  | base => exact .refl
  | succ t hle ih => exact (ih (by omega)).tail (hR (by omega) (near_up (Nat.le_trans hn hle)))

/-- and descended one at a time. -/
theorem descend (hR : ∀ {a b}, a ≤ limit → Near a b → R (f a) (f b)) {n t : Nat} (ht : 1 ≤ t)
    (hle : t ≤ n) (hn : n ≤ limit) : ReflTransGen R (f n) (f t) := by
  induction n, hle using Nat.le_induction with
  | base => exact .refl
  | succ n hle ih => exact .head (hR hn (near_down (Nat.le_trans ht hle))) (ih (by omega))

/-- Where updates may start from any value up to `limit`, every positive one up to it is
reached from every other but one. -/
theorem reach (hR : ∀ {a b}, a ≤ limit → Near a b → R (f a) (f b)) {n t : Nat} (hn : 2 ≤ n)
    (hnl : n ≤ limit) (ht : 1 ≤ t) (htl : t ≤ limit) : ReflTransGen R (f n) (f t) := by
  rcases Nat.le_total n t with hle | hle
  · exact climb hR hn hle (by omega)
  · exact descend hR ht hle hnl

/-- What every step from a value leads back to is all it reaches. -/
theorem stuck {a b : α} (hstay : ∀ {x}, R a x → x = a) (h : ReflTransGen R a b) : b = a := by
  induction h with
  | refl => rfl
  | tail _ hstep ih => exact hstay (ih ▸ hstep)

end Reach

end HalfStep
