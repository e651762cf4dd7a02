/-
# `Oragami.Lib.Accrual` — what accrues by whole periods, collected at any time

An account accrues a fixed rate for every whole period since a mark.  Accruing
moves the mark by the periods it counted, so the part of a period left over
counts towards the next.  Collecting takes what is pending and sets the mark to
the present, which drops the time since it; with nothing pending it does
nothing.

Over a run nothing is counted twice and only collecting loses anything: the
total is the rate times the whole periods in the elapsed time less the time
dropped (`total_of_run`).
-/
import Mathlib.Algebra.BigOperators.Group.List.Basic
import Mathlib.Algebra.GroupWithZero.Nat
import Mathlib.Algebra.Ring.Int.Defs
import Oragami.Lib.Run

namespace Accrual

open Lts

/-- What is pending, and since when the periods not yet counted run. -/
structure Account where
  pending : Nat
  since : Int

inductive Event where
  | accrue (now : Int)
  | collect (now : Int)

def Event.now : Event → Int
  | accrue now => now
  | collect now => now

/-- The whole periods between two times, none where the second is not later. -/
def periods (period since now : Int) : Nat := ((now - since) / period).toNat

def Account.apply (period : Int) (rate : Nat) (x : Account) : Event → Account
  | .accrue now =>
      { pending := x.pending + rate * periods period x.since now
        since := x.since + period * periods period x.since now }
  | .collect now => if x.pending = 0 then x else ⟨0, now⟩

/-- The account as a transition system. -/
def Step (period : Int) (rate : Nat) (x : Account) (e : Event) (y : Account) : Prop :=
  y = x.apply period rate e

/-- What one event collects. -/
def Account.collects (x : Account) : Event → Nat
  | .accrue _ => 0
  | .collect _ => x.pending

/-- The time since the mark that one event drops. -/
def Account.drops (x : Account) : Event → Int
  | .accrue _ => 0
  | .collect now => if x.pending = 0 then 0 else now - x.since

def collected (ts : List (Transition Account Event)) : Nat :=
  (ts.map fun t => t.pre.collects t.label).sum

def dropped (ts : List (Transition Account Event)) : Int :=
  (ts.map fun t => t.pre.drops t.label).sum

section Periods

variable {period since now : Int}

/-- After counting, less than a period is left, and the mark has not passed the present. -/
theorem periods_spec (hp : 0 < period) (h : since ≤ now) :
    since + period * periods period since now ≤ now ∧
      now < since + period * periods period since now + period := by
  have hnonneg : 0 ≤ (now - since) / period := Int.ediv_nonneg (by omega) (by omega)
  have hdiv := Int.mul_ediv_add_emod (now - since) period
  have hmod := Int.emod_nonneg (now - since) (by omega : period ≠ 0)
  have hlt := Int.emod_lt_of_pos (now - since) hp
  unfold periods
  rw [Int.toNat_of_nonneg hnonneg]
  omega

theorem periods_of_le (hp : 0 < period) (h : now ≤ since) : periods period since now = 0 := by
  have hle : (now - since) / period ≤ 0 := by
    rw [← Int.zero_ediv period]
    exact Int.ediv_le_ediv hp (by omega)
  exact Int.toNat_of_nonpos hle

/-- The whole periods are the number that leaves less than one over. -/
theorem periods_unique (hp : 0 < period) {n : Nat} (hlo : since + period * n ≤ now)
    (hhi : now < since + period * n + period) : periods period since now = n := by
  have hn : (now - since) / period = n := by
    rw [Int.ediv_eq_iff_of_pos hp, Int.mul_comm]
    omega
  unfold periods
  rw [hn, Int.toNat_natCast]

end Periods

/-! ## One event -/

section Step

variable {period : Int} {rate : Nat} {x y : Account} {e : Event}

/-- An event counts some whole periods: what it collects and leaves pending grew by
their worth, and the mark by their length and the time dropped. -/
theorem step_counts (h : Step period rate x e y) :
    ∃ n : Nat, x.collects e + y.pending = x.pending + rate * n ∧
      y.since = x.since + period * n + x.drops e := by
  cases h
  cases e with
  | accrue now =>
      refine ⟨periods period x.since now, ?_, ?_⟩
      · simp only [Account.collects, Account.apply, Nat.zero_add]
      · simp only [Account.drops, Account.apply, Int.add_zero]
  | collect now =>
      refine ⟨0, ?_, ?_⟩
      · simp only [Account.collects, Account.apply]
        split <;> simp_all
      · simp only [Account.drops, Account.apply]
        split
        · simp
        · exact (by omega : now = x.since + period * 0 + (now - x.since))

/-- The mark does not pass the later of where it was and the present. -/
theorem step_since_le (hp : 0 < period) (h : Step period rate x e y) :
    y.since ≤ max x.since e.now := by
  cases h
  cases e with
  | accrue now =>
      simp only [Account.apply, Event.now]
      rcases Int.le_total x.since now with hle | hle
      · have hspec := periods_spec hp hle
        omega
      · rw [periods_of_le hp hle]
        omega
  | collect now =>
      simp only [Account.apply, Event.now]
      split
      · exact Int.le_max_left _ _
      · exact Int.le_max_right _ _

end Step

/-! ## Runs -/

section Run

variable {period : Int} {rate : Nat} {x y : Account} {ts : List (Transition Account Event)}
  {t : Transition Account Event}

@[simp] theorem collected_snoc : collected (ts ++ [t]) = collected ts + t.pre.collects t.label := by
  simp [collected]

@[simp] theorem dropped_snoc : dropped (ts ++ [t]) = dropped ts + t.pre.drops t.label := by
  simp [dropped]

/-- A run counts whole periods as its events do. -/
theorem run_counts (h : Run (Step period rate) x ts y) :
    ∃ n : Nat, collected ts + y.pending = x.pending + rate * n ∧
      y.since = x.since + period * n + dropped ts := by
  induction h with
  | nil => exact ⟨0, by simp [collected], by simp [dropped]⟩
  | snoc _ hs ih =>
      obtain ⟨n, hpending, hsince⟩ := ih
      obtain ⟨m, hpending', hsince'⟩ := step_counts hs
      refine ⟨n + m, ?_, ?_⟩
      · rw [collected_snoc, Nat.mul_add]
        dsimp only
        omega
      · rw [dropped_snoc, Int.natCast_add, Int.mul_add]
        dsimp only
        omega

/-- The mark stays at or before a time no event is after. -/
theorem run_since_le (hp : 0 < period) {T : Int} (hx : x.since ≤ T) (hts : ∀ t ∈ ts, t.label.now ≤ T)
    (h : Run (Step period rate) x ts y) : y.since ≤ T := by
  induction h with
  | nil => exact hx
  | snoc _ hs ih =>
      have hle := step_since_le hp hs
      have hbefore := ih fun t ht => hts t (List.mem_append_left _ ht)
      have hnow := hts _ (List.mem_append_right _ List.mem_cons_self)
      dsimp only at hnow
      omega

/-- What a run ending in an accrual collects and leaves pending: as much as had accrued
from a mark later by the time dropped. -/
theorem total_of_run (hp : 0 < period) {T : Int} (h : Run (Step period rate) x (ts ++ [t]) y)
    (hlast : t.label = .accrue T) (hts : ∀ t ∈ ts, t.label.now ≤ T) (hx : x.since ≤ T) :
    collected (ts ++ [t]) + y.pending =
      x.pending + rate * periods period (x.since + dropped (ts ++ [t])) T := by
  obtain ⟨n, hpending, hsince⟩ := run_counts h
  obtain ⟨hrun, hs, rfl⟩ := Run.snoc_iff.mp h
  have hspec := periods_spec hp (run_since_le hp hx hts hrun)
  have hpost : t.post.since = t.pre.since + period * periods period t.pre.since T := by
    rw [hs, hlast]
    rfl
  rw [hpending, periods_unique hp (n := n) (by omega) (by omega)]

/-- Nothing is lost exactly when nothing accrues, or the time dropped holds back no period. -/
theorem lossless_iff (hp : 0 < period) {T : Int} (h : Run (Step period rate) x (ts ++ [t]) y)
    (hlast : t.label = .accrue T) (hts : ∀ t ∈ ts, t.label.now ≤ T) (hx : x.since ≤ T) :
    collected (ts ++ [t]) + y.pending = x.pending + rate * periods period x.since T ↔
      rate = 0 ∨
        periods period (x.since + dropped (ts ++ [t])) T = periods period x.since T := by
  rw [total_of_run hp h hlast hts hx, Nat.add_left_cancel_iff]
  rcases Nat.eq_zero_or_pos rate with rfl | hrate
  · simp
  · rw [Nat.mul_left_cancel_iff hrate]
    constructor
    · exact .inr
    · rintro (hzero | hperiods)
      · exact absurd hzero (Nat.ne_of_gt hrate)
      · exact hperiods

end Run

end Accrual
