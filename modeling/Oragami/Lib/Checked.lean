/-
# `Oragami.Lib.Checked` — checked machine arithmetic, read as arithmetic

`u64` and `i64` operations that report overflow (`checked_*`) or clamp
(`saturating_*`).  Every lemma reads an operation back as a fact about the
natural numbers or the integers, so that a proof meets the machine width once,
here, and continues with `omega`.
-/
import Mathlib.Algebra.Group.Int.Defs
import Mathlib.Algebra.GroupWithZero.Nat
import Mathlib.Order.Basic
import Mathlib.Tactic.Common

namespace Checked

/-! ## `u64` -/

/-- `u64::checked_add`. -/
def add (a b : UInt64) : Option UInt64 :=
  if a.toNat + b.toNat < 2 ^ 64 then some (a + b) else none

/-- `u64::checked_sub`. -/
def sub (a b : UInt64) : Option UInt64 :=
  if b ≤ a then some (a - b) else none

/-- `u64::checked_mul`. -/
def mul (a b : UInt64) : Option UInt64 :=
  if a.toNat * b.toNat < 2 ^ 64 then some (a * b) else none

/-- `u64::checked_div`. -/
def div (a b : UInt64) : Option UInt64 :=
  if b = 0 then none else some (a / b)

/-- `u64::saturating_sub`. -/
def satSub (a b : UInt64) : UInt64 :=
  if b ≤ a then a - b else 0

/-- `u64::saturating_add`. -/
def satAdd (a b : UInt64) : UInt64 := (add a b).getD (UInt64.ofNat (2 ^ 64 - 1))

theorem eq_iff_toNat {a b : UInt64} : a = b ↔ a.toNat = b.toNat := UInt64.toNat_inj.symm

theorem add_eq_some {a b c : UInt64} :
    add a b = some c ↔ c.toNat = a.toNat + b.toNat := by
  have hc := c.toNat_lt
  unfold add
  split
  · next h =>
      rw [Option.some.injEq, eq_iff_toNat, UInt64.toNat_add, Nat.mod_eq_of_lt h]
      exact eq_comm
  · simp only [reduceCtorEq, false_iff]
    omega

theorem add_eq_none {a b : UInt64} : add a b = none ↔ 2 ^ 64 ≤ a.toNat + b.toNat := by
  unfold add
  split <;> simp <;> omega

theorem exists_add {a b : UInt64} : (∃ c, add a b = some c) ↔ a.toNat + b.toNat < 2 ^ 64 := by
  constructor
  · rintro ⟨c, hc⟩
    rw [← add_eq_some.mp hc]
    exact c.toNat_lt
  · intro hlt
    exact ⟨_, if_pos hlt⟩

theorem sub_eq_some {a b c : UInt64} :
    sub a b = some c ↔ c.toNat + b.toNat = a.toNat := by
  unfold sub
  split
  · next h =>
      have hle := UInt64.le_iff_toNat_le.mp h
      rw [Option.some.injEq, eq_iff_toNat, UInt64.toNat_sub_of_le a b h]
      omega
  · next h =>
      have hlt := UInt64.not_le.mp h
      rw [UInt64.lt_iff_toNat_lt] at hlt
      simp only [reduceCtorEq, false_iff]
      omega

theorem exists_sub {a b : UInt64} : (∃ c, sub a b = some c) ↔ b.toNat ≤ a.toNat := by
  constructor
  · rintro ⟨c, hc⟩
    rw [← sub_eq_some.mp hc]
    exact Nat.le_add_left _ _
  · intro hle
    exact ⟨_, if_pos (UInt64.le_iff_toNat_le.mpr hle)⟩

theorem sub_eq_none {a b : UInt64} : sub a b = none ↔ a.toNat < b.toNat := by
  unfold sub
  split
  · next h =>
      have hle := UInt64.le_iff_toNat_le.mp h
      simp only [reduceCtorEq, false_iff]
      omega
  · next h =>
      have hlt := UInt64.not_le.mp h
      simpa [UInt64.lt_iff_toNat_lt] using hlt

theorem mul_eq_some {a b c : UInt64} :
    mul a b = some c ↔ c.toNat = a.toNat * b.toNat := by
  have hc := c.toNat_lt
  unfold mul
  split
  · next h =>
      rw [Option.some.injEq, eq_iff_toNat, UInt64.toNat_mul, Nat.mod_eq_of_lt h]
      exact eq_comm
  · simp only [reduceCtorEq, false_iff]
    omega

theorem mul_eq_none {a b : UInt64} : mul a b = none ↔ 2 ^ 64 ≤ a.toNat * b.toNat := by
  unfold mul
  split <;> simp <;> omega

theorem lt_of_mul {a b c : UInt64} (h : mul a b = some c) : a.toNat * b.toNat < 2 ^ 64 := by
  have hc := c.toNat_lt
  rw [mul_eq_some] at h
  omega

theorem mul_of_lt {a b : UInt64} (h : a.toNat * b.toNat < 2 ^ 64) : ∃ c, mul a b = some c :=
  ⟨_, if_pos h⟩

theorem div_eq_some {a b c : UInt64} :
    div a b = some c ↔ b.toNat ≠ 0 ∧ c.toNat = a.toNat / b.toNat := by
  unfold div
  split
  · next h => simp [h]
  · next h =>
      have hb : b.toNat ≠ 0 := fun hz => h (eq_iff_toNat.mpr (by simpa using hz))
      rw [Option.some.injEq, eq_iff_toNat, UInt64.toNat_div]
      exact ⟨fun hq => ⟨hb, hq.symm⟩, fun hq => hq.2.symm⟩

theorem exists_div {b : UInt64} (hb : b ≠ 0) (a : UInt64) : ∃ c, div a b = some c :=
  ⟨_, if_neg hb⟩

theorem div_eq_none {a b : UInt64} : div a b = none ↔ b = 0 := by
  unfold div
  split <;> simp_all

@[simp] theorem toNat_satSub {a b : UInt64} :
    (satSub a b).toNat = a.toNat - b.toNat := by
  unfold satSub
  split
  · next h => exact UInt64.toNat_sub_of_le a b h
  · next h =>
      have hlt := UInt64.not_le.mp h
      rw [UInt64.lt_iff_toNat_lt] at hlt
      simp only [UInt64.toNat_zero]
      omega

theorem toNat_satAdd {a b : UInt64} :
    (satAdd a b).toNat = min (a.toNat + b.toNat) (2 ^ 64 - 1) := by
  unfold satAdd
  cases hsum : add a b with
  | some c =>
      have hlt := c.toNat_lt
      rw [add_eq_some] at hsum
      rw [Option.getD_some]
      omega
  | none =>
      rw [add_eq_none] at hsum
      rw [Option.getD_none, UInt64.toNat_ofNat_of_lt' (by decide)]
      omega

/-! ## `i64` -/

/-- The `i64` with integer value `z`, when there is one. -/
def ofInt (z : Int) : Option Int64 :=
  if -2 ^ 63 ≤ z ∧ z < 2 ^ 63 then some (Int64.ofInt z) else none

/-- `a + b` with overflow checks on: it panics where there is no result. -/
def addI (a b : Int64) : Option Int64 := ofInt (a.toInt + b.toInt)

/-- `a - b` with overflow checks on. -/
def subI (a b : Int64) : Option Int64 := ofInt (a.toInt - b.toInt)

/-- `a * b` with overflow checks on. -/
def mulI (a b : Int64) : Option Int64 := ofInt (a.toInt * b.toInt)

theorem ofInt_eq_some {z : Int} {c : Int64} : ofInt z = some c ↔ c.toInt = z := by
  have hlo := c.le_toInt
  have hhi := c.toInt_lt
  unfold ofInt
  split
  · next h =>
      have hz : (Int64.ofInt z).toInt = z := Int64.toInt_ofInt_of_le h.1 h.2
      rw [Option.some.injEq, ← Int64.toInt_inj, hz]
      exact eq_comm
  · next h =>
      simp only [reduceCtorEq, false_iff]
      rintro rfl
      exact h ⟨hlo, hhi⟩

/-- An integer in range has a machine word. -/
theorem exists_ofInt {z : Int} (hlo : -2 ^ 63 ≤ z) (hhi : z < 2 ^ 63) : ∃ c, ofInt z = some c :=
  ⟨_, if_pos ⟨hlo, hhi⟩⟩

theorem addI_eq_some {a b c : Int64} : addI a b = some c ↔ c.toInt = a.toInt + b.toInt :=
  ofInt_eq_some

theorem subI_eq_some {a b c : Int64} : subI a b = some c ↔ c.toInt = a.toInt - b.toInt :=
  ofInt_eq_some

theorem mulI_eq_some {a b c : Int64} : mulI a b = some c ↔ c.toInt = a.toInt * b.toInt :=
  ofInt_eq_some

/-! ## Casts between the two -/

theorem toNat_toUInt64 {a : Int64} (h : 0 ≤ a.toInt) : (a.toUInt64.toNat : Int) = a.toInt := by
  rw [Int64.toNat_toUInt64_of_le (Int64.le_iff_toInt_le.mpr h)]
  exact Int.toNat_of_nonneg h

theorem toInt_toInt64 {a : UInt64} (h : a.toNat < 2 ^ 63) : a.toInt64.toInt = a.toNat := by
  have hmsb : a.toInt64.toInt = (a.toBitVec).toInt := rfl
  rw [hmsb, BitVec.toInt_eq_toNat_of_lt]
  · rfl
  · show 2 * a.toNat < 2 ^ 64
    omega

end Checked
