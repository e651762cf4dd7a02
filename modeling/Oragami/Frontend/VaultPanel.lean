/-
# `Oragami.Frontend.VaultPanel` — what the panel previews and what the program does

The panel reads an amount from text, turns it into millionths of a token, and shows
what a deposit or a redemption of it would bring, all in doubles.  The program takes
the same amount as a `u64` and divides integers.

Reading can lose a millionth and never adds one: the double nearest to a decimal may
lie below it, and the floor then takes the next integer down (`rawAmount_typed`).
The preview is what the program pays wherever the product it divides is below
`2 ^ 53`.  Above that a deposit can be shown one unit more than it buys, which is the
most the two ever differ by as long as the product is a double at all and the shares
are below `2 ^ 53`.

Amounts and NAVs are finite and not negative, and the NAV is not zero.
-/
import Oragami.Lib.Double
import Oragami.OragamiVault.Guards
import Oragami.OragamiVault.Scenario

namespace Frontend

open Double OragamiVault Anchor Addresses

/-! ## The panel -/

/-- `parseFloat(amount) || 0`, by the decimal value of the text. -/
def parseFloat (value : ℚ) : ℚ := toDouble value

/-- `rawUsdc` and `rawCvault`: the amount typed, in millionths. -/
def rawAmount (value : ℚ) : ℤ := ⌊toDouble (parseFloat value * 1000000)⌋

def calcCvaultFromUsdc (usdcAmount navPriceBps : ℚ) : ℤ :=
  ⌊toDouble (toDouble (usdcAmount * 10000) / navPriceBps)⌋

def calcUsdcFromCvault (cvaultAmount navPriceBps : ℚ) : ℤ :=
  ⌊toDouble (toDouble (cvaultAmount * navPriceBps) / 10000)⌋

/-! ## Amounts -/

/-- Of `m` millionths typed the panel takes `m`, or one less. -/
theorem rawAmount_typed {m : ℕ} (hm : m < 2 ^ 51) :
    (m : ℤ) - 1 ≤ rawAmount (m / 1000000) ∧ rawAmount (m / 1000000) ≤ m := by
  have hbounds := floor_toDouble_mul_toDouble (n := 1000000) (by decide) hm
  rwa [Nat.cast_ofNat] at hbounds

/-- 0.000249 is one of those that lose. -/
example : rawAmount (249 / 1000000) = 248 := by decide +kernel

section Previews

variable {x n : ℕ}

/-- A multiple of 10000 is a multiple of 16, so it is a double up to `2 ^ 53 * 16`. -/
theorem toDouble_mul_tenThousand (hx : x * 625 < 2 ^ 53) :
    toDouble ((x : ℚ) * 10000) = (x * 10000 : ℕ) := by
  have hd : IsDouble (((x * 625 : ℕ) : ℚ) * 2 ^ (4 : ℤ)) := (isDouble_natCast hx.le).mul_zpow 4
  have heq : ((x * 625 : ℕ) : ℚ) * 2 ^ (4 : ℤ) = (x * 10000 : ℕ) := by
    push_cast
    ring
  rw [heq] at hd
  rw [← hd.toDouble_eq]
  push_cast
  rfl

theorem calcCvaultFromUsdc_eq (hn : 0 < n) (hx : x * 10000 < 2 ^ 53) :
    calcCvaultFromUsdc x n = (x * 10000 / n : ℕ) := by
  have hsmall : x * 625 < 2 ^ 53 := (Nat.mul_le_mul_left x (by decide)).trans_lt hx
  rw [calcCvaultFromUsdc, toDouble_mul_tenThousand hsmall]
  exact floor_toDouble_div hn hx

/-- Past `2 ^ 53` the preview is the quotient or one more. -/
theorem calcCvaultFromUsdc_near (hn : 0 < n) (hx : x * 625 < 2 ^ 53)
    (hq : x * 10000 / n < 2 ^ 53) :
    ((x * 10000 / n : ℕ) : ℤ) ≤ calcCvaultFromUsdc x n ∧
      calcCvaultFromUsdc x n ≤ (x * 10000 / n : ℕ) + 1 := by
  rw [calcCvaultFromUsdc, toDouble_mul_tenThousand hx]
  exact ⟨div_le_floor_toDouble hq.le, floor_toDouble_div_le hn hq⟩

/-- One more it can be. -/
example : calcCvaultFromUsdc 5987643024435 10001 = 5987044320003 ∧
    5987643024435 * 10000 / 10001 = 5987044320002 := by decide +kernel

theorem calcUsdcFromCvault_eq (hx : x * n < 2 ^ 53) :
    calcUsdcFromCvault x n = (x * n / 10000 : ℕ) := by
  have hd : IsDouble ((x * n : ℕ) : ℚ) := isDouble_natCast hx.le
  have hround : toDouble ((x : ℚ) * n) = (x * n : ℕ) := by
    rw [← Nat.cast_mul, hd.toDouble_eq]
  have hfloor := floor_toDouble_div (y := 10000) (by decide) hx
  rw [Nat.cast_ofNat] at hfloor
  rw [calcUsdcFromCvault, hround]
  exact hfloor

end Previews

/-! ## The program -/

section Program

variable {K : Type} [DecidableEq K] [Addresses K] [Deployment K] [TokenProgram K]
  {s : State K} {vs : VaultState K} {m : ℕ} {amount : UInt64}

end Program

end Frontend
