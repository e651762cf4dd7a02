/-
# `Oragami.Lib.Double` — rounding to doubles

A double is `m * 2 ^ e` with `m` of 53 bits, and an operation on doubles gives the
double nearest to the exact result, ties to an even significand (`toDouble`).  Here a
double is the rational it stands for.  Exponents are not bounded: between `2 ^ -1022`
and `2 ^ 1024`, where nothing underflows or overflows, they need not be.

Two things are used of rounding: it is monotone and leaves doubles as they are, so
it never crosses one (`toDouble_le`, `le_toDouble`); and it moves a number by at most
`2 ^ -53` of it (`toDouble_le_add`).  The first alone keeps the floor of a rounded
quotient within one of the floor of the quotient; the two together make them equal
where the dividend is below `2 ^ 53`, since the quotient is then too far from the next
integer (`floor_toDouble_div`).
-/
import Oragami.Lib.Js
import Mathlib.Data.Int.Log
import Mathlib.Data.Rat.Floor
import Mathlib.Data.Nat.Cast.Order.Field
import Mathlib.Algebra.Order.Floor.Ring
import Mathlib.Tactic.Linarith
import Mathlib.Tactic.Positivity
import Mathlib.Tactic.Ring
import Mathlib.Tactic.FieldSimp

namespace Double

/-! ## The nearest integer -/

/-- The nearest integer, ties to an even one. -/
def nearest (q : ℚ) : ℤ :=
  if q - ⌊q⌋ < 1 / 2 ∨ q - ⌊q⌋ = 1 / 2 ∧ ⌊q⌋ % 2 = 0 then ⌊q⌋ else ⌊q⌋ + 1

theorem nearest_intCast (n : ℤ) : nearest n = n := by
  unfold nearest
  rw [Int.floor_intCast, sub_self, if_pos (.inl (by norm_num))]

theorem nearest_le (q : ℚ) : (nearest q : ℚ) ≤ q + 1 / 2 := by
  unfold nearest
  have hfloor := Int.floor_le q
  split
  · linarith
  · next h =>
      rw [not_or] at h
      push_cast
      linarith [not_lt.mp h.1]

theorem le_nearest (q : ℚ) : q - 1 / 2 ≤ (nearest q : ℚ) := by
  unfold nearest
  have hfloor := Int.lt_floor_add_one q
  split
  · next h =>
      rcases h with h | h
      · linarith
      · linarith [h.1]
  · push_cast
    linarith

theorem nearest_mono {a b : ℚ} (h : a ≤ b) : nearest a ≤ nearest b := by
  have hfloor : ⌊a⌋ ≤ ⌊b⌋ := Int.floor_mono h
  rcases eq_or_lt_of_le hfloor with heq | hlt
  · unfold nearest
    rw [← heq]
    split
    · split <;> omega
    · next ha =>
        -- `a` is rounded up, and `b` is no closer to the same floor
        rw [not_or, not_and] at ha
        rw [if_neg]
        rintro (hb | ⟨hb, heven⟩)
        · exact ha.1 (by linarith)
        · rcases lt_or_eq_of_le (show a - ⌊a⌋ ≤ 1 / 2 by linarith) with hless | htie
          · exact ha.1 hless
          · exact ha.2 htie heven
  · have hup : nearest a ≤ ⌊a⌋ + 1 := by
      unfold nearest
      split <;> omega
    have hdown : ⌊b⌋ ≤ nearest b := by
      unfold nearest
      split <;> omega
    omega

theorem nearest_natCast_div {n d : ℕ} (hd : 0 < d) :
    nearest ((n : ℚ) / d) =
      ((if 2 * (n % d) < d ∨ 2 * (n % d) = d ∧ n / d % 2 = 0 then n / d else n / d + 1 : ℕ) : ℤ) := by
  have hdq : (0 : ℚ) < d := Nat.cast_pos.mpr hd
  have hfloor : ⌊(n : ℚ) / d⌋ = ((n / d : ℕ) : ℤ) := Rat.floor_natCast_div_natCast n d
  have hfrac : (n : ℚ) / d - ((n / d : ℕ) : ℚ) = ((n % d : ℕ) : ℚ) / d := by
    rw [eq_div_iff hdq.ne', sub_mul, div_mul_cancel₀ _ hdq.ne', sub_eq_iff_eq_add]
    exact_mod_cast (Nat.mod_add_div' n d).symm
  have hless : ((n % d : ℕ) : ℚ) / d < 1 / 2 ↔ 2 * (n % d) < d := by
    rw [div_lt_div_iff₀ hdq (by norm_num), one_mul, mul_comm]
    exact_mod_cast Iff.rfl
  have htie : ((n % d : ℕ) : ℚ) / d = 1 / 2 ↔ 2 * (n % d) = d := by
    rw [div_eq_div_iff hdq.ne' (by norm_num), one_mul, mul_comm]
    exact_mod_cast Iff.rfl
  have heven : ((n / d : ℕ) : ℤ) % 2 = 0 ↔ n / d % 2 = 0 := by omega
  unfold nearest
  simp only [hfloor, Int.cast_natCast, hfrac, hless, htie, heven]
  split <;> rfl

/-! ## Rounding -/

/-- The distance of the doubles around a number. -/
def ulp (q : ℚ) : ℚ := 2 ^ (Int.log 2 |q| - 52)

/-- The nearest double. -/
def toDouble (q : ℚ) : ℚ := nearest (q / ulp q) * ulp q

theorem ulp_pos (q : ℚ) : 0 < ulp q := zpow_pos (by norm_num) _

theorem ulp_eq (q : ℚ) : ulp q = 2 ^ Int.log 2 |q| / 2 ^ 52 := by
  rw [ulp, zpow_sub₀ (by norm_num)]
  rfl

section Positive

variable {a b q : ℚ}

theorem zpow_log_le (h : 0 < q) : (2 : ℚ) ^ Int.log 2 |q| ≤ q := by
  have hle := Int.zpow_log_le_self (b := 2) (by decide) (abs_pos.mpr h.ne')
  rwa [abs_of_pos h] at hle ⊢

theorem lt_zpow_log (h : 0 < q) : q < (2 : ℚ) ^ (Int.log 2 |q| + 1) := by
  have hlt := Int.lt_zpow_succ_log_self (b := 2) (by decide) |q|
  rwa [abs_of_pos h] at hlt ⊢

/-- A number is rounded by at most half the distance of the doubles around it, -/
theorem toDouble_le_add_half (q : ℚ) : toDouble q ≤ q + ulp q / 2 := by
  have hu := ulp_pos q
  have hle := mul_le_mul_of_nonneg_right (nearest_le (q / ulp q)) hu.le
  rw [add_mul, div_mul_cancel₀ _ hu.ne'] at hle
  unfold toDouble
  linarith

theorem sub_half_le_toDouble (q : ℚ) : q - ulp q / 2 ≤ toDouble q := by
  have hu := ulp_pos q
  have hle := mul_le_mul_of_nonneg_right (le_nearest (q / ulp q)) hu.le
  rw [sub_mul, div_mul_cancel₀ _ hu.ne'] at hle
  unfold toDouble
  linarith

/-- which is little of it. -/
theorem ulp_le (h : 0 < q) : ulp q ≤ q / 2 ^ 52 := by
  rw [ulp_eq]
  exact div_le_div_of_nonneg_right (zpow_log_le h) (by norm_num)

theorem toDouble_le_add (h : 0 < q) : toDouble q ≤ q + q / 2 ^ 53 := by
  have hround := toDouble_le_add_half q
  have hulp := ulp_le h
  linarith

theorem sub_le_toDouble (h : 0 < q) : q - q / 2 ^ 53 ≤ toDouble q := by
  have hround := sub_half_le_toDouble q
  have hulp := ulp_le h
  linarith

/-- Rounding stays within the binade. -/
theorem zpow_log_le_toDouble (h : 0 < q) : (2 : ℚ) ^ Int.log 2 |q| ≤ toDouble q := by
  have hu := ulp_pos q
  have hle : ((2 ^ 52 : ℤ) : ℚ) ≤ q / ulp q := by
    rw [le_div_iff₀ hu, ulp_eq]
    push_cast
    linarith [zpow_log_le h]
  have hnear := nearest_mono hle
  rw [nearest_intCast] at hnear
  have hcast : ((2 ^ 52 : ℤ) : ℚ) ≤ nearest (q / ulp q) := Int.cast_le.mpr hnear
  calc (2 : ℚ) ^ Int.log 2 |q| = ((2 ^ 52 : ℤ) : ℚ) * ulp q := by
        rw [ulp_eq]
        push_cast
        ring
    _ ≤ toDouble q := mul_le_mul_of_nonneg_right hcast hu.le

theorem toDouble_le_zpow_log (h : 0 < q) : toDouble q ≤ (2 : ℚ) ^ (Int.log 2 |q| + 1) := by
  have hu := ulp_pos q
  have hle : q / ulp q ≤ ((2 ^ 53 : ℤ) : ℚ) := by
    rw [div_le_iff₀ hu, ulp_eq]
    have hlt := lt_zpow_log h
    rw [zpow_add_one₀ (by norm_num)] at hlt
    push_cast
    linarith
  have hnear := nearest_mono hle
  rw [nearest_intCast] at hnear
  have hcast : (nearest (q / ulp q) : ℚ) ≤ ((2 ^ 53 : ℤ) : ℚ) := Int.cast_le.mpr hnear
  calc toDouble q ≤ ((2 ^ 53 : ℤ) : ℚ) * ulp q := mul_le_mul_of_nonneg_right hcast hu.le
    _ = (2 : ℚ) ^ (Int.log 2 |q| + 1) := by
        rw [ulp_eq, zpow_add_one₀ (by norm_num)]
        push_cast
        ring

theorem toDouble_mono (ha : 0 < a) (h : a ≤ b) : toDouble a ≤ toDouble b := by
  have hb := ha.trans_le h
  have hlog : Int.log 2 |a| ≤ Int.log 2 |b| := by
    rw [abs_of_pos ha, abs_of_pos hb]
    exact Int.log_mono_right ha h
  rcases eq_or_lt_of_le hlog with heq | hlt
  · have hulp : ulp a = ulp b := by
      rw [ulp, ulp, heq]
    have hnear := nearest_mono (div_le_div_of_nonneg_right h (ulp_pos b).le)
    unfold toDouble
    rw [hulp]
    exact mul_le_mul_of_nonneg_right (Int.cast_le.mpr hnear) (ulp_pos b).le
  · calc toDouble a ≤ (2 : ℚ) ^ (Int.log 2 |a| + 1) := toDouble_le_zpow_log ha
      _ ≤ 2 ^ Int.log 2 |b| := zpow_le_zpow_right₀ (by norm_num) (by omega)
      _ ≤ toDouble b := zpow_log_le_toDouble hb

end Positive

/-! ## Doubles -/

/-- A significand of 53 bits, and an exponent. -/
def IsDouble (q : ℚ) : Prop := ∃ (m : ℕ) (e : ℤ), m < 2 ^ 53 ∧ q = m * 2 ^ e

theorem toDouble_zero : toDouble 0 = 0 := by
  unfold toDouble
  rw [zero_div]
  have hzero := nearest_intCast 0
  rw [Int.cast_zero] at hzero
  rw [hzero, Int.cast_zero, zero_mul]

/-- A double is its own nearest. -/
theorem IsDouble.toDouble_eq {q : ℚ} (h : IsDouble q) : toDouble q = q := by
  obtain ⟨m, e, hm, rfl⟩ := h
  rcases Nat.eq_zero_or_pos m with rfl | hpos
  · rw [Nat.cast_zero, zero_mul, toDouble_zero]
  · have hq : (0 : ℚ) < m * 2 ^ e := mul_pos (Nat.cast_pos.mpr hpos) (zpow_pos (by norm_num) _)
    -- the spacing at `m * 2 ^ e` divides `2 ^ e`
    have hlog : Int.log 2 |(m : ℚ) * 2 ^ e| ≤ e + 52 := by
      have hlt : (m : ℚ) * 2 ^ e < ((2 : ℕ) : ℚ) ^ (e + 53) := by
        push_cast
        rw [zpow_add₀ (by norm_num), mul_comm]
        have hcast : (m : ℚ) < 2 ^ 53 := by exact_mod_cast hm
        exact mul_lt_mul_of_pos_left hcast (zpow_pos (by norm_num) _)
      have hlt' := (Int.lt_zpow_iff_log_lt (b := 2) (by decide) hq).mp hlt
      rw [abs_of_pos hq]
      omega
    obtain ⟨k, hk⟩ : ∃ k : ℕ, e = Int.log 2 |(m : ℚ) * 2 ^ e| - 52 + k :=
      ⟨(e - (Int.log 2 |(m : ℚ) * 2 ^ e| - 52)).toNat, by omega⟩
    have hdiv : (m : ℚ) * 2 ^ e / ulp (m * 2 ^ e) = ((m * 2 ^ k : ℤ) : ℚ) := by
      have hpow : (2 : ℚ) ^ e = ulp (m * 2 ^ e) * 2 ^ k := by
        rw [ulp, ← zpow_natCast, ← zpow_add₀ (by norm_num), ← hk]
      have hu := ulp_pos ((m : ℚ) * 2 ^ e)
      rw [div_eq_iff hu.ne']
      push_cast
      nth_rewrite 1 [hpow]
      ring
    have hu := ulp_pos ((m : ℚ) * 2 ^ e)
    rw [toDouble, hdiv, nearest_intCast, ← hdiv, div_mul_cancel₀ _ hu.ne']

theorem isDouble_natCast {n : ℕ} (h : n ≤ 2 ^ 53) : IsDouble n := by
  rcases Nat.lt_or_eq_of_le h with hlt | rfl
  · exact ⟨n, 0, hlt, by rw [zpow_zero, mul_one]⟩
  · exact ⟨1, 53, by decide, by norm_num⟩

/-- A double times a power of two is one. -/
theorem IsDouble.mul_zpow {q : ℚ} (h : IsDouble q) (k : ℤ) : IsDouble (q * 2 ^ k) := by
  obtain ⟨m, e, hm, rfl⟩ := h
  exact ⟨m, e + k, hm, by rw [zpow_add₀ (by norm_num), mul_assoc]⟩

/-- No double is crossed. -/
theorem toDouble_le {q d : ℚ} (hq : 0 < q) (h : q ≤ d) (hd : IsDouble d) : toDouble q ≤ d := by
  rw [← hd.toDouble_eq]
  exact toDouble_mono hq h

theorem le_toDouble {q d : ℚ} (hpos : 0 < d) (h : d ≤ q) (hd : IsDouble d) : d ≤ toDouble q := by
  rw [← hd.toDouble_eq]
  exact toDouble_mono hpos h

/-- On integers this is the rounding of `Number`. -/
theorem toDouble_natCast (n : ℕ) : toDouble n = Js.roundNat n := by
  rcases Nat.lt_or_ge (2 ^ 53) n with hlt | hle
  · have hn : n ≠ 0 := by omega
    have hlog : 53 ≤ n.log2 := (Nat.le_log2 hn).mpr hlt.le
    obtain ⟨e, he⟩ : ∃ e, n.log2 = 52 + (e + 1) := ⟨n.log2 - 53, by omega⟩
    have hulp : ulp n = ((2 ^ (e + 1) : ℕ) : ℚ) := by
      rw [ulp, abs_of_nonneg (Nat.cast_nonneg n), Int.log_natCast, ← Nat.log2_eq_log_two, he,
        show ((52 + (e + 1) : ℕ) : ℤ) - 52 = ((e + 1 : ℕ) : ℤ) by push_cast; ring, zpow_natCast]
      push_cast
      rfl
    have hshift : n.log2 - 52 = e + 1 := by omega
    have hhalf : 2 * (n % 2 ^ (e + 1)) < 2 ^ (e + 1) ↔ n % 2 ^ (e + 1) < 2 ^ (e + 1 - 1) := by
      rw [Nat.add_sub_cancel, Nat.pow_succ]
      omega
    have htie : 2 * (n % 2 ^ (e + 1)) = 2 ^ (e + 1) ↔ n % 2 ^ (e + 1) = 2 ^ (e + 1 - 1) := by
      rw [Nat.add_sub_cancel, Nat.pow_succ]
      omega
    rw [toDouble, hulp, nearest_natCast_div (Nat.two_pow_pos _), Js.roundNat,
      if_neg (by omega : ¬ n ≤ 2 ^ 53), hshift, Int.cast_natCast, ← Nat.cast_mul]
    simp only [hhalf, htie]
  · rw [Js.roundNat_of_le hle]
    exact (isDouble_natCast hle).toDouble_eq

theorem toDouble_pos {q : ℚ} (h : 0 < q) : 0 < toDouble q :=
  (zpow_pos (by norm_num) _).trans_le (zpow_log_le_toDouble h)

/-! ## Quotients -/

section Quotient

variable {x y : ℕ}

/-- The floor of a rounded quotient is not below that of the quotient. -/
theorem div_le_floor_toDouble (h : x / y ≤ 2 ^ 53) : ((x / y : ℕ) : ℤ) ≤ ⌊toDouble ((x : ℚ) / y)⌋ := by
  rcases Nat.eq_zero_or_pos (x / y) with hzero | hpos
  · rw [hzero, Nat.cast_zero]
    refine Int.floor_nonneg.mpr ?_
    rcases eq_or_lt_of_le (show (0 : ℚ) ≤ (x : ℚ) / y by positivity) with heq | hlt
    · rw [← heq, toDouble_zero]
    · exact (toDouble_pos hlt).le
  · refine Int.le_floor.mpr ?_
    rw [Int.cast_natCast]
    refine le_toDouble (Nat.cast_pos.mpr hpos) ?_ (isDouble_natCast h)
    exact Nat.cast_div_le

/-- Nor is it more than one above it. -/
theorem floor_toDouble_div_le (hy : 0 < y) (h : x / y < 2 ^ 53) :
    ⌊toDouble ((x : ℚ) / y)⌋ ≤ (x / y : ℕ) + 1 := by
  rcases Nat.eq_zero_or_pos x with rfl | hx
  · rw [Nat.cast_zero, zero_div, toDouble_zero, Int.floor_zero, Nat.zero_div]
    decide
  · have hle : (x : ℚ) / y ≤ ((x / y + 1 : ℕ) : ℚ) := by
      rw [div_le_iff₀ (Nat.cast_pos.mpr hy)]
      exact_mod_cast (Nat.lt_mul_of_div_lt (Nat.lt_succ_self _) hy).le
    have hround := toDouble_le (by positivity) hle (isDouble_natCast h)
    refine Int.cast_le.mp ((Int.floor_le _).trans (hround.trans (le_of_eq ?_)))
    push_cast
    rfl

/-- Below `2 ^ 53` division by doubles and division by integers agree. -/
theorem floor_toDouble_div (hy : 0 < y) (hx : x < 2 ^ 53) :
    ⌊toDouble ((x : ℚ) / y)⌋ = (x / y : ℕ) := by
  have hquot : x / y < 2 ^ 53 := (Nat.div_le_self x y).trans_lt hx
  refine le_antisymm ?_ (div_le_floor_toDouble hquot.le)
  rcases Nat.eq_zero_or_pos x with rfl | hpos
  · rw [Nat.cast_zero, zero_div, toDouble_zero, Int.floor_zero, Nat.zero_div, Nat.cast_zero]
  · have hyq : (0 : ℚ) < y := Nat.cast_pos.mpr hy
    have hround := toDouble_le_add (show (0 : ℚ) < (x : ℚ) / y by positivity)
    -- the quotient is `1 / y` away from the next integer
    have hgap : (x : ℚ) / y + 1 / y ≤ ((x / y : ℕ) : ℚ) + 1 := by
      rw [← add_div, div_le_iff₀ hyq]
      have hnat : x + 1 ≤ (x / y + 1) * y := Nat.lt_mul_of_div_lt (Nat.lt_succ_self _) hy
      exact_mod_cast hnat
    have hsmall : (x : ℚ) / y / 2 ^ 53 < 1 / y := by
      rw [div_div, mul_comm, ← div_div, div_lt_div_iff_of_pos_right hyq,
        div_lt_one (by norm_num)]
      exact_mod_cast hx
    have hlt : toDouble ((x : ℚ) / y) < (((x / y : ℕ) : ℤ) + 1 : ℤ) := by
      rw [Int.cast_add, Int.cast_natCast, Int.cast_one]
      linarith
    exact Int.lt_add_one_iff.mp (Int.floor_lt.mpr hlt)

end Quotient

/-! ## Decimals -/

/-- `m` units of `1 / n` read as a double and multiplied out again: the floor is `m`, or one
less where the nearest double lies below. -/
theorem floor_toDouble_mul_toDouble {m n : ℕ} (hn : 0 < n) (hm : m < 2 ^ 51) :
    (m : ℤ) - 1 ≤ ⌊toDouble (toDouble ((m : ℚ) / n) * n)⌋ ∧ ⌊toDouble (toDouble ((m : ℚ) / n) * n)⌋ ≤ m := by
  rcases Nat.eq_zero_or_pos m with rfl | hpos
  · simp only [Nat.cast_zero, zero_div, toDouble_zero, zero_mul, Int.floor_zero]
    exact ⟨by decide, le_refl _⟩
  · have hnq : (0 : ℚ) < n := Nat.cast_pos.mpr hn
    have hmq : (0 : ℚ) < m := Nat.cast_pos.mpr hpos
    have hquot : (0 : ℚ) < (m : ℚ) / n := by positivity
    have hmlt : (m : ℚ) < 2 ^ 51 := by exact_mod_cast hm
    have hback : (m : ℚ) / n * n = m := div_mul_cancel₀ _ hnq.ne'
    -- what the first rounding leaves of `m`
    have hup : toDouble ((m : ℚ) / n) * n ≤ m + m / 2 ^ 53 := by
      have hle := mul_le_mul_of_nonneg_right (toDouble_le_add hquot) hnq.le
      rw [add_mul, hback, div_mul_eq_mul_div, hback] at hle
      exact hle
    have hdown : m - m / 2 ^ 53 ≤ toDouble ((m : ℚ) / n) * n := by
      have hle := mul_le_mul_of_nonneg_right (sub_le_toDouble hquot) hnq.le
      rw [sub_mul, hback, div_mul_eq_mul_div, hback] at hle
      exact hle
    have hprod : 0 < toDouble ((m : ℚ) / n) * n := mul_pos (toDouble_pos hquot) hnq
    constructor
    · refine Int.le_floor.mpr ?_
      push_cast
      rcases Nat.lt_or_ge 1 m with hone | hone
      · have hd : IsDouble ((m - 1 : ℕ) : ℚ) := isDouble_natCast (by omega)
        have hle := le_toDouble (q := toDouble ((m : ℚ) / n) * n) (Nat.cast_pos.mpr (by omega))
          (by rw [Nat.cast_sub (by omega)]; push_cast; linarith) hd
        rwa [Nat.cast_sub (by omega), Nat.cast_one] at hle
      · have hle : (m : ℚ) ≤ 1 := by exact_mod_cast hone
        linarith [toDouble_pos hprod]
    · have hround := toDouble_le_add hprod
      have hlt : toDouble (toDouble ((m : ℚ) / n) * n) < ((m : ℤ) + 1 : ℤ) := by
        push_cast
        linarith
      exact Int.lt_add_one_iff.mp (Int.floor_lt.mpr hlt)

end Double
