/-
# `Oragami.Lib.Conversion` — buying and selling at a quoted price, rounded down

A price is quoted in `unit`-ths of an asset.  An amount buys `amount * unit / price`
shares, and shares pay `shares * price / unit`; both divisions round down.  Going
there and back never gains and loses at most the price, rounded up to whole
assets; both maps are monotone, and splitting an amount never gains (`buys_sum`,
`pays_sum`).  Where the price has moved in between, what comes back is what was paid and
its gain in `unit`-ths, but for the roundings (`pays_near_gain`).

`Fair` says the same of two machine functions that may refuse.  It follows from
what the two compute when they do not (`Fair.of_spec`), so a program proves its
conversions fair by saying what they are.
-/
import Mathlib.Algebra.Order.BigOperators.Group.List
import Mathlib.Algebra.Order.Floor.Div
import Mathlib.Data.List.Forall2
import Mathlib.Tactic.Linarith
import Mathlib.Tactic.Ring

namespace Conversion

/-- Shares an amount buys. -/
def buys (unit price amount : Nat) : Nat := amount * unit / price

/-- What shares pay. -/
def pays (unit price shares : Nat) : Nat := shares * price / unit

section Rounding

variable {unit price : Nat}

theorem buys_mono {a b : Nat} (h : a ≤ b) : buys unit price a ≤ buys unit price b :=
  Nat.div_le_div_right (Nat.mul_le_mul_right unit h)

theorem pays_mono {x y : Nat} (h : x ≤ y) : pays unit price x ≤ pays unit price y :=
  Nat.div_le_div_right (Nat.mul_le_mul_right price h)

theorem buys_mul_le (a : Nat) : buys unit price a * price ≤ a * unit := Nat.div_mul_le_self _ _

theorem pays_buys_le (a : Nat) :
    pays unit price (buys unit price a) ≤ a := by
  apply Nat.div_le_of_le_mul
  rw [Nat.mul_comm unit a]
  exact buys_mul_le a

theorem le_pays_buys (hunit : 0 < unit) (hprice : 0 < price) (a : Nat) :
    a ≤ pays unit price (buys unit price a) + price ⌈/⌉ unit := by
  -- each division loses less than its divisor
  have hbuy : a * unit < (buys unit price a + 1) * price :=
    Nat.lt_mul_of_div_lt (Nat.lt_succ_self _) hprice
  have hpay : buys unit price a * price < (pays unit price (buys unit price a) + 1) * unit :=
    Nat.lt_mul_of_div_lt (Nat.lt_succ_self _) hunit
  have hceil : price ≤ price ⌈/⌉ unit * unit := by
    have h := le_smul_ceilDiv (b := price) hunit
    rwa [smul_eq_mul, Nat.mul_comm] at h
  have hall : a * unit < (pays unit price (buys unit price a) + price ⌈/⌉ unit + 1) * unit := by
    linarith
  exact Nat.lt_succ_iff.mp (Nat.lt_of_mul_lt_mul_right hall)

/-- One amount bought in parts buys no more than at once. -/
theorem buys_add (a b : Nat) : buys unit price a + buys unit price b ≤ buys unit price (a + b) := by
  unfold buys
  rw [Nat.add_mul]
  exact Nat.div_add_div_le_add_div

theorem pays_add (x y : Nat) : pays unit price x + pays unit price y ≤ pays unit price (x + y) := by
  unfold pays
  rw [Nat.add_mul]
  exact Nat.div_add_div_le_add_div

/-- A map that parts never help does not help any list of parts. -/
theorem sum_map_le {f : Nat → Nat} (hadd : ∀ a b, f a + f b ≤ f (a + b)) (as : List Nat) :
    (as.map f).sum ≤ f as.sum := by
  induction as with
  | nil => exact Nat.zero_le _
  | cons a as ih =>
      rw [List.map_cons, List.sum_cons, List.sum_cons]
      exact (Nat.add_le_add_left ih _).trans (hadd a as.sum)

theorem buys_sum (as : List Nat) : (as.map (buys unit price)).sum ≤ buys unit price as.sum :=
  sum_map_le buys_add as

theorem pays_sum (xs : List Nat) : (xs.map (pays unit price)).sum ≤ pays unit price xs.sum :=
  sum_map_le pays_add xs

/-- At prices that agree with the quote, what is bought is worth at most what is paid, -/
theorem buys_worth_le {asset share : Nat} (h : share * unit = asset * price) (a : Nat) :
    share * buys unit price a ≤ asset * a := by
  rcases Nat.eq_zero_or_pos price with rfl | hprice
  · simp [buys]
  refine Nat.le_of_mul_le_mul_right ?_ hprice
  calc share * buys unit price a * price
      = share * (buys unit price a * price) := Nat.mul_assoc ..
    _ ≤ share * (a * unit) := Nat.mul_le_mul_left _ (buys_mul_le a)
    _ = share * unit * a := by ring
    _ = asset * price * a := by rw [h]
    _ = asset * a * price := by ring

/-- and what is paid for shares at most what they are worth. -/
theorem pays_worth_le {asset share : Nat} (hunit : 0 < unit) (h : share * unit = asset * price)
    (x : Nat) : asset * pays unit price x ≤ share * x := by
  refine Nat.le_of_mul_le_mul_right ?_ hunit
  calc asset * pays unit price x * unit
      = asset * (pays unit price x * unit) := Nat.mul_assoc ..
    _ ≤ asset * (x * price) := Nat.mul_le_mul_left _ (Nat.div_mul_le_self _ _)
    _ = asset * price * x := by ring
    _ = share * unit * x := by rw [h]
    _ = share * x * unit := by ring

end Rounding

/-! ## Gains -/

/-- What a price has risen by since shares were bought, in `unit`-ths of what it was then,
towards zero. -/
def gain (unit bought price : Nat) : Int := (((price : Int) - bought) * unit).tdiv bought

section Gain

variable {unit price bought : Nat} {r : Int}

/-- At a rate above that of the prices an amount comes back. -/
theorem pays_le_of_rate (hbought : 0 < bought) (h : (unit * price : Int) ≤ r * bought) (a : Nat) :
    (pays unit price (buys unit bought a) * unit : Int) ≤ a * r := by
  have hbuy : (buys unit bought a * bought : Int) ≤ a * unit := by
    exact_mod_cast buys_mul_le a
  have hpay : (pays unit price (buys unit bought a) * unit : Int) ≤ buys unit bought a * price := by
    exact_mod_cast Nat.div_mul_le_self _ _
  have hpos : (0 : Int) < bought := by exact_mod_cast hbought
  have hall : (pays unit price (buys unit bought a) * unit : Int) * bought ≤ a * r * bought :=
    calc (pays unit price (buys unit bought a) * unit : Int) * bought
        ≤ buys unit bought a * price * bought := mul_le_mul_of_nonneg_right hpay hpos.le
      _ = buys unit bought a * bought * price := by ring
      _ ≤ a * unit * price := mul_le_mul_of_nonneg_right hbuy (Int.natCast_nonneg price)
      _ = a * (unit * price) := by ring
      _ ≤ a * (r * bought) := mul_le_mul_of_nonneg_left h (Int.natCast_nonneg a)
      _ = a * r * bought := by ring
  exact le_of_mul_le_mul_right hall hpos

/-- At a rate below it less than a share and an asset are lost. -/
theorem lt_pays_of_rate (hunit : 0 < unit) (hbought : 0 < bought)
    (h : r * bought ≤ (unit * price : Int)) (a : Nat) :
    (a * r : Int) < pays unit price (buys unit bought a) * unit + unit + price := by
  have hbuy : (a * unit : Int) ≤ (buys unit bought a + 1) * bought := by
    exact_mod_cast (Nat.lt_mul_of_div_lt (Nat.lt_succ_self _) hbought).le
  have hpay : (buys unit bought a * price : Int) <
      (pays unit price (buys unit bought a) + 1) * unit := by
    exact_mod_cast Nat.lt_mul_of_div_lt (Nat.lt_succ_self _) hunit
  have hpos : (0 : Int) < bought := by exact_mod_cast hbought
  have hall : (a * r : Int) * bought ≤ (buys unit bought a + 1) * price * bought :=
    calc (a * r : Int) * bought = a * (r * bought) := by ring
      _ ≤ a * (unit * price) := mul_le_mul_of_nonneg_left h (Int.natCast_nonneg a)
      _ = a * unit * price := by ring
      _ ≤ (buys unit bought a + 1) * bought * price :=
          mul_le_mul_of_nonneg_right hbuy (Int.natCast_nonneg price)
      _ = (buys unit bought a + 1) * price * bought := by ring
  have hrate := le_of_mul_le_mul_right hall hpos
  linarith

theorem gain_rise (unit : Nat) (hbought : 0 < bought) (h : bought ≤ price) :
    (unit + gain unit bought price) * bought ≤ (unit * price : Int) ∧
      (unit * price : Int) ≤ (unit + gain unit bought price + 1) * bought := by
  have hpos : (0 : Int) < bought := by exact_mod_cast hbought
  have hrise : (0 : Int) ≤ (price - bought) * unit :=
    mul_nonneg (by omega) (Int.natCast_nonneg unit)
  have hgain : gain unit bought price = ((price : Int) - bought) * unit / bought :=
    Int.tdiv_eq_ediv_of_nonneg hrise
  have hle := Int.ediv_mul_le (((price : Int) - bought) * unit) hpos.ne'
  have hlt := Int.lt_ediv_add_one_mul_self (((price : Int) - bought) * unit) hpos
  rw [← hgain] at hle hlt
  constructor <;> linarith

theorem gain_fall (unit : Nat) (hbought : 0 < bought) (h : price ≤ bought) :
    (unit + gain unit bought price - 1) * bought ≤ (unit * price : Int) ∧
      (unit * price : Int) ≤ (unit + gain unit bought price) * bought := by
  have hpos : (0 : Int) < bought := by exact_mod_cast hbought
  have hfall : (0 : Int) ≤ (bought - price) * unit :=
    mul_nonneg (by omega) (Int.natCast_nonneg unit)
  have hgain : gain unit bought price = -(((bought : Int) - price) * unit / bought) := by
    rw [← Int.tdiv_eq_ediv_of_nonneg hfall, ← Int.neg_tdiv, ← neg_mul, neg_sub, gain]
  have hle := Int.ediv_mul_le (((bought : Int) - price) * unit) hpos.ne'
  have hlt := Int.lt_ediv_add_one_mul_self (((bought : Int) - price) * unit) hpos
  rw [hgain]
  constructor <;> linarith

theorem natAbs_gain_le (unit bought price : Nat) :
    (gain unit bought price).natAbs ≤ (price + 1) * unit := by
  have hsize : (gain unit bought price).natAbs =
      ((price : Int) - bought).natAbs * unit / bought := by
    rw [gain, Int.natAbs_tdiv, Int.natAbs_mul, Int.natAbs_natCast, Int.natAbs_natCast]
    rfl
  rw [hsize, Nat.add_mul, Nat.one_mul]
  rcases le_total bought price with h | h
  · have hrise : ((price : Int) - bought).natAbs ≤ price := by omega
    calc ((price : Int) - bought).natAbs * unit / bought
        ≤ ((price : Int) - bought).natAbs * unit := Nat.div_le_self _ _
      _ ≤ price * unit := Nat.mul_le_mul_right unit hrise
      _ ≤ price * unit + unit := Nat.le_add_right _ _
  · have hfall : ((price : Int) - bought).natAbs ≤ bought := by omega
    refine (Nat.div_le_of_le_mul (Nat.mul_le_mul_right unit hfall)).trans ?_
    exact Nat.le_add_left _ _

/-- Shares sold again bring the amount and its gain: on a rise not more than a `unit`-th of it
above, on a fall not above; and never a whole share and one asset below, on a fall a `unit`-th
more. -/
theorem pays_near_gain (hunit : 0 < unit) (hbought : 0 < bought) (price a : Nat) :
    (bought ≤ price →
      (pays unit price (buys unit bought a) * unit : Int) ≤
        a * (unit + gain unit bought price) + a ∧
      (a * (unit + gain unit bought price) : Int) <
        pays unit price (buys unit bought a) * unit + unit + price) ∧
    (price ≤ bought →
      (pays unit price (buys unit bought a) * unit : Int) ≤
        a * (unit + gain unit bought price) ∧
      (a * (unit + gain unit bought price) : Int) <
        pays unit price (buys unit bought a) * unit + unit + price + a) := by
  constructor
  · intro h
    obtain ⟨hle, hge⟩ := gain_rise unit hbought h
    have habove := pays_le_of_rate hbought hge a
    have hbelow := lt_pays_of_rate hunit hbought hle a
    constructor <;> linarith
  · intro h
    obtain ⟨hle, hge⟩ := gain_fall unit hbought h
    have habove := pays_le_of_rate hbought hge a
    have hbelow := lt_pays_of_rate hunit hbought hle a
    constructor <;> linarith

end Gain

/-! ## Machine functions -/

section Machine

variable {ε : Type}

/-- `g` answers `f` of its argument where the argument fits, and refuses elsewhere. -/
def Computes (g : UInt64 → Except ε UInt64) (fits : Nat → Prop) (f : Nat → Nat) : Prop :=
  ∀ a x, g a = .ok x ↔ fits a.toNat ∧ x.toNat = f a.toNat

variable {g : UInt64 → Except ε UInt64} {fits : Nat → Prop} {f : Nat → Nat}

/-- An argument that fits and whose answer is a machine word is answered. -/
theorem Computes.answers (h : Computes g fits f) {a : UInt64} (hfits : fits a.toNat)
    (hlt : f a.toNat < 2 ^ 64) : ∃ x, g a = .ok x ∧ x.toNat = f a.toNat := by
  have hx : (UInt64.ofNat (f a.toNat)).toNat = f a.toNat := UInt64.toNat_ofNat_of_lt' hlt
  exact ⟨_, (h a _).mpr ⟨hfits, hx⟩, hx⟩

theorem Computes.mono (h : Computes g fits f) (hf : Monotone f) {a b x y : UInt64}
    (hle : a ≤ b) (hx : g a = .ok x) (hy : g b = .ok y) : x ≤ y := by
  rw [UInt64.le_iff_toNat_le, ((h a x).mp hx).2, ((h b y).mp hy).2]
  exact hf (UInt64.le_iff_toNat_le.mp hle)

/-- Parts no larger than an argument that is answered are answered. -/
theorem Computes.parts (h : Computes g fits f) (hf : Monotone f)
    (hfits : ∀ {m n}, m ≤ n → fits n → fits m) {total y : UInt64} (hy : g total = .ok y)
    (as : List UInt64) (has : ∀ a ∈ as, a ≤ total) :
    ∃ xs, List.Forall₂ (fun a x => g a = .ok x) as xs ∧
      xs.map UInt64.toNat = as.map fun a => f a.toNat := by
  obtain ⟨hft, hval⟩ := (h total y).mp hy
  induction as with
  | nil => exact ⟨[], .nil, rfl⟩
  | cons a as ih =>
      obtain ⟨xs, hxs, hsum⟩ := ih fun b hb => has b (List.mem_cons_of_mem _ hb)
      have hle : a.toNat ≤ total.toNat := UInt64.le_iff_toNat_le.mp (has a List.mem_cons_self)
      have hlt : f a.toNat < 2 ^ 64 := (hf hle).trans_lt (hval ▸ y.toNat_lt)
      obtain ⟨x, hx, hxf⟩ := h.answers (hfits hle hft) hlt
      exact ⟨x :: xs, .cons hx hxs, by rw [List.map_cons, List.map_cons, hxf, hsum]⟩

/-- Splitting an argument that is answered splits it into parts that are answered, with no
more in all. -/
theorem Computes.split (h : Computes g fits f) (hf : Monotone f)
    (hsum : ∀ as : List Nat, (as.map f).sum ≤ f as.sum)
    (hfits : ∀ {m n}, m ≤ n → fits n → fits m)
    {as : List UInt64} {total y : UInt64} (htotal : total.toNat = (as.map UInt64.toNat).sum)
    (hy : g total = .ok y) :
    ∃ xs, List.Forall₂ (fun a x => g a = .ok x) as xs ∧
      (xs.map UInt64.toNat).sum ≤ y.toNat := by
  have hparts : ∀ a ∈ as, a ≤ total := by
    intro a ha
    rw [UInt64.le_iff_toNat_le, htotal]
    exact List.single_le_sum (fun _ _ => Nat.zero_le _) _ (List.mem_map_of_mem ha)
  obtain ⟨xs, hxs, hvals⟩ := h.parts hf hfits hy as hparts
  refine ⟨xs, hxs, ?_⟩
  rw [hvals, ((h total y).mp hy).2, htotal]
  have hmap := hsum (as.map UInt64.toNat)
  rwa [List.map_map] at hmap

/-- Two machine functions are fair conversions at a price. -/
structure Fair (unit : Nat) (price : UInt64) (shares payout : UInt64 → Except ε UInt64) :
    Prop where
  /-- What was bought can be sold again, for no more than it cost and at most the price, in
  whole assets, less. -/
  roundTrip {a x : UInt64} : shares a = .ok x → ∃ p, payout x = .ok p ∧ p ≤ a ∧
    a.toNat - p.toNat ≤ price.toNat ⌈/⌉ unit
  sharesMono {a b x y : UInt64} : a ≤ b → shares a = .ok x → shares b = .ok y → x ≤ y
  payoutMono {x y p q : UInt64} : x ≤ y → payout x = .ok p → payout y = .ok q → p ≤ q
  sharesSplit {as : List UInt64} {total y : UInt64} :
    total.toNat = (as.map UInt64.toNat).sum → shares total = .ok y →
      ∃ xs, List.Forall₂ (fun a x => shares a = .ok x) as xs ∧ (xs.map UInt64.toNat).sum ≤ y.toNat
  payoutSplit {xs : List UInt64} {total q : UInt64} :
    total.toNat = (xs.map UInt64.toNat).sum → payout total = .ok q →
      ∃ ps, List.Forall₂ (fun x p => payout x = .ok p) xs ps ∧ (ps.map UInt64.toNat).sum ≤ q.toNat

theorem Fair.of_spec {unit : Nat} {price : UInt64} {shares payout : UInt64 → Except ε UInt64}
    (hunit : 0 < unit)
    (hshares : Computes shares (fun a => a * unit < 2 ^ 64 ∧ price.toNat ≠ 0)
      (buys unit price.toNat))
    (hpayout : Computes payout (fun x => x * price.toNat < 2 ^ 64) (pays unit price.toNat)) :
    Fair unit price shares payout where
  roundTrip := by
    intro a x hx
    obtain ⟨⟨hlt, hprice⟩, hval⟩ := (hshares a x).mp hx
    have hfits : x.toNat * price.toNat < 2 ^ 64 := by
      rw [hval]
      exact (buys_mul_le _).trans_lt hlt
    obtain ⟨p, hp, hpays⟩ := hpayout.answers hfits ((Nat.div_le_self _ _).trans_lt hfits)
    refine ⟨p, hp, ?_, ?_⟩
    · rw [UInt64.le_iff_toNat_le, hpays, hval]
      exact pays_buys_le a.toNat
    · rw [hpays, hval, Nat.sub_le_iff_le_add']
      exact le_pays_buys hunit (Nat.pos_of_ne_zero hprice) a.toNat
  sharesMono := hshares.mono fun _ _ => buys_mono
  payoutMono := hpayout.mono fun _ _ => pays_mono
  sharesSplit := hshares.split (fun _ _ => buys_mono) buys_sum fun hle h =>
    ⟨(Nat.mul_le_mul_right _ hle).trans_lt h.1, h.2⟩
  payoutSplit := hpayout.split (fun _ _ => pays_mono) pays_sum fun hle h =>
    (Nat.mul_le_mul_right _ hle).trans_lt h

end Machine

end Conversion
