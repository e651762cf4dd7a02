/-
# `Oragami.Chain.NavGuard` — the two guards on a new NAV

Both programs cap an update of the NAV at half its value, one as `current / 2`, the
other as `current * 5000 / 10000`.  It is the same cap where the arithmetic around
it fits in 64 bits.  Where it does not, the first program panics on the upper end
and the second reports overflow on the product, whatever the update: such a NAV can
neither be kept nor changed.

A NAV of one is left by no update; from any other, updates lead everywhere below
the limit of the arithmetic (`nav_everywhere`).
-/
import Oragami.Lib.HalfStep
import Oragami.OragamiVault.Scenario
import Oragami.MultiAssetVault.Scenario

namespace MultiAssetVault

open Anchor

variable {K : Type} [DecidableEq K] [Addresses K] [Deployment K]

/-- The value guards of `set_nav`. -/
def navGuard (current proposed : UInt64) : Mx Unit := do
  require (0 < proposed) .invalidNav
  let change ← maxChange current
  require (Checked.satSub current change ≤ proposed ∧ proposed ≤ Checked.satAdd current change)
    .navChangeTooLarge

/-- `set_nav` loads its accounts, asks the guards, and writes. -/
theorem setNav_guarded {now : Int64} {a : AdminOnly K} {nav : UInt64} {s : State K} :
    setNav now a nav s = (do
      let f ← s.loadFactory a.factory
      let v ← s.loadVault a.assetVault
      hasOneAuthority f a.authority
      navGuard v.navPriceBps nav
      let vaults := Function.update s.vaults a.assetVault (some { v with navPriceBps := nav })
      pure ({ s with vaults },
        some (.navUpdated v.assetMint v.navPriceBps nav now))) := by
  simp only [setNav, navGuard, bind_assoc]

/-- An accepted update is one the guards accept of the vault's NAV. -/
theorem setNav_accepted {now : Int64} {a : AdminOnly K} {nav : UInt64} {s : State K}
    {v : AssetVault K} {out : Outcome K} (hv : s.vaults a.assetVault = some v)
    (h : setNav now a nav s = .ok out) : navGuard v.navPriceBps nav = .ok () := by
  simp only [setNav_guarded, bind_eq_ok] at h
  obtain ⟨_, -, v', hload, _, -, _, hguard, -⟩ := h
  cases hv.symm.trans (loadVault_eq_ok.mp hload).1
  exact hguard

theorem maxChange_eq_ok {current change : UInt64} :
    maxChange current = .ok change ↔
      current.toNat * 5000 < 2 ^ 64 ∧ change.toNat = current.toNat / 2 := by
  refine mulDiv_eq_ok.trans ?_
  have hcap : maxNavChangeBps.toNat = 5000 := by decide
  have hden : navBpsDenominator.toNat = 10000 := by decide
  rw [hcap, hden]
  omega

end MultiAssetVault

namespace NavGuard

open HalfStep Relation

/-- An update a guard accepts. -/
def Accepts {ε : Type} (guard : UInt64 → UInt64 → Except ε Unit) (current proposed : UInt64) :
    Prop :=
  guard current proposed = .ok ()

/-- A guard is the half-step rule where the NAV fits its arithmetic, and accepts nothing
elsewhere. -/
def HalfWhere {ε : Type} (guard : UInt64 → UInt64 → Except ε Unit) (fits : Nat → Prop) : Prop :=
  ∀ current proposed,
    Accepts guard current proposed ↔ Near current.toNat proposed.toNat ∧ fits current.toNat

theorem oragamiVault_halfWhere :
    HalfWhere OragamiVault.navGuard fun current => current + current / 2 < 2 ^ 64 := by
  intro current proposed
  rw [Accepts, OragamiVault.navGuard_eq_ok, near_iff]
  omega

open Anchor MultiAssetVault in
theorem multiAssetVault_halfWhere :
    HalfWhere MultiAssetVault.navGuard fun current => current * 5000 < 2 ^ 64 := by
  intro current proposed
  rw [Accepts, near_iff]
  simp only [MultiAssetVault.navGuard, bind_eq_ok, require_eq_ok, maxChange_eq_ok,
    UInt64.lt_iff_toNat_lt, UInt64.le_iff_toNat_le, Checked.toNat_satSub, Checked.toNat_satAdd,
    UInt64.toNat_zero]
  constructor
  · rintro ⟨_, hpos, change, ⟨hlt, hchange⟩, hlo, hhi⟩
    rw [hchange] at hlo hhi
    omega
  · rintro ⟨⟨hpos, hlo, hhi⟩, hlt⟩
    have hnav := proposed.toNat_lt
    have hhalf : (UInt64.ofNat (current.toNat / 2)).toNat = current.toNat / 2 :=
      UInt64.toNat_ofNat_of_lt' (show current.toNat / 2 < 2 ^ 64 by omega)
    refine ⟨(), hpos, _, ⟨hlt, hhalf⟩, ?_⟩
    rw [hhalf]
    omega

section Guard

variable {ε : Type} {guard : UInt64 → UInt64 → Except ε Unit} {fits : Nat → Prop}

/-- Such a guard is the rule at a NAV exactly where it fits: it could else not even be kept. -/
theorem HalfWhere.rule_iff (h : HalfWhere guard fits) {current : UInt64} (hpos : 1 ≤ current) :
    (∀ proposed, Accepts guard current proposed ↔ Near current.toNat proposed.toNat) ↔
      fits current.toNat := by
  constructor
  · intro hrule
    have hkept := (hrule current).mpr (near_self (UInt64.le_iff_toNat_le.mp hpos))
    exact ((h current current).mp hkept).2
  · intro hfits proposed
    exact (h current proposed).trans (and_iff_left hfits)

theorem HalfWhere.kept_iff (h : HalfWhere guard fits) {current : UInt64} (hpos : 1 ≤ current) :
    Accepts guard current current ↔ fits current.toNat :=
  (h current current).trans (and_iff_right (near_self (UInt64.le_iff_toNat_le.mp hpos)))

theorem HalfWhere.refuses (h : HalfWhere guard fits) {current : UInt64}
    (hover : ¬ fits current.toNat) (proposed : UInt64) : ¬ Accepts guard current proposed :=
  fun haccept => hover ((h current proposed).mp haccept).2

/-- NAVs a guard leads to. -/
abbrev Leads (guard : UInt64 → UInt64 → Except ε Unit) : UInt64 → UInt64 → Prop :=
  ReflTransGen (Accepts guard)

theorem HalfWhere.step (h : HalfWhere guard fits) (limit : Nat)
    (hlimit : limit + limit / 2 < 2 ^ 64) (hfits : ∀ {n}, n ≤ limit → fits n) {n m : Nat}
    (hn : n ≤ limit) (hnear : Near n m) :
    Accepts guard (UInt64.ofNat n) (UInt64.ofNat m) := by
  have hm := near_iff.mp hnear
  rw [h, UInt64.toNat_ofNat_of_lt' (show n < 2 ^ 64 by omega),
    UInt64.toNat_ofNat_of_lt' (show m < 2 ^ 64 by omega)]
  exact ⟨hnear, hfits hn⟩

/-- From a NAV other than one, updates lead to any positive NAV its arithmetic has room for. -/
theorem HalfWhere.leads (h : HalfWhere guard fits) (limit : Nat)
    (hlimit : limit + limit / 2 < 2 ^ 64) (hfits : ∀ {n}, n ≤ limit → fits n) {n t : UInt64}
    (hn : 2 ≤ n.toNat) (hnl : n.toNat ≤ limit) (ht : 1 ≤ t.toNat) (htl : t.toNat ≤ limit) :
    Leads guard n t := by
  have hreach := reach (R := Accepts guard) (f := UInt64.ofNat) (h.step limit hlimit hfits)
    hn hnl ht htl
  rwa [UInt64.ofNat_toNat, UInt64.ofNat_toNat] at hreach

/-- A NAV of one is left by no update. -/
theorem HalfWhere.stuck (h : HalfWhere guard fits) {t : UInt64} (hleads : Leads guard 1 t) :
    t = 1 := by
  refine HalfStep.stuck ?_ hleads
  intro m hm
  have hone := near_one.mp ((h 1 m).mp hm).1
  exact Checked.eq_iff_toNat.mpr hone

/-- Up to a limit its arithmetic has room for, updates lead from every NAV to every other, except
from one. -/
theorem HalfWhere.leads_iff (h : HalfWhere guard fits) (limit : Nat)
    (hlimit : limit + limit / 2 < 2 ^ 64) (hfits : ∀ {n}, n ≤ limit → fits n) {n t : UInt64}
    (hn : 1 ≤ n) (hnl : n.toNat ≤ limit) (ht : 1 ≤ t) (htl : t.toNat ≤ limit) :
    Leads guard n t ↔ n ≠ 1 ∨ t = 1 := by
  by_cases hone : n = 1
  · subst hone
    constructor
    · exact fun hleads => .inr (h.stuck hleads)
    · rintro (hne | rfl)
      · exact absurd rfl hne
      · exact .refl
  · have htwo : 2 ≤ n.toNat := by
      have hle : 1 ≤ n.toNat := UInt64.le_iff_toNat_le.mp hn
      have hne : n.toNat ≠ 1 := fun hval => hone (Checked.eq_iff_toNat.mpr hval)
      omega
    exact iff_of_true (h.leads limit hlimit hfits htwo hnl (UInt64.le_iff_toNat_le.mp ht) htl)
      (.inl hone)

end Guard

/-! ## The two rules against one -/

/-- Every positive NAV is reached by updates of the first program, from par. -/
theorem par_leads {current : UInt64} (hpos : 1 ≤ current) :
    Leads OragamiVault.navGuard 10000 current := by
  have hpos' : 1 ≤ current.toNat := UInt64.le_iff_toNat_le.mp hpos
  -- the largest NAV whose upper end fits, from which the rest is one update away
  have hpar : ∀ {t : UInt64}, 1 ≤ t.toNat → t.toNat ≤ 12297829382473034410 →
      Leads OragamiVault.navGuard 10000 t :=
    fun ht htl => oragamiVault_halfWhere.leads 12297829382473034410 (by decide)
      (fun hn => by omega) (by decide) (by decide) ht htl
  rcases Nat.lt_or_ge 12297829382473034410 current.toNat with hlt | hle
  · refine (hpar (t := 12297829382473034410) (by decide) (by decide)).tail ?_
    have hbound := current.toNat_lt
    have hlimit : (12297829382473034410 : UInt64).toNat = 12297829382473034410 := rfl
    rw [oragamiVault_halfWhere, near_iff, hlimit]
    omega
  · exact hpar hpos' hle

/-- Each program's guard is the half-step rule at a NAV exactly where the NAV fits its arithmetic;
elsewhere it refuses every update, also the one to the NAV itself.  There is no positive NAV
that updates of the first program do not reach from par. -/
theorem guards_agree_iff {current : UInt64} (hpos : 1 ≤ current) :
    ((∀ proposed, Accepts OragamiVault.navGuard current proposed ↔
        Near current.toNat proposed.toNat) ↔
      current.toNat + current.toNat / 2 < 2 ^ 64) ∧
    ((∀ proposed, Accepts MultiAssetVault.navGuard current proposed ↔
        Near current.toNat proposed.toNat) ↔
      current.toNat * 5000 < 2 ^ 64) ∧
    (Accepts OragamiVault.navGuard current current ↔
      current.toNat + current.toNat / 2 < 2 ^ 64) ∧
    (Accepts MultiAssetVault.navGuard current current ↔ current.toNat * 5000 < 2 ^ 64) ∧
    (2 ^ 64 ≤ current.toNat + current.toNat / 2 →
      ∀ proposed, ¬ Accepts OragamiVault.navGuard current proposed) ∧
    (2 ^ 64 ≤ current.toNat * 5000 →
      ∀ proposed, ¬ Accepts MultiAssetVault.navGuard current proposed) ∧
    Leads OragamiVault.navGuard 10000 current :=
  ⟨oragamiVault_halfWhere.rule_iff hpos, multiAssetVault_halfWhere.rule_iff hpos,
    oragamiVault_halfWhere.kept_iff hpos, multiAssetVault_halfWhere.kept_iff hpos,
    fun hover => oragamiVault_halfWhere.refuses (Nat.not_lt.mpr hover),
    fun hover => multiAssetVault_halfWhere.refuses (Nat.not_lt.mpr hover), par_leads hpos⟩

/-- At par both fit, and half of par down is accepted. -/
theorem guards_agree_iff_par :
    Accepts OragamiVault.navGuard 10000 5000 ∧ Accepts MultiAssetVault.navGuard 10000 5000 := by
  obtain ⟨hfirst, hsecond, -⟩ := guards_agree_iff (show (1 : UInt64) ≤ 10000 by decide)
  exact ⟨(hfirst.mpr (by decide) 5000).mpr (by decide),
    (hsecond.mpr (by decide) 5000).mpr (by decide)⟩

/-- NAVs raised by half again and again. -/
def rises : Nat → UInt64 → List UInt64
  | 0, _ => []
  | k + 1, n => (n + n / 2) :: rises k (n + n / 2)

def climbing : List (OragamiVault.Action FreeKey) :=
  [OragamiVault.Cluster.opening, OragamiVault.Cluster.registry] ++
    (rises 86 10000).map OragamiVault.Cluster.setNav

open OragamiVault in
/-- An accepted update is one the guards accept of the vault's NAV. -/
theorem setNav_accepted {K : Type} [DecidableEq K] [Addresses K] [Deployment K] {now : Int64}
    {a : SetNav K} {nav : UInt64} {s : State K} {vs : VaultState K} {out : Outcome K}
    (hvs : s.vaultState = some vs) (h : setNav now a nav s = .ok out) :
    Accepts OragamiVault.navGuard vs.navPriceBps nav := by
  simp only [setNav, Anchor.bind_eq_ok, loadVaultState_eq_ok] at h
  obtain ⟨vs', ⟨-, hvs', -⟩, _, -, _, -, _, hguard, -⟩ := h
  cases hvs.symm.trans hvs'
  exact hguard

/-- Raised by half eighty-six times from par, or registered high enough, a NAV fits no longer,
and no update of it is accepted. -/
theorem guards_refuse_all :
    (∃ ts s vs, OragamiVault.Reaches OragamiVault.Cluster.ledger ts s ∧
      s.vaultState = some vs ∧ vs.navPriceBps = 13926450206209154302 ∧
      ∀ now a nav out, OragamiVault.setNav now a nav s ≠ .ok out) ∧
    (∃ ts s v, MultiAssetVault.Reaches MultiAssetVault.Cluster.ledger ts s ∧
      s.vaults (MultiAssetVault.assetVaultKey MultiAssetVault.Cluster.usdc) = some v ∧
      v.navPriceBps = 3689348814741911 ∧
      ∀ now a nav out, a.assetVault =
          MultiAssetVault.assetVaultKey MultiAssetVault.Cluster.usdc →
        MultiAssetVault.setNav now a nav s ≠ .ok out) := by
  constructor
  · obtain ⟨vs, hvs, hnav⟩ := Option.map_eq_some_iff.mp
      (show (OragamiVault.final (.genesis OragamiVault.Cluster.ledger) climbing).vaultState.map
        (·.navPriceBps) = some 13926450206209154302 by decide +kernel)
    refine ⟨_, _, vs, OragamiVault.Cluster.reaches_final (by decide +kernel), hvs, hnav, ?_⟩
    intro now a nav out hok
    have haccept := setNav_accepted hvs hok
    rw [hnav] at haccept
    exact oragamiVault_halfWhere.refuses (by decide) nav haccept
  · obtain ⟨v, hv, hnav⟩ := Option.map_eq_some_iff.mp
      (show ((MultiAssetVault.final (.genesis MultiAssetVault.Cluster.ledger)
        [MultiAssetVault.Cluster.factory, MultiAssetVault.Cluster.register
          MultiAssetVault.Cluster.usdc 3689348814741911]).vaults
            (MultiAssetVault.assetVaultKey MultiAssetVault.Cluster.usdc)).map (·.navPriceBps) =
        some 3689348814741911 by decide +kernel)
    refine ⟨_, _, v, MultiAssetVault.Cluster.reaches_final (by decide), hv, hnav, ?_⟩
    intro now a nav out hkey hok
    have haccept := MultiAssetVault.setNav_accepted (hkey ▸ hv) hok
    rw [hnav] at haccept
    exact multiAssetVault_halfWhere.refuses (by decide) nav haccept

/-! ## From one NAV to another -/

/-- Up to `2 ^ 40` updates lead from any NAV to any other in both programs, except from one. -/
theorem nav_leads_iff {n t : UInt64} (hn : 1 ≤ n) (hnl : n.toNat ≤ 2 ^ 40) (ht : 1 ≤ t)
    (htl : t.toNat ≤ 2 ^ 40) :
    (Leads OragamiVault.navGuard n t ↔ n ≠ 1 ∨ t = 1) ∧
      (Leads MultiAssetVault.navGuard n t ↔ n ≠ 1 ∨ t = 1) := by
  constructor
  · exact oragamiVault_halfWhere.leads_iff (2 ^ 40) (by decide) (fun hm => by omega)
      hn hnl ht htl
  · exact multiAssetVault_halfWhere.leads_iff (2 ^ 40) (by decide) (fun hm => by omega)
      hn hnl ht htl

theorem nav_leads_iff_two :
    Leads OragamiVault.navGuard 2 1000000000000 ∧
      Leads MultiAssetVault.navGuard 2 1000000000000 := by
  obtain ⟨hfirst, hsecond⟩ := nav_leads_iff (n := 2) (t := 1000000000000) (by decide) (by decide)
    (by decide) (by decide)
  exact ⟨hfirst.mpr (.inl (by decide)), hsecond.mpr (.inl (by decide))⟩

/-- One is reached from par, and from there not even two is. -/
theorem nav_trapped_at_one :
    (Leads OragamiVault.navGuard 10000 1 ∧ ¬ Leads OragamiVault.navGuard 1 2) ∧
      (Leads MultiAssetVault.navGuard 10000 1 ∧ ¬ Leads MultiAssetVault.navGuard 1 2) := by
  have hfirst := oragamiVault_halfWhere
  have hsecond := multiAssetVault_halfWhere
  refine ⟨⟨?_, fun hleads => ?_⟩, ⟨?_, fun hleads => ?_⟩⟩
  · exact hfirst.leads (2 ^ 40) (by decide) (fun hm => by omega) (by decide) (by decide)
      (by decide) (by decide)
  · exact absurd (hfirst.stuck hleads) (by decide)
  · exact hsecond.leads (2 ^ 40) (by decide) (fun hm => by omega) (by decide) (by decide)
      (by decide) (by decide)
  · exact absurd (hsecond.stuck hleads) (by decide)

end NavGuard
