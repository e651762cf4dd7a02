/-
# `Oragami.OragamiVault.Yield` — the yield crank and its schedule

`process_yield` accrues whole days and advances `last_yield_claim` by exactly
those; `distribute_yield` sets it to the present.  The two, called in any order
at any times, are the accrual account of `Accrual`, one day long.

`process_yield` carries the part of a day left over.  `distribute_yield` does
not: whatever part of a day had passed since the last claim is gone, and over a
schedule these parts add up to whole days nobody is paid for.
-/
import Oragami.Lib.Accrual
import Oragami.OragamiVault.Scenario

namespace OragamiVault

open Anchor Lts

variable {K : Type}

/-! ## The crank -/

/-- A call of the yield crank, with the clock's time. -/
inductive Crank (K : Type) where
  | process (now : Int64) (a : OperatorOnly K)
  | distribute (now : Int64) (a : OperatorOnly K)

namespace Crank

def now : Crank K → Int64
  | process now _ => now
  | distribute now _ => now

/-- The accrual event a call amounts to. -/
def event : Crank K → Accrual.Event
  | process now _ => .accrue now.toInt
  | distribute now _ => .collect now.toInt

@[simp] theorem event_now (c : Crank K) : c.event.now = c.now.toInt := by
  cases c <;> rfl

/-- The time since the last claim that a call drops: all of it, when there is yield to
distribute. -/
def dropped (s : State K) : Crank K → Int
  | process _ _ => 0
  | distribute now _ =>
      match s.vaultState with
      | some vs => if vs.pendingYield = 0 then 0 else now.toInt - vs.lastYieldClaim.toInt
      | none => 0

variable [DecidableEq K] [Addresses K] [Deployment K]

def exec : Crank K → State K → Ix (Outcome K)
  | process now a => processYield now a
  | distribute now a => distributeYield now a

/-- The state after a call, if it succeeds. -/
def apply (s : State K) (c : Crank K) : Option (State K) :=
  match c.exec s with
  | .ok (s', _) => some s'
  | .error _ => none

/-- The yield a call announces it distributed. -/
def distributed (s : State K) (c : Crank K) : Nat :=
  match c.exec s with
  | .ok (_, some (.yieldDistributed usdcYield _)) => usdcYield.toNat
  | _ => 0

end Crank

section Schedule

variable [DecidableEq K] [Addresses K] [Deployment K]

/-- A successful call of the crank. -/
def CrankStep (s : State K) (c : Crank K) (s' : State K) : Prop :=
  ∃ ev, c.exec s = .ok (s', ev)

/-- The yield distributed over a schedule. -/
def distributed (ts : List (Transition (State K) (Crank K))) : Nat :=
  (ts.map fun t => t.label.distributed t.pre).sum

end Schedule

/-- The calls of a schedule are at non-decreasing times. -/
def InOrder (ts : List (Transition (State K) (Crank K))) : Prop :=
  (ts.map fun t => t.label.now).Pairwise (· ≤ ·)

/-- The time dropped over a schedule. -/
def dropped (ts : List (Transition (State K) (Crank K))) : Int :=
  (ts.map fun t => t.label.dropped t.pre).sum

/-! ## The crank is an accrual account -/

/-- The account the vault state keeps of its yield. -/
def State.accrual (s : State K) : Accrual.Account :=
  match s.vaultState with
  | some vs => ⟨vs.pendingYield.toNat, vs.lastYieldClaim.toInt⟩
  | none => ⟨0, 0⟩

theorem accrual_of_some {s : State K} {vs : VaultState K} (hvs : s.vaultState = some vs) :
    s.accrual = ⟨vs.pendingYield.toNat, vs.lastYieldClaim.toInt⟩ := by
  unfold State.accrual
  rw [hvs]

theorem Crank.drops (s : State K) (c : Crank K) : c.dropped s = s.accrual.drops c.event := by
  cases c with
  | process now a => rfl
  | distribute now a =>
      rcases hvs : s.vaultState with _ | vs
      · simp [Crank.dropped, State.accrual, hvs, Crank.event, Accrual.Account.drops]
      · rw [accrual_of_some hvs]
        simp only [Crank.dropped, hvs, Crank.event, Accrual.Account.drops, Checked.eq_iff_toNat,
          UInt64.toNat_zero]

section Simulation

variable [DecidableEq K] [Addresses K] [Deployment K] {daily : UInt64} {s s' : State K}
  {c : Crank K}

/-- The vault's principal and rates are worth `daily` a day. -/
def Earns (daily : UInt64) (s : State K) : Prop :=
  ∃ vs, s.vaultState = some vs ∧ dailyYield vs = .ok daily

/-- Neither call touches the principal or the rates. -/
theorem CrankStep.earns (hs : Earns daily s) (h : CrankStep s c s') : Earns daily s' := by
  obtain ⟨vs, hvs, hdaily⟩ := hs
  obtain ⟨ev, hexec⟩ := h
  cases c with
  | process now a =>
      obtain ⟨-, vs', pending, claim, hp⟩ := processYield_spec hexec
      cases hvs.symm.trans hp.vaultState
      rw [hp.state]
      exact ⟨_, rfl, hdaily⟩
  | distribute now a =>
      obtain ⟨vs', hvs', ⟨-, rfl, -⟩ | ⟨-, rfl, -⟩⟩ := distributeYield_spec hexec
      · exact ⟨vs, hvs, hdaily⟩
      · cases hvs.symm.trans hvs'
        exact ⟨_, rfl, hdaily⟩

theorem CrankStep.accrues (hs : Earns daily s) (h : CrankStep s c s') :
    Accrual.Step 86400 daily.toNat s.accrual c.event s'.accrual := by
  obtain ⟨vs, hvs, hdaily⟩ := hs
  obtain ⟨ev, hexec⟩ := h
  rw [accrual_of_some hvs]
  cases c with
  | process now a =>
      obtain ⟨-, vs', pending, claim, hp⟩ := processYield_spec hexec
      cases hvs.symm.trans hp.vaultState
      rw [hp.state, Accrual.Step, accrual_of_some rfl]
      simp only [Crank.event, Accrual.Account.apply, hp.pending daily hdaily, hp.claim, fullDays]
  | distribute now a =>
      obtain ⟨vs', hvs', ⟨hzero, rfl, -⟩ | ⟨hne, rfl, -⟩⟩ := distributeYield_spec hexec
      · cases hvs.symm.trans hvs'
        rw [accrual_of_some hvs, hzero]
        rfl
      · cases hvs.symm.trans hvs'
        have hpos : vs.pendingYield.toNat ≠ 0 := fun h => hne (Checked.eq_iff_toNat.mpr h)
        simp only [Accrual.Step, Crank.event, Accrual.Account.apply, if_neg hpos]
        rfl

theorem CrankStep.collects (h : CrankStep s c s') :
    c.distributed s = s.accrual.collects c.event := by
  obtain ⟨ev, hexec⟩ := h
  unfold Crank.distributed
  rw [hexec]
  cases c with
  | process now a =>
      obtain ⟨rfl, -⟩ := processYield_spec hexec
      rfl
  | distribute now a =>
      obtain ⟨vs, hvs, ⟨hzero, -, rfl⟩ | ⟨-, -, rfl⟩⟩ := distributeYield_spec hexec
      · rw [accrual_of_some hvs, hzero]
        rfl
      · rw [accrual_of_some hvs]
        rfl

end Simulation

/-! ## Schedules -/

section Schedule

variable {s₀ s : State K} {ts : List (Transition (State K) (Crank K))}
  {t : Transition (State K) (Crank K)}

/-- A schedule of the crank, as a run of the accrual account. -/
def asAccrual (ts : List (Transition (State K) (Crank K))) :
    List (Transition Accrual.Account Accrual.Event) :=
  ts.map (·.map State.accrual fun t => t.label.event)

theorem asAccrual_snoc : asAccrual (ts ++ [t]) =
    asAccrual ts ++ [t.map State.accrual fun t => t.label.event] := by
  simp [asAccrual]

theorem dropped_asAccrual : Accrual.dropped (asAccrual ts) = dropped ts := by
  unfold Accrual.dropped dropped asAccrual
  rw [List.map_map]
  congr 1
  refine List.map_congr_left ?_
  intro t _
  exact (t.label.drops t.pre).symm

variable [DecidableEq K] [Addresses K] [Deployment K] {daily : UInt64}

theorem asAccrual_run (hs : Earns daily s₀) (h : Run CrankStep s₀ ts s) :
    Run (Accrual.Step 86400 daily.toNat) s₀.accrual (asAccrual ts) s.accrual :=
  h.simulate hs CrankStep.earns CrankStep.accrues

theorem collected_asAccrual (h : Run CrankStep s₀ ts s) :
    Accrual.collected (asAccrual ts) = distributed ts := by
  unfold Accrual.collected distributed asAccrual
  rw [List.map_map]
  congr 1
  refine List.map_congr_left ?_
  intro t ht
  exact (h.of_mem ht).2.collects.symm

/-- Over a schedule ending with `process_yield`, every full day since the last claim is
paid for exactly when nothing accrues in a day, or the time the distributions drop leaves
the number of full days as it was. -/
theorem yield_schedule {vs₀ vs : VaultState K} {T : Int64}
    {a : OperatorOnly K} (h : Run CrankStep s₀ (ts ++ [t]) s)
    (htimes : InOrder (ts ++ [t])) (hlast : t.label = .process T a)
    (hvs₀ : s₀.vaultState = some vs₀) (hvs : s.vaultState = some vs)
    (hdaily : dailyYield vs₀ = .ok daily) (hT : vs₀.lastYieldClaim ≤ T) :
    distributed (ts ++ [t]) + vs.pendingYield.toNat = vs₀.pendingYield.toNat +
        daily.toNat * fullDays vs₀.lastYieldClaim.toInt T.toInt ↔
      daily = 0 ∨ fullDays (vs₀.lastYieldClaim.toInt + dropped (ts ++ [t])) T.toInt =
        fullDays vs₀.lastYieldClaim.toInt T.toInt := by
  have hrun := asAccrual_run ⟨vs₀, hvs₀, hdaily⟩ h
  have hevent : (t.map State.accrual fun t => t.label.event).label = .accrue T.toInt := by
    simp only [Transition.map, hlast]
    rfl
  have hbefore : ∀ u ∈ asAccrual ts, u.label.now ≤ T.toInt := by
    intro u hu
    obtain ⟨v, hv, rfl⟩ := List.mem_map.mp hu
    rw [InOrder, List.pairwise_map, List.pairwise_append] at htimes
    have hle := htimes.2.2 v hv t List.mem_cons_self
    rw [hlast, Int64.le_iff_toInt_le] at hle
    rw [Transition.map, Crank.event_now]
    exact hle
  rw [← collected_asAccrual h, ← dropped_asAccrual, Checked.eq_iff_toNat]
  rw [accrual_of_some hvs₀, accrual_of_some hvs] at hrun
  rw [asAccrual_snoc] at hrun ⊢
  exact Accrual.lossless_iff (by decide) hrun hevent hbefore (Int64.le_iff_toInt_le.mp hT)

end Schedule

/-! ### A schedule -/

namespace Cluster

def crank : OperatorOnly FreeKey := { vaultState := vaultStateKey, operator := admin }

/-- A vault that earns ten a day. -/
def earning : List (Action FreeKey) :=
  setUp ++ [.program 0 (configure none
    { unset with usxAllocationBps := some 10000, apyBps := some 10000 }), deposit 3650]

def earningState : State FreeKey := final (.genesis ledger) earning

/-- Calls of the crank on it, the refused ones left out. -/
def schedule (cs : List (Crank FreeKey)) : List (Transition (State FreeKey) (Crank FreeKey)) :=
  Lts.play Crank.apply earningState cs

def scheduleEnd (cs : List (Crank FreeKey)) : State FreeKey := Lts.final Crank.apply earningState cs

theorem step_of_apply {s s' : State FreeKey} {c : Crank FreeKey} (h : c.apply s = some s') :
    CrankStep s c s' := by
  unfold Crank.apply at h
  split at h
  · next hexec =>
      cases h
      exact ⟨_, hexec⟩
  · cases h

theorem schedule_run {cs : List (Crank FreeKey)} {c : Crank FreeKey} {s' : State FreeKey}
    (h : c.apply (scheduleEnd cs) = some s') :
    Run CrankStep earningState (schedule cs ++ [⟨scheduleEnd cs, c, s'⟩]) s' := by
  have hrun : Run CrankStep earningState (schedule cs) (scheduleEnd cs) := by
    refine Lts.play_run (P := fun _ => True) ?_ (fun _ _ => trivial) earningState
    intro s c s' hs _
    exact step_of_apply hs
  exact hrun.snoc (step_of_apply h)

end Cluster

open Cluster in
/-- Two accruals a day apart, with a distribution right after the first: twenty. -/
theorem yield_schedule_daily :
    ∃ ts s vs₀ vs, Run CrankStep earningState ts s ∧ earningState.vaultState = some vs₀ ∧
      s.vaultState = some vs ∧ distributed ts + vs.pendingYield.toNat =
        vs₀.pendingYield.toNat + 10 * fullDays vs₀.lastYieldClaim.toInt 172800 := by
  obtain ⟨s, hs⟩ := Option.isSome_iff_exists.mp (show ((Crank.process 172800 crank).apply
    (scheduleEnd [.process 86400 crank, .distribute 86400 crank])).isSome = true from rfl)
  have hrun := schedule_run hs
  obtain ⟨vs₀, hvs₀, hfields⟩ := Option.map_eq_some_iff.mp
    (show earningState.vaultState.map (fun vs => (dailyYield vs, vs.lastYieldClaim)) =
      some (.ok 10, 0) from rfl)
  obtain ⟨hdaily, hclaim⟩ := Prod.mk.inj hfields
  obtain ⟨vs, hvs⟩ : ∃ vs, s.vaultState = some vs := by
    cases hs
    exact ⟨_, rfl⟩
  refine ⟨_, s, vs₀, vs, hrun, hvs₀, hvs, ?_⟩
  refine (yield_schedule hrun ?_ rfl hvs₀ hvs hdaily ?_).mpr (.inr ?_)
  · show ([86400, 86400, 172800] : List Int64).Pairwise (· ≤ ·)
    decide
  · rw [hclaim]
    decide
  · rw [hclaim]
    rfl

open Cluster in
/-- A day and a half, a distribution, half a day more: two days since the last claim, ten
instead of twenty. -/
theorem yield_schedule_half_days :
    ∃ us ts t s vs₀ vs T a daily, Reaches ledger us earningState ∧
      Run CrankStep earningState (ts ++ [t]) s ∧
      InOrder (ts ++ [t]) ∧ t.label = .process T a ∧
      earningState.vaultState = some vs₀ ∧ s.vaultState = some vs ∧
      dailyYield vs₀ = .ok daily ∧ vs₀.lastYieldClaim ≤ T ∧
      distributed (ts ++ [t]) + vs.pendingYield.toNat ≠ vs₀.pendingYield.toNat +
        daily.toNat * fullDays vs₀.lastYieldClaim.toInt T.toInt := by
  obtain ⟨s, hs⟩ := Option.isSome_iff_exists.mp (show ((Crank.process 172800 crank).apply
    (scheduleEnd [.process 129600 crank, .distribute 129600 crank])).isSome = true from rfl)
  have hrun := schedule_run hs
  obtain ⟨vs₀, hvs₀, hfields⟩ := Option.map_eq_some_iff.mp
    (show earningState.vaultState.map
      (fun vs => (dailyYield vs, vs.lastYieldClaim, vs.pendingYield)) = some (.ok 10, 0, 0) from rfl)
  simp only [Prod.mk.injEq] at hfields
  obtain ⟨hdaily, hclaim, hpending⟩ := hfields
  obtain ⟨vs, hvs, hnone⟩ : ∃ vs, s.vaultState = some vs ∧ vs.pendingYield = 0 := by
    cases hs
    exact ⟨_, rfl, rfl⟩
  refine ⟨_, _, _, s, vs₀, vs, 172800, crank, 10, reaches_final (by decide), hrun, ?_, rfl, hvs₀,
    hvs, hdaily, ?_, ?_⟩
  · show ([129600, 129600, 172800] : List Int64).Pairwise (· ≤ ·)
    decide
  · rw [hclaim]
    decide
  · rw [hclaim, hpending, hnone]
    exact (by decide : (10 : Nat) + 0 ≠ 0 + 10 * fullDays 0 172800)

/-! ## Days already past -/

/-- The instructions that change the principal or the rates. -/
def Call.Reprices : Call K → Prop
  | .deposit _ _ | .redeem _ _ | .redeemTradeable _ _ _ | .updateConfig _ _ => True
  | _ => False

section Repricing

variable [DecidableEq K] [Addresses K] [Deployment K] [TokenProgram K] {now : Int64}
  {s s' : State K} {ev : Option (Event K)} {c : Call K} {vs : VaultState K}

/-- They leave the yield accrued so far, and the day it was accrued to, alone. -/
theorem reprices_accrual (hc : c.Reprices) (hvs : s.vaultState = some vs)
    (h : c.exec now s = .ok (s', ev)) :
    ∃ vs', s'.vaultState = some vs' ∧ vs'.pendingYield = vs.pendingYield ∧
      vs'.lastYieldClaim = vs.lastYieldClaim := by
  cases c with
  | deposit a amount =>
      obtain ⟨vs', cred, shares, L, hd⟩ := deposit_spec h
      obtain ⟨-, hstored, -⟩ := loadVaultState_eq_ok.mp hd.vaultState
      cases hvs.symm.trans hstored
      obtain ⟨deposits, supply, -, -, hs'⟩ := hd.totals
      exact ⟨_, hs', rfl, rfl⟩
  | redeem a x =>
      obtain ⟨vs', usdc, supply, L, L', hr, hs⟩ := redeem_eq_ok.mp h
      obtain ⟨-, hstored, -⟩ := loadVaultState_eq_ok.mp hr.vaultState
      cases hvs.symm.trans hstored
      cases hs
      exact ⟨_, rfl, rfl, rfl⟩
  | redeemTradeable a x mode =>
      cases mode with
      | true =>
          obtain ⟨vs', L, L', hu, hm, hs⟩ := rewrap_eq_ok.mp h
          cases hs
          exact ⟨vs, hvs, rfl, rfl⟩
      | false =>
          obtain ⟨vs', usdc, deposits, supply, L, L', hu, hp, hs⟩ := payOut_eq_ok.mp h
          obtain ⟨-, hstored, -⟩ := loadVaultState_eq_ok.mp hu.vaultState
          cases hvs.symm.trans hstored
          cases hs
          exact ⟨_, rfl, rfl, rfl⟩
  | updateConfig a p =>
      obtain ⟨vs', hstored, rfl, -⟩ := updateConfig_spec h
      cases hvs.symm.trans hstored
      exact ⟨_, rfl, rfl, rfl⟩
  | _ => exact hc.elim

/-- The full days since the last claim are paid at the principal and rates in force when
`process_yield` runs: before a change at the old ones, after it at the new ones. -/
theorem past_days_repriced {p p' q q' : State K} {a a' : OperatorOnly K}
    {ev₁ ev₂ ev₃ ev₄ : Option (Event K)} (hc : c.Reprices) (hvs : s.vaultState = some vs)
    (hdays : fullDays vs.lastYieldClaim.toInt now.toInt ≠ 0)
    (hp : processYield now a s = .ok (p, ev₁)) (hp' : c.exec now p = .ok (p', ev₂))
    (hq : c.exec now s = .ok (q, ev₃)) (hq' : processYield now a' q = .ok (q', ev₄)) :
    ∃ vsq vsp' vsq' daily daily', q.vaultState = some vsq ∧ p'.vaultState = some vsp' ∧
      q'.vaultState = some vsq' ∧ dailyYield vs = .ok daily ∧ dailyYield vsq = .ok daily' ∧
      vsp'.pendingYield.toNat = vs.pendingYield.toNat +
        daily.toNat * fullDays vs.lastYieldClaim.toInt now.toInt ∧
      vsq'.pendingYield.toNat = vs.pendingYield.toNat +
        daily'.toNat * fullDays vs.lastYieldClaim.toInt now.toInt ∧
      (vsp'.pendingYield = vsq'.pendingYield ↔ daily = daily') := by
  obtain ⟨-, vs₁, pending, claim, hfirst⟩ := processYield_spec hp
  cases hvs.symm.trans hfirst.vaultState
  have hvsp : p.vaultState =
      some { vs with pendingYield := pending, lastYieldClaim := claim } := by
    rw [hfirst.state]
  obtain ⟨vsp', hvsp', hpending', -⟩ := reprices_accrual hc hvsp hp'
  obtain ⟨vsq, hvsq, hpendingq, hclaimq⟩ := reprices_accrual hc hvs hq
  obtain ⟨-, vs₂, pending', claim', hsecond⟩ := processYield_spec hq'
  cases hvsq.symm.trans hsecond.vaultState
  obtain ⟨daily, hdaily⟩ := hfirst.priced hdays
  obtain ⟨daily', hdaily'⟩ := hsecond.priced (by rwa [hclaimq])
  have hbefore := hfirst.pending daily hdaily
  have hafter := hsecond.pending daily' hdaily'
  rw [hpendingq, hclaimq] at hafter
  refine ⟨vsq, vsp', _, daily, daily', hvsq, hvsp', by rw [hsecond.state], hdaily, hdaily', ?_,
    hafter, ?_⟩
  · rw [hpending']
    exact hbefore
  · rw [hpending', Checked.eq_iff_toNat, Checked.eq_iff_toNat, hbefore, hafter,
      Nat.add_left_cancel_iff]
    exact Nat.mul_left_inj hdays

end Repricing

namespace Cluster

/-- The rate goes to zero. -/
def cutApy : Call FreeKey := configure none { unset with apyBps := some 0 }

/-- The earning vault a day on: accrued, and then cut. -/
def accruedState : State FreeKey := final earningState [.program 86400 (.processYield crank)]

def accruedCutState : State FreeKey := final accruedState [.program 86400 cutApy]

/-- The earning vault a day on: cut, and then accrued. -/
def cutState : State FreeKey := final earningState [.program 86400 cutApy]

def cutAccruedState : State FreeKey := final cutState [.program 86400 (.processYield crank)]

end Cluster

open Cluster in
theorem past_days_repriced_cut :
    ∃ vs vsp' vsq' daily, earningState.vaultState = some vs ∧
      accruedCutState.vaultState = some vsp' ∧ cutAccruedState.vaultState = some vsq' ∧
      dailyYield vs = .ok daily ∧ vsp'.pendingYield.toNat = vs.pendingYield.toNat +
        daily.toNat * fullDays vs.lastYieldClaim.toInt 86400 := by
  obtain ⟨vs, hvs, hclaim⟩ := Option.map_eq_some_iff.mp
    (show earningState.vaultState.map (·.lastYieldClaim) = some 0 from rfl)
  have hdays : fullDays vs.lastYieldClaim.toInt (86400 : Int64).toInt ≠ 0 := by
    rw [hclaim]
    decide
  have haccrued : processYield 86400 crank earningState = .ok (accruedState, none) := rfl
  have haccruedCut : cutApy.exec 86400 accruedState = .ok (accruedCutState, none) := rfl
  have hcut : cutApy.exec 86400 earningState = .ok (cutState, none) := rfl
  have hcutAccrued : processYield 86400 crank cutState = .ok (cutAccruedState, none) := rfl
  obtain ⟨-, vsp', vsq', daily, -, -, hp, hq, hdaily, -, hpending, -, -⟩ :=
    past_days_repriced (c := cutApy) trivial hvs hdays haccrued haccruedCut hcut hcutAccrued
  exact ⟨vs, vsp', vsq', daily, hvs, hp, hq, hdaily, hpending⟩

open Cluster in
/-- A day's yield, there if accrued before the cut and gone if after. -/
theorem past_day_unpaid :
    ∃ ts vs vsp' vsq', Reaches ledger ts earningState ∧ earningState.vaultState = some vs ∧
      fullDays vs.lastYieldClaim.toInt 86400 ≠ 0 ∧ cutApy.Reprices ∧
      processYield 86400 crank earningState = .ok (accruedState, none) ∧
      cutApy.exec 86400 accruedState = .ok (accruedCutState, none) ∧
      cutApy.exec 86400 earningState = .ok (cutState, none) ∧
      processYield 86400 crank cutState = .ok (cutAccruedState, none) ∧
      accruedCutState.vaultState = some vsp' ∧ cutAccruedState.vaultState = some vsq' ∧
      vsp'.pendingYield ≠ vsq'.pendingYield := by
  obtain ⟨vs, hvs, hclaim⟩ := Option.map_eq_some_iff.mp
    (show earningState.vaultState.map (·.lastYieldClaim) = some 0 from rfl)
  obtain ⟨vsp', hp, hten⟩ := Option.map_eq_some_iff.mp
    (show accruedCutState.vaultState.map (·.pendingYield) = some 10 from rfl)
  obtain ⟨vsq', hq, hzero⟩ := Option.map_eq_some_iff.mp
    (show cutAccruedState.vaultState.map (·.pendingYield) = some 0 from rfl)
  refine ⟨_, vs, vsp', vsq', reaches_final (by decide), hvs, ?_, trivial, rfl, rfl, rfl, rfl, hp, hq,
    ?_⟩
  · rw [hclaim]
    decide
  · rw [hten, hzero]
    decide

end OragamiVault
