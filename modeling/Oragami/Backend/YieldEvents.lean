/-
# `Oragami.Backend.YieldEvents` — the yield the backend records

After `process_yield` the crank reads the vault state again and records what it finds
pending as what was accrued, and the days since the last claim as the days credited.  But
what is pending has been piling up since the last distribution, and the last claim is the
one `process_yield` has just moved.  A row is right if and only if nothing was pending
before and the clock has meanwhile gone as far past the new claim again
(`yieldEvents_exact_iff`); where it was read within the day, no yield was accrued at all.
-/
import Oragami.Backend.NavRuns

namespace Backend

open Idl Lts OragamiVault

/-- `totalYieldDistributed` of `VaultService.stats`. -/
def totalYieldDistributed (rows : List YieldEvent) : Int := (rows.map (·.yieldAccrued)).sum

section Tick

variable {K : Type} [DecidableEq K] [Addresses K] [Deployment K] [TokenProgram K]
  (client : CrankClient K) (t : Tick K) (w : CrankWorld K)

/-- `set_nav` as the run sends it. -/
def Tick.navSent : Option String × Timeline K :=
  t.setNav.rpc (.setNav client.setNav (navArg (t.prepared w).newNavBps)) (t.begun w).chain

/-- The run gets to `tickYield`. -/
def Tick.Yields : Prop :=
  (t.prepared w).decision = .setNav ∧ (t.navSent client w).1.isSome = true

def yieldCall : Call K := .processYield ⟨vaultStateKey, client.authority⟩

/-- The chain just before the run's own `process_yield`, -/
def Tick.yieldFrom : Timeline K := (t.navSent client w).2.executeAll t.processYield.others

/-- and just after. -/
def Tick.yieldTo : Timeline K :=
  (t.yieldFrom client w).execute (.program t.processYield.clock (yieldCall client))

/-- The days it credits. -/
def Tick.credited : Nat :=
  fullDays (t.yieldFrom client w).state.accrual.since t.processYield.clock.toInt

/-- `process_yield` succeeds, and what it leaves is read and recorded before anybody else touches
the yield. -/
structure Tick.Served : Prop where
  processed : (t.processYield.rpc (yieldCall client) (t.navSent client w).2).1.isSome = true
  others : ∀ act ∈ t.reread.others, act.isYield = false
  answered : t.reread.answered = true
  recorded : t.yieldEvent = true

/-- Nothing was pending, and once the yield is read the clock is as many days past the claim as
were credited. -/
structure Tick.Fresh : Prop where
  pending : (t.yieldFrom client w).state.accrual.pending = 0
  clock : daysSince (Js.number ((t.yieldFrom client w).state.accrual.since +
    86400 * t.credited client w)) t.countedAt = t.credited client w

/-- The row says what `process_yield` did. -/
def Tick.Right (row : YieldEvent) : Prop :=
  row.yieldAccrued = (t.yieldTo client w).state.accrual.pending -
      (t.yieldFrom client w).state.accrual.pending ∧
    row.daysElapsed = t.credited client w

variable {client t w}

/-- `process_yield`, executed, moves the claim by the days it credits and accrues what is more
pending than before. -/
structure Tick.Processed (client : CrankClient K) (t : Tick K) (w : CrankWorld K) : Prop where
  rpc : t.processYield.rpc (yieldCall client) (t.navSent client w).2 =
    (t.processYield.confirmation, t.yieldTo client w)
  vaultState : ∃ vs, (t.yieldTo client w).state.vaultState = some vs
  since : (t.yieldTo client w).state.accrual.since =
    (t.yieldFrom client w).state.accrual.since + 86400 * t.credited client w
  accrued : (t.yieldTo client w).accrued = (t.yieldFrom client w).accrued +
    ((t.yieldTo client w).state.accrual.pending - (t.yieldFrom client w).state.accrual.pending)

theorem processed_of_isSome
    (h : (t.processYield.rpc (yieldCall client) (t.navSent client w).2).1.isSome = true) :
    t.Processed client w := by
  rcases t.processYield.rpc_cases (yieldCall client) (t.navSent client w).2 with
    hnone | ⟨s, ev, hexec, hrpc⟩
  · rw [hnone] at h
    cases h
  · have happly : (Action.program t.processYield.clock (yieldCall client)).apply
        ((t.navSent client w).2.executeAll t.processYield.others).state = some s := by
      simp only [Action.apply, hexec]
    have hto : t.yieldTo client w = ⟨s, (t.yieldFrom client w).history ++
        [⟨(t.yieldFrom client w).state, _, s⟩]⟩ := execute_some happly
    obtain ⟨-, vs, pending, claim, hp⟩ := processYield_spec hexec
    have hfrom : (t.yieldFrom client w).state.accrual = ⟨vs.pendingYield.toNat,
        vs.lastYieldClaim.toInt⟩ := accrual_of_some hp.vaultState
    have hs : s.vaultState = some { vs with pendingYield := pending, lastYieldClaim := claim } := by
      rw [hp.state]
    refine ⟨hrpc, ⟨_, by rw [hto]; exact hs⟩, ?_, ?_⟩
    · rw [Tick.credited, hfrom, hto, accrual_of_some hs]
      exact hp.claim
    · rw [hto]
      simp [Timeline.accrued, accruedBy, yieldCall]

omit [DecidableEq K] [Addresses K] [Deployment K] [TokenProgram K] in
theorem recordSnapshot_yieldEvents (row : NavSnapshot) :
    (recordSnapshot t row w).yieldEvents = w.yieldEvents := by
  unfold recordSnapshot
  split <;> rfl

variable (client t w) in
/-- Once `set_nav` is confirmed the run ticks the yield, and else it does not. -/
theorem published_eq :
    ((t.navSent client w).1.isSome = true ∧ ∃ navBefore navAfter alloc e fields,
      (t.published client w).2 = tickYield client t navBefore navAfter alloc e
        { t.begun w with chain := (t.navSent client w).2, fields }) ∨
    ((t.navSent client w).1.isSome = false ∧
      (t.published client w).2 = { t.begun w with chain := (t.navSent client w).2 }) := by
  unfold Tick.navSent Tick.published publish
  simp only
  generalize t.setNav.rpc (.setNav client.setNav (navArg (t.prepared w).newNavBps))
    (t.begun w).chain = sent
  obtain ⟨_ | tx, chain⟩ := sent
  · exact .inr ⟨rfl, rfl⟩
  · exact .inl ⟨rfl, _, _, _, _, _, rfl⟩

theorem published_confirmed (h : (t.navSent client w).1.isSome = true) :
    ∃ navBefore navAfter alloc e fields, (t.published client w).2 =
      tickYield client t navBefore navAfter alloc e
        { t.begun w with chain := (t.navSent client w).2, fields } := by
  rcases published_eq client t w with ⟨-, hticked⟩ | ⟨hno, -⟩
  · exact hticked
  · cases h.symm.trans hno

theorem published_unconfirmed (h : (t.navSent client w).1.isSome = false) :
    (t.published client w).2 = { t.begun w with chain := (t.navSent client w).2 } := by
  rcases published_eq client t w with ⟨hyes, -⟩ | ⟨-, hkept⟩
  · cases h.symm.trans hyes
  · exact hkept

/-- The row of a run that was served has what is pending after all. -/
theorem served_row (hyields : t.Yields client w) (hserved : t.Served client w) :
    (updateNav client t w).2.chain = (t.yieldTo client w).executeAll t.reread.others ∧
    ∃ row, (updateNav client t w).2.yieldEvents = w.yieldEvents ++ [row] ∧
      row.yieldAccrued = ((t.yieldTo client w).state.accrual.pending : Int) ∧
      row.daysElapsed =
        daysSince (Js.number (t.yieldTo client w).state.accrual.since) t.countedAt := by
  have hprocessed := processed_of_isSome hserved.processed
  obtain ⟨audit, hsent⟩ := updateNav_sent client t w hyields.1
  obtain ⟨navBefore, navAfter, alloc, e, fields, hpublished⟩ := published_confirmed hyields.2
  obtain ⟨tx, htx⟩ := Option.isSome_iff_exists.mp hserved.processed
  have hconfirmed : t.processYield.confirmation = some tx := by
    rw [hprocessed.rpc] at htx
    exact htx
  have haccrual : Timeline.HasAccrual (t.yieldTo client w).state.accrual
      ((t.yieldTo client w).executeAll t.reread.others) :=
    executeAll_accrual ⟨hprocessed.vaultState, rfl⟩ hserved.others
  obtain ⟨⟨vs, hvs⟩, hsame⟩ := haccrual
  have hread : t.reread.vaultState (t.yieldTo client w) =
      (some (record (Stored.values ((vaultStateStored vs).take 21))),
        (t.yieldTo client w).executeAll t.reread.others) := by
    show (if t.reread.answered then fetchVaultState _ else none, _) = _
    rw [if_pos hserved.answered, fetchVaultState_eq, hvs]
    rfl
  have htick : (t.published client w).2 = recordYieldEvent t
      (yieldRow (record (Stored.values ((vaultStateStored vs).take 21))) t alloc navBefore navAfter e)
      { t.begun w with chain := (t.yieldTo client w).executeAll t.reread.others, fields } := by
    have hrpc : t.processYield.rpc (.processYield ⟨vaultStateKey, client.authority⟩)
        (t.navSent client w).2 = (t.processYield.confirmation, t.yieldTo client w) := hprocessed.rpc
    rw [hpublished]
    simp only [tickYield, hrpc, hconfirmed, hread]
  have hstored : (t.yieldTo client w).state.accrual = ⟨vs.pendingYield.toNat,
      vs.lastYieldClaim.toInt⟩ := hsame.symm.trans (accrual_of_some hvs)
  rw [hsent, htick, recordYieldEvent, if_pos hserved.recorded]
  refine ⟨recordSnapshot_chain .., _, recordSnapshot_yieldEvents _, ?_, ?_⟩
  · rw [hstored]
    rfl
  · rw [hstored]
    rfl

/-- Nobody but the crank processes yield during the run. -/
def Tick.SoleAccrual (t : Tick K) : Prop := ∀ act ∈ t.others, act.isProcessYield = false

omit [DecidableEq K] [Addresses K] [Deployment K] [TokenProgram K] in
theorem Tick.SoleAccrual.parts (h : t.SoleAccrual) :
    (∀ act ∈ t.read.others, act.isProcessYield = false) ∧
      (∀ act ∈ t.setNav.others, act.isProcessYield = false) ∧
      (∀ act ∈ t.processYield.others, act.isProcessYield = false) ∧
      ∀ act ∈ t.reread.others, act.isProcessYield = false := by
  simp only [Tick.SoleAccrual, Tick.others, List.forall_mem_append] at h
  exact ⟨h.1.1.1, h.1.1.2, h.1.2, h.2⟩

theorem begun_accrued (h : t.SoleAccrual) : (t.begun w).chain.accrued = w.chain.accrued :=
  executeAll_accrued h.parts.1

theorem navSent_accrued (h : t.SoleAccrual) :
    (t.navSent client w).2.accrued = w.chain.accrued := by
  have hothers : ((t.begun w).chain.executeAll t.setNav.others).accrued = w.chain.accrued :=
    (executeAll_accrued h.parts.2.1).trans (begun_accrued h)
  unfold Tick.navSent
  rcases t.setNav.rpc_cases (.setNav client.setNav (navArg (t.prepared w).newNavBps))
    (t.begun w).chain with hrpc | ⟨_, _, -, hrpc⟩
  · rw [hrpc]
    exact hothers
  · rw [hrpc]
    exact (execute_accrued rfl).trans hothers

/-- A run that does not get to the yield records and accrues none. -/
theorem updateNav_unyielded (hyields : ¬ t.Yields client w) (hsole : t.SoleAccrual) :
    (updateNav client t w).2.yieldEvents = w.yieldEvents ∧
      (updateNav client t w).2.chain.accrued = w.chain.accrued := by
  by_cases hdecision : (t.prepared w).decision = .setNav
  · have hunconfirmed : (t.navSent client w).1.isSome = false := by
      rw [← Bool.not_eq_true]
      exact fun hsome => hyields ⟨hdecision, hsome⟩
    obtain ⟨audit, hsent⟩ := updateNav_sent client t w hdecision
    rw [hsent, published_unconfirmed hunconfirmed]
    refine ⟨recordSnapshot_yieldEvents _, ?_⟩
    show (recordSnapshot t _ _).chain.accrued = _
    rw [recordSnapshot_chain]
    exact navSent_accrued hsole
  · rcases updateNav_held client t w hdecision with h | h
    · rw [h]
      exact ⟨rfl, begun_accrued hsole⟩
    · rw [h, recordSnapshot_chain]
      exact ⟨recordSnapshot_yieldEvents _, begun_accrued hsole⟩

/-- The row of a run that was served is right just if the run was fresh. -/
theorem right_iff_fresh (hserved : t.Served client w) {row : YieldEvent}
    (hyield : row.yieldAccrued = ((t.yieldTo client w).state.accrual.pending : Int))
    (hdays : row.daysElapsed =
      daysSince (Js.number (t.yieldTo client w).state.accrual.since) t.countedAt) :
    t.Right client w row ↔ t.Fresh client w := by
  have hsince := (processed_of_isSome hserved.processed).since
  rw [hsince] at hdays
  unfold Tick.Right
  rw [hyield, hdays]
  constructor
  · rintro ⟨hpending, hclock⟩
    exact ⟨by omega, hclock⟩
  · rintro ⟨hpending, hclock⟩
    exact ⟨by omega, hclock⟩

end Tick

/-! ## Over a run of the crank -/

section Runs

variable {K : Type} [DecidableEq K] [Addresses K] [Deployment K] [TokenProgram K]
  (client : CrankClient K)

/-- Nobody but the crank processes yield, and where it does it is served. -/
def YieldServed (t : CrankTransition K) : Prop :=
  match t.label with
  | .tick tick => tick.SoleAccrual ∧ (tick.Yields client t.pre → tick.Served client t.pre)
  | .act a => a.isProcessYield = false

/-- A row recorded is right. -/
def RowRight (t : CrankTransition K) : Prop :=
  match t.label with
  | .tick tick =>
      ∀ row, t.post.yieldEvents = t.pre.yieldEvents ++ [row] → tick.Right client t.pre row
  | .act _ => True

/-- A run that gets to the yield is fresh. -/
def YieldFresh (t : CrankTransition K) : Prop :=
  match t.label with
  | .tick tick => tick.Yields client t.pre → tick.Fresh client t.pre
  | .act _ => True

variable {client} {w w' : CrankWorld K} {e : CrankEvent K}

theorem CrankStep.right_iff_fresh (h : CrankStep client w e w')
    (hserved : YieldServed client ⟨w, e, w'⟩) :
    RowRight client ⟨w, e, w'⟩ ↔ YieldFresh client ⟨w, e, w'⟩ := by
  cases h with
  | act => exact Iff.rfl
  | @tick t _ =>
      obtain ⟨hsole, hserved⟩ := hserved
      by_cases hyields : t.Yields client w
      · obtain ⟨-, row, hrows, hyield, hdays⟩ := served_row hyields (hserved hyields)
        have hiff := Backend.right_iff_fresh (hserved hyields) hyield hdays
        constructor
        · intro hright _
          exact hiff.mp (hright row hrows)
        · intro hfresh row' hrows'
          have hrow : row = row' := by
            have happend := hrows.symm.trans hrows'
            exact List.singleton_inj.mp (List.append_cancel_left happend)
          rw [← hrow]
          exact hiff.mpr (hfresh hyields)
      · refine ⟨fun _ hyes => absurd hyes hyields, fun _ row hrows => ?_⟩
        -- no row is recorded
        have hsame : w.yieldEvents = w.yieldEvents ++ [row] :=
          (updateNav_unyielded hyields hsole).1.symm.trans hrows
        have hlength := congrArg List.length hsame
        simp at hlength

theorem CrankStep.totalYield (h : CrankStep client w e w')
    (hserved : YieldServed client ⟨w, e, w'⟩) (hfresh : YieldFresh client ⟨w, e, w'⟩) :
    totalYieldDistributed w'.yieldEvents - totalYieldDistributed w.yieldEvents =
      w'.chain.accrued - w.chain.accrued := by
  cases h with
  | act =>
      show totalYieldDistributed w.yieldEvents - totalYieldDistributed w.yieldEvents =
        (w.chain.execute _).accrued - w.chain.accrued
      rw [execute_accrued hserved]
      omega
  | @tick t _ =>
      obtain ⟨hsole, hserved⟩ := hserved
      by_cases hyields : t.Yields client w
      · obtain ⟨hchain, row, hrows, hyield, -⟩ := served_row hyields (hserved hyields)
        have hpending := (hfresh hyields).pending
        have haccrued := (processed_of_isSome (hserved hyields).processed).accrued
        have hfrom : (t.yieldFrom client w).accrued = w.chain.accrued :=
          (executeAll_accrued hsole.parts.2.2.1).trans (navSent_accrued hsole)
        rw [hchain, executeAll_accrued hsole.parts.2.2.2, haccrued, hfrom, hrows, hpending]
        simp only [totalYieldDistributed, List.map_append, List.sum_append, List.map_cons,
          List.map_nil, List.sum_cons, List.sum_nil, hyield]
        omega
      · obtain ⟨hrows, hchain⟩ := updateNav_unyielded hyields hsole
        rw [hrows, hchain]
        omega

theorem totalYield_run {w₀ : CrankWorld K} {ts : List (CrankTransition K)}
    (h : Run (CrankStep client) w₀ ts w) (hserved : ∀ t ∈ ts, YieldServed client t)
    (hfresh : ∀ t ∈ ts, YieldFresh client t) :
    totalYieldDistributed w.yieldEvents - totalYieldDistributed w₀.yieldEvents =
      w.chain.accrued - w₀.chain.accrued := by
  induction h with
  | nil => omega
  | snoc hrun hstep ih =>
      simp only [List.forall_mem_append, List.forall_mem_singleton] at hserved hfresh
      have hbefore := ih hserved.1 hfresh.1
      have hlast := hstep.totalYield hserved.2 hfresh.2
      omega

/-- Where every `process_yield` of the crank is served, the rows are right and add up to what was
accrued if and only if every run that got to the yield was fresh. -/
theorem yieldEvents_exact_iff {w₀ : CrankWorld K} {ts : List (CrankTransition K)}
    (h : Run (CrankStep client) w₀ ts w) (hserved : ∀ t ∈ ts, YieldServed client t) :
    ((∀ t ∈ ts, RowRight client t) ∧
      totalYieldDistributed w.yieldEvents - totalYieldDistributed w₀.yieldEvents =
        w.chain.accrued - w₀.chain.accrued) ↔ ∀ t ∈ ts, YieldFresh client t := by
  constructor
  · rintro ⟨hright, -⟩ t ht
    exact ((h.of_mem ht).2.right_iff_fresh (hserved t ht)).mp (hright t ht)
  · intro hfresh
    refine ⟨?_, totalYield_run h hserved hfresh⟩
    intro t ht
    exact ((h.of_mem ht).2.right_iff_fresh (hserved t ht)).mpr (hfresh t ht)

end Runs

/-! ## Two days on the earning vault -/

namespace Cluster

open OragamiVault.Cluster

/-- A run at par with the clock of the chain at `clock`. -/
def tickAt (clock : Int64) : Tick FreeKey :=
  { tick par (clock.toInt * 1000) with
    setNav := ⟨[], true, clock, some "set_nav"⟩
    processYield := ⟨[], true, clock, some "process_yield"⟩ }

theorem tickAt_soleAccrual (clock : Int64) : (tickAt clock).SoleAccrual := by
  simp [Tick.SoleAccrual, Tick.others, tickAt, tick]

theorem tickAt_served {clock : Int64} {w : CrankWorld FreeKey}
    (h : ((tickAt clock).processYield.rpc (yieldCall crankClient)
      ((tickAt clock).navSent crankClient w).2).1.isSome = true) :
    YieldServed crankClient ⟨w, .tick (tickAt clock), (updateNav crankClient (tickAt clock) w).2⟩ :=
  ⟨tickAt_soleAccrual clock, fun _ => ⟨h, by simp [tickAt, tick], rfl, rfl⟩⟩

def earningWorld : CrankWorld FreeKey := ⟨⟨earningState, []⟩, .started, [], [], []⟩

/-- Within the first day, -/
def withinDay : CrankWorld FreeKey := (updateNav crankClient (tickAt 120) earningWorld).2

/-- at the end of it, -/
def atDay : CrankWorld FreeKey := (updateNav crankClient (tickAt 86400) earningWorld).2

/-- and two minutes later. -/
def afterDay : CrankWorld FreeKey := (updateNav crankClient (tickAt 86520) atDay).2

theorem earningWorld_tick (clock : Int64) : Run (CrankStep crankClient) earningWorld
    [⟨earningWorld, .tick (tickAt clock), (updateNav crankClient (tickAt clock) earningWorld).2⟩]
    (updateNav crankClient (tickAt clock) earningWorld).2 :=
  Run.snoc Run.nil (.tick (by simp [earningWorld]))

theorem atDay_timestamp : ∀ row ∈ atDay.navSnapshots, row.timestamp < 86520000 := by
  decide +kernel

end Cluster

open Cluster in
theorem yieldEvents_exact_within_day :
    (∀ t ∈ [(⟨earningWorld, .tick (tickAt 120), withinDay⟩ : CrankTransition FreeKey)],
      RowRight crankClient t) ∧
    totalYieldDistributed withinDay.yieldEvents - totalYieldDistributed earningWorld.yieldEvents =
      withinDay.chain.accrued - earningWorld.chain.accrued := by
  refine (yieldEvents_exact_iff (earningWorld_tick 120) ?_).mpr ?_
  · exact List.forall_mem_singleton.mpr (tickAt_served (by decide +kernel))
  · refine List.forall_mem_singleton.mpr ?_
    intro _
    exact ⟨by decide +kernel, by decide +kernel⟩

open Cluster in
/-- Ten are accrued, and recorded twice, each time for no day at all. -/
theorem yieldEvents_counted_twice : ∃ ts, Run (CrankStep crankClient) earningWorld ts afterDay ∧
    (∀ t ∈ ts, YieldServed crankClient t) ∧
    afterDay.yieldEvents.map (fun row => (row.yieldAccrued, row.daysElapsed)) = [(10, 0), (10, 0)] ∧
    totalYieldDistributed afterDay.yieldEvents = 20 ∧ afterDay.chain.accrued = 10 ∧
    ∃ t ∈ ts, ¬ RowRight crankClient t := by
  have hrun : Run (CrankStep crankClient) earningWorld _ afterDay :=
    Run.snoc (earningWorld_tick 86400) (.tick (t := tickAt 86520) atDay_timestamp)
  refine ⟨_, hrun, ?_, by decide +kernel, by decide +kernel, by decide +kernel, ?_⟩
  · refine List.forall_mem_append.mpr ⟨?_, ?_⟩
    · exact List.forall_mem_singleton.mpr (tickAt_served (by decide +kernel))
    · exact List.forall_mem_singleton.mpr (tickAt_served (by decide +kernel))
  · refine ⟨_, List.mem_cons_self, ?_⟩
    intro hright
    obtain ⟨row, hrow⟩ : ∃ row, atDay.yieldEvents = [row] :=
      List.length_eq_one_iff.mp (by decide +kernel)
    have hdays := (hright row hrow).2
    have hzero : atDay.yieldEvents.map (·.daysElapsed) = [0] := by decide +kernel
    rw [hrow] at hzero
    have hrowDays : row.daysElapsed = 0 := List.singleton_inj.mp hzero
    rw [hrowDays] at hdays
    exact absurd hdays (by decide +kernel)

end Backend
