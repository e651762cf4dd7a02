/-
# `Oragami.Backend.NavOverlap` — runs of the NAV crank that overlap

The cron starts `updateNav` every two minutes and does not wait for the last one.  A run
holds the process only between two of its awaits, so here a process has any number of runs,
each waiting for an answer, and an event is one answer and what the run does with it up to
its next await.  The chain goes on meanwhile: the state a read is answered with is taken
before the answer arrives, and a transaction is executed after it is sent and before, or
without, its confirmation.

The guards look at the NAV a run was told and at the last update it knows of.  They hold for
the transactions themselves as long as none is executed on a vault state that was not the
one looked at, and none is sent while an update of the last 90 seconds is not yet confirmed
(`guarded_of_unraced`).
-/
import Oragami.Backend.NavRuns
import Mathlib.Data.List.Chain

namespace Backend

open Idl Lts OragamiVault

/-! ## A process and its runs -/

/-- The vault state a read will be answered with, and how many updates there had been. -/
structure Sample where
  reading : Option VaultReading
  updates : Nat

/-- Where a run waits, and what it has in hand. -/
inductive Await where
  | gold
  | chf (goldPrice : Option Price)
  | eusx (q : Quotes)
  | vaultState (q : Quotes) (eusxNav : Price) (sample : Option Sample)
  | setNav (tx : Nat)
  /-- The rest of a run writes to tables and sends nothing that sets the NAV. -/
  | rest

/-- A `set_nav` that was sent. -/
structure SentNav where
  navBps : Int
  /-- The updates there had been when the NAV behind it was read. -/
  updates : Nat
  executedAt : Option Int
  confirmed : Bool

/-- A `set_nav` that was executed. -/
structure NavUpdate where
  time : Int
  navBefore : Option UInt64
  navAfter : Option UInt64
deriving DecidableEq

/-- The cluster, the fields of the service, and the runs it has started. -/
structure CrankProcess (K : Type) where
  chain : Timeline K
  fields : Fields
  dateNow : Int
  runs : List Await
  sent : List SentNav
  updates : List NavUpdate

inductive ProcessEvent (K : Type) where
  | pass (ms : Nat)
  | act (act : Action K)
  | start
  | gold (run : Nat) (raw : Option Json)
  | chf (run : Nat) (raw : Option Json)
  | eusx (run : Nat) (answer : Option Price)
  | sample (run : Nat)
  | vaultState (run : Nat) (answered : Bool)
  | execute (tx : Nat) (clock : Int64)
  | confirm (run : Nat)
  | reject (run : Nat)

section Process

variable {K : Type}

/-- A run goes on to wait for something else. -/
def CrankProcess.resume (p : CrankProcess K) (run : Nat) (await : Await) : CrankProcess K :=
  { p with runs := p.runs.set run await }

def CrankProcess.send (p : CrankProcess K) (tx : SentNav) : CrankProcess K :=
  { p with sent := p.sent ++ [tx] }

/-- What a read that is answered tells a run. -/
def sampled (sample : Option Sample) (answered : Bool) : Option Sample :=
  if answered then sample else none

/-- `computeNavBps` and the guards, once the vault state is there or not. -/
def CrankProcess.decide (p : CrankProcess K) (run : Nat) (q : Quotes) (eusxNav : Price)
    (sample : Option Sample) : CrankProcess K :=
  let prepared := prepare p.fields q eusxNav (sample.bind (·.reading)) p.dateNow
  let p := { p with fields := prepared.fields }
  if prepared.decision = .setNav then
    (p.send ⟨prepared.newNavBps, (sample.map (·.updates)).getD 0, none, false⟩).resume run
      (.setNav p.sent.length)
  else p.resume run .rest

variable [DecidableEq K] [Addresses K] [Deployment K] [TokenProgram K] (client : CrankClient K)

/-- What an event does, if it can happen. -/
def CrankProcess.apply (p : CrankProcess K) : ProcessEvent K → Option (CrankProcess K)
  | .pass ms => some { p with dateNow := p.dateNow + ms }
  | .act act => some { p with chain := p.chain.execute act }
  | .start => some { p with runs := p.runs ++ [.gold] }
  | .gold run raw =>
      match p.runs[run]? with
      | some .gold =>
          let goldPrice := fetchedPrice raw
          some ({ p with fields := p.fields.cacheGold goldPrice }.resume run (.chf goldPrice))
      | _ => none
  | .chf run raw =>
      match p.runs[run]? with
      | some (.chf goldPrice) =>
          let chfUsd := fetchedPrice raw
          let fields := p.fields.cacheChf chfUsd
          some ({ p with fields }.resume run (.eusx (fields.quotes goldPrice chfUsd)))
      | _ => none
  | .eusx run answer =>
      match p.runs[run]? with
      | some (.eusx q) => some (p.resume run (.vaultState q (eusxOr answer) none))
      | _ => none
  | .sample run =>
      match p.runs[run]? with
      | some (.vaultState q eusxNav _) =>
          let reading := (fetchVaultState p.chain.state).map vaultReading
          some (p.resume run (.vaultState q eusxNav (some ⟨reading, p.updates.length⟩)))
      | _ => none
  | .vaultState run answered =>
      match p.runs[run]? with
      | some (.vaultState q eusxNav sample) =>
          some (p.decide run q eusxNav (sampled sample answered))
      | _ => none
  | .execute tx clock =>
      match p.sent[tx]? with
      | some ⟨navBps, updates, none, _⟩ =>
          let call := Call.setNav client.setNav (navArg navBps)
          match call.exec clock p.chain.state with
          | .ok _ =>
              let chain := p.chain.execute (.program clock call)
              some { p with
                chain
                sent := p.sent.set tx ⟨navBps, updates, some p.dateNow, false⟩
                updates := p.updates ++ [⟨p.dateNow, p.chain.nav, chain.nav⟩] }
          | .error _ => none
      | _ => none
  | .confirm run =>
      match p.runs[run]? with
      | some (.setNav tx) =>
          match p.sent[tx]? with
          | some ⟨navBps, updates, some ms, _⟩ =>
              some ({ p with
                fields := { p.fields with lastOnChainUpdateMs := p.dateNow }
                sent := p.sent.set tx ⟨navBps, updates, some ms, true⟩ }.resume run .rest)
          | _ => none
      | _ => none
  | .reject run =>
      match p.runs[run]? with
      | some (.setNav _) => some (p.resume run .rest)
      | _ => none

/-- One event, and no `set_nav` but those of the process. -/
def ProcessStep (p : CrankProcess K) (e : ProcessEvent K) (p' : CrankProcess K) : Prop :=
  (∀ act, e = .act act → act.isSetNav = false) ∧ p.apply client e = some p'

end Process

abbrev ProcessTransition (K : Type) := Transition (CrankProcess K) (ProcessEvent K)

/-! ## The guards, said of what was executed -/

/-- Updates are the interval apart and none moves the NAV further than the guard. -/
structure Guarded (updates : List NavUpdate) : Prop where
  spaced : updates.IsChain fun u v => u.time + minUpdateIntervalMs ≤ v.time
  near : ∀ u ∈ updates, ∃ n m, u.navBefore = some n ∧ u.navAfter = some m ∧
    |(m.toNat : Int) - n.toNat| ≤ maxNavChangeBps

/-- Every update is known to the service or is older than the interval. -/
def CrankProcess.Settled {K : Type} (p : CrankProcess K) : Prop :=
  ∀ tx ∈ p.sent, ∀ ms ∈ tx.executedAt,
    tx.confirmed = true ∨ ms + minUpdateIntervalMs ≤ p.dateNow

/-- Neither guard is raced: what a run decides on is settled, and what is executed comes upon the
vault state it was decided on. -/
def Unraced {K : Type} (t : ProcessTransition K) : Prop :=
  match t.label with
  | .vaultState _ _ => t.pre.Settled
  | .execute tx _ => ∀ s ∈ t.pre.sent[tx]?, s.updates = t.pre.updates.length
  | _ => True

instance {K : Type} (p : CrankProcess K) : Decidable p.Settled :=
  inferInstanceAs (Decidable (∀ tx ∈ p.sent, ∀ ms ∈ tx.executedAt,
    tx.confirmed = true ∨ ms + minUpdateIntervalMs ≤ p.dateNow))

instance {K : Type} : DecidablePred (Unraced : ProcessTransition K → Prop)
  | ⟨pre, .vaultState _ _, _⟩ => inferInstanceAs (Decidable pre.Settled)
  | ⟨pre, .execute tx _, _⟩ =>
      inferInstanceAs (Decidable (∀ s ∈ pre.sent[tx]?, s.updates = pre.updates.length))
  | ⟨_, .pass _, _⟩ | ⟨_, .act _, _⟩ | ⟨_, .start, _⟩ | ⟨_, .gold _ _, _⟩ | ⟨_, .chf _ _, _⟩
  | ⟨_, .eusx _ _, _⟩ | ⟨_, .sample _, _⟩ | ⟨_, .confirm _, _⟩ | ⟨_, .reject _, _⟩ =>
      .isTrue trivial

/-! ## What a process knows -/

section Known

/-- A sample says what the NAV is, unless there was an update since. -/
structure Sample.Current (updates : List NavUpdate) (nav : Option UInt64) (s : Sample) : Prop where
  seen : s.updates ≤ updates.length
  reading : s.updates = updates.length → ∀ r ∈ s.reading, ∃ n alloc,
    nav = some n ∧ r = ⟨readNav n, alloc⟩

/-- A transaction passes the guards, unless there was an update since its NAV was read. -/
structure SentNav.Current (updates : List NavUpdate) (nav : Option UInt64) (dateNow : Int)
    (tx : SentNav) : Prop where
  seen : tx.updates ≤ updates.length
  lo : 0 ≤ tx.navBps
  hi : tx.navBps ≤ 20000
  spaced : tx.updates = updates.length → ∀ u ∈ updates, u.time + minUpdateIntervalMs ≤ dateNow
  near : tx.updates = updates.length → ∃ n, nav = some n ∧
    |tx.navBps - (n.toNat : Int)| ≤ maxNavChangeBps

variable {updates : List NavUpdate} {nav nav' : Option UInt64} {dateNow dateNow' : Int} {s : Sample}
  {tx : SentNav}

theorem Sample.Current.later (h : s.Current updates nav)
    (hnav : ∀ n, nav = some n → nav' = some n) :
    s.Current updates nav' := by
  refine ⟨h.seen, ?_⟩
  intro heq r hr
  obtain ⟨n, alloc, hn, hreading⟩ := h.reading heq r hr
  exact ⟨n, alloc, hnav n hn, hreading⟩

theorem SentNav.Current.later (h : tx.Current updates nav dateNow) (hle : dateNow ≤ dateNow')
    (hnav : ∀ n, nav = some n → nav' = some n) : tx.Current updates nav' dateNow' := by
  refine ⟨h.seen, h.lo, h.hi, ?_, ?_⟩
  · intro heq u hu
    exact Int.le_trans (h.spaced heq u hu) hle
  · intro heq
    obtain ⟨n, hn, hnear⟩ := h.near heq
    exact ⟨n, hnav n hn, hnear⟩

/-- With a further update nothing that was known is current, -/
theorem Sample.Current.passed (h : s.Current updates nav) (u : NavUpdate) :
    s.Current (updates ++ [u]) nav' := by
  have hle := h.seen
  have hlength : (updates ++ [u]).length = updates.length + 1 := List.length_append
  exact ⟨by omega, fun heq => by omega⟩

theorem SentNav.Current.passed (h : tx.Current updates nav dateNow) (u : NavUpdate) :
    tx.Current (updates ++ [u]) nav' dateNow' := by
  have hle := h.seen
  have hlength : (updates ++ [u]).length = updates.length + 1 := List.length_append
  exact ⟨by omega, h.lo, h.hi, fun heq => by omega, fun heq => by omega⟩

/-- and what is known of a transaction does not depend on what became of it. -/
theorem SentNav.Current.mark {executedAt : Option Int} {confirmed : Bool}
    (h : tx.Current updates nav dateNow) :
    SentNav.Current updates nav dateNow { tx with executedAt, confirmed } :=
  ⟨h.seen, h.lo, h.hi, h.spaced, h.near⟩

variable {K : Type}

/-- What every event keeps, where neither guard is raced. -/
structure Tracked (p : CrankProcess K) : Prop where
  last : p.fields.lastOnChainUpdateMs ≤ p.dateNow
  confirmed : ∀ tx ∈ p.sent, ∀ ms ∈ tx.executedAt, tx.confirmed = true →
    ms ≤ p.fields.lastOnChainUpdateMs
  executed : ∀ tx ∈ p.sent, ∀ ms ∈ tx.executedAt, ms ≤ p.dateNow
  updates : ∀ u ∈ p.updates, ∃ tx ∈ p.sent, tx.executedAt = some u.time
  runs : ∀ q e s, .vaultState q e (some s) ∈ p.runs → s.Current p.updates p.chain.nav
  sent : ∀ tx ∈ p.sent, tx.Current p.updates p.chain.nav p.dateNow
  guarded : Guarded p.updates

variable {p : CrankProcess K}

/-- Time passes, and the chain goes on with the NAV it has. -/
theorem Tracked.later {chain : Timeline K} (h : Tracked p) (hle : p.dateNow ≤ dateNow')
    (hnav : ∀ n, p.chain.nav = some n → chain.nav = some n) :
    Tracked { p with chain, dateNow := dateNow' } := by
  refine ⟨Int.le_trans h.last hle, h.confirmed, ?_, h.updates, ?_, ?_, h.guarded⟩
  · intro tx htx ms hms
    exact Int.le_trans (h.executed tx htx ms hms) hle
  · intro q e s hs
    exact (h.runs q e s hs).later hnav
  · intro tx htx
    exact (h.sent tx htx).later hle hnav

/-- The fields may change, but for the time of the last update, -/
theorem Tracked.setFields {fields : Fields} (h : Tracked p)
    (hlast : fields.lastOnChainUpdateMs = p.fields.lastOnChainUpdateMs) :
    Tracked { p with fields } := by
  refine ⟨?_, ?_, h.executed, h.updates, h.runs, h.sent, h.guarded⟩
  · show fields.lastOnChainUpdateMs ≤ p.dateNow
    rw [hlast]
    exact h.last
  · intro tx htx ms hms hconfirmed
    show ms ≤ fields.lastOnChainUpdateMs
    rw [hlast]
    exact h.confirmed tx htx ms hms hconfirmed

/-- and so may what runs wait for. -/
theorem Tracked.setRuns {runs : List Await} (h : Tracked p)
    (hruns : ∀ q e s, .vaultState q e (some s) ∈ runs →
      .vaultState q e (some s) ∈ p.runs ∨ s.Current p.updates p.chain.nav) :
    Tracked { p with runs } := by
  refine ⟨h.last, h.confirmed, h.executed, h.updates, ?_, h.sent, h.guarded⟩
  intro q e s hs
  rcases hruns q e s hs with hold | hnew
  · exact h.runs q e s hold
  · exact hnew

theorem Tracked.resume (h : Tracked p) {run : Nat} {await : Await}
    (hawait : ∀ q e s, await = .vaultState q e (some s) → s.Current p.updates p.chain.nav) :
    Tracked (p.resume run await) := by
  refine h.setRuns ?_
  intro q e s hs
  rcases List.mem_or_eq_of_mem_set hs with hold | hnew
  · exact .inl hold
  · exact .inr (hawait q e s hnew.symm)

/-- A transaction that passes the guards may be sent. -/
theorem Tracked.send (h : Tracked p) (htx : tx.Current p.updates p.chain.nav p.dateNow)
    (hexecuted : tx.executedAt = none) : Tracked (p.send tx) := by
  have hnone : ∀ ms ∈ tx.executedAt, False := by
    intro ms hms
    rw [hexecuted] at hms
    cases hms
  refine ⟨h.last, ?_, ?_, ?_, h.runs, ?_, h.guarded⟩
  · intro tx' htx' ms hms
    rcases List.mem_append.mp htx' with hmem | hnew
    · exact h.confirmed tx' hmem ms hms
    · exact (hnone ms (List.mem_singleton.mp hnew ▸ hms)).elim
  · intro tx' htx' ms hms
    rcases List.mem_append.mp htx' with hmem | hnew
    · exact h.executed tx' hmem ms hms
    · exact (hnone ms (List.mem_singleton.mp hnew ▸ hms)).elim
  · intro u hu
    obtain ⟨tx', htx', hat⟩ := h.updates u hu
    exact ⟨tx', List.mem_append_left _ htx', hat⟩
  · intro tx' htx'
    rcases List.mem_append.mp htx' with hmem | hnew
    · exact h.sent tx' hmem
    · exact List.mem_singleton.mp hnew ▸ htx

/-- An update that is settled is one the interval has passed since, or is counted from. -/
theorem Tracked.settled_spaced (h : Tracked p) (hsettled : p.Settled)
    (hspaced : minUpdateIntervalMs ≤ p.dateNow - p.fields.lastOnChainUpdateMs) :
    ∀ u ∈ p.updates, u.time + minUpdateIntervalMs ≤ p.dateNow := by
  intro u hu
  obtain ⟨tx, htx, hat⟩ := h.updates u hu
  rcases hsettled tx htx u.time hat with hconfirmed | hlate
  · have hknown := h.confirmed tx htx u.time hat hconfirmed
    omega
  · exact hlate

/-- What a run decides on settled updates passes the guards. -/
theorem Tracked.decide (h : Tracked p) (hsettled : p.Settled) {run : Nat} {q : Quotes} {e : Price}
    {sample : Option Sample}
    (hsample : ∀ s, sample = some s → s.Current p.updates p.chain.nav) :
    Tracked (p.decide run q e sample) := by
  have hfields : Tracked { p with
      fields := (prepare p.fields q e (sample.bind (·.reading)) p.dateNow).fields } :=
    h.setFields rfl
  unfold CrankProcess.decide
  simp only
  split
  · next hdecision =>
      obtain ⟨r, hr, hnear, hspaced⟩ := guards_eq_setNav.mp hdecision
      obtain ⟨s, rfl, hreading⟩ := Option.bind_eq_some_iff.mp hr
      have hcurrent := hsample s rfl
      have hlo : 5000 ≤ (computeNavBps p.fields q e).1 := le_computeNavBps ..
      have hhi : (computeNavBps p.fields q e).1 ≤ 20000 := computeNavBps_le ..
      refine Tracked.resume (hfields.send ?_ rfl) (fun _ _ _ hno => by cases hno)
      refine ⟨hcurrent.seen, Int.le_trans (by decide) hlo, hhi,
        fun _ => h.settled_spaced hsettled hspaced, ?_⟩
      intro heq
      obtain ⟨n, alloc, hn, rfl⟩ := hcurrent.reading heq r hreading
      refine ⟨n, hn, ?_⟩
      have hexact := readNav_of_near hhi hnear
      rw [← hexact]
      exact hnear
  · refine hfields.resume ?_
    intro q e s hno
    cases hno

theorem mem_set_of_ne {l : List SentNav} {i : Nat} {old new : SentNav} (hi : l[i]? = some old)
    (hmem : tx ∈ l) (hne : tx ≠ old) : tx ∈ l.set i new := by
  obtain ⟨j, hj⟩ := List.mem_iff_getElem?.mp hmem
  have hij : i ≠ j := by
    rintro rfl
    exact hne (Option.some.inj (hj.symm.trans hi))
  refine List.mem_iff_getElem?.mpr ⟨j, ?_⟩
  rw [List.getElem?_set_ne hij]
  exact hj

/-- A transaction is executed on the NAV it was decided on. -/
theorem Tracked.execute {chain : Timeline K} {i : Nat} {navBps : Int} {seen : Nat}
    {confirmed : Bool}
    (h : Tracked p) (hi : p.sent[i]? = some ⟨navBps, seen, none, confirmed⟩)
    (hseen : seen = p.updates.length) (hchain : chain.nav = some (navArg navBps)) :
    Tracked { p with
      chain
      sent := p.sent.set i ⟨navBps, seen, some p.dateNow, false⟩
      updates := p.updates ++ [⟨p.dateNow, p.chain.nav, chain.nav⟩] } := by
  have hcurrent := h.sent _ (List.mem_of_getElem? hi)
  obtain ⟨hlt, -⟩ := List.getElem?_eq_some_iff.mp hi
  refine ⟨h.last, ?_, ?_, ?_, ?_, ?_, ?_, ?_⟩
  · intro tx htx ms hms hconfirmed
    rcases List.mem_or_eq_of_mem_set htx with hold | rfl
    · exact h.confirmed tx hold ms hms hconfirmed
    · cases hconfirmed
  · intro tx htx ms hms
    rcases List.mem_or_eq_of_mem_set htx with hold | rfl
    · exact h.executed tx hold ms hms
    · cases hms
      exact Int.le_refl _
  · refine List.forall_mem_append.mpr ⟨?_, List.forall_mem_singleton.mpr ?_⟩
    · intro u hu
      obtain ⟨tx, htx, hat⟩ := h.updates u hu
      refine ⟨tx, mem_set_of_ne hi htx ?_, hat⟩
      rintro rfl
      cases hat
    · exact ⟨_, List.mem_set hlt _, rfl⟩
  · intro q e s hs
    exact (h.runs q e s hs).passed _
  · intro tx htx
    rcases List.mem_or_eq_of_mem_set htx with hold | rfl
    · exact (h.sent tx hold).passed _
    · exact hcurrent.mark.passed _
  · refine List.isChain_append.mpr ⟨h.guarded.spaced, .singleton _, ?_⟩
    intro u hu v hv
    cases hv
    exact hcurrent.spaced hseen u (List.mem_of_getLast? hu)
  · refine List.forall_mem_append.mpr ⟨h.guarded.near, List.forall_mem_singleton.mpr ?_⟩
    obtain ⟨n, hn, hnear⟩ := hcurrent.near hseen
    refine ⟨n, _, hn, hchain, ?_⟩
    rw [toNat_navArg hcurrent.lo hcurrent.hi]
    exact hnear

/-- A confirmation comes after the update, and after all others the service knows of. -/
theorem Tracked.confirm {i : Nat} {navBps ms : Int} {seen : Nat} {confirmed : Bool} (h : Tracked p)
    (hi : p.sent[i]? = some ⟨navBps, seen, some ms, confirmed⟩) :
    Tracked { p with
      fields := { p.fields with lastOnChainUpdateMs := p.dateNow }
      sent := p.sent.set i ⟨navBps, seen, some ms, true⟩ } := by
  have hmem := List.mem_of_getElem? hi
  obtain ⟨hlt, -⟩ := List.getElem?_eq_some_iff.mp hi
  have hnow : ms ≤ p.dateNow := h.executed _ hmem ms rfl
  refine ⟨Int.le_refl _, ?_, ?_, ?_, h.runs, ?_, h.guarded⟩
  · intro tx htx ms' hms _
    rcases List.mem_or_eq_of_mem_set htx with hold | rfl
    · exact h.executed tx hold ms' hms
    · cases hms
      exact hnow
  · intro tx htx ms' hms
    rcases List.mem_or_eq_of_mem_set htx with hold | rfl
    · exact h.executed tx hold ms' hms
    · cases hms
      exact hnow
  · intro u hu
    obtain ⟨tx, htx, hat⟩ := h.updates u hu
    by_cases heq : tx = ⟨navBps, seen, some ms, confirmed⟩
    · rw [heq] at hat
      exact ⟨_, List.mem_set hlt _, hat⟩
    · exact ⟨tx, mem_set_of_ne hi htx heq, hat⟩
  · intro tx htx
    rcases List.mem_or_eq_of_mem_set htx with hold | rfl
    · exact h.sent tx hold
    · exact (h.sent _ hmem).mark

end Known

/-! ## Runs of a process -/

section Steps

variable {K : Type} [DecidableEq K] [Addresses K] [Deployment K] [TokenProgram K]
  {client : CrankClient K} {p p' p₀ : CrankProcess K} {e : ProcessEvent K}

omit [DecidableEq K] [Addresses K] [Deployment K] [TokenProgram K] in
/-- A sample is taken of the chain as it is. -/
theorem sample_current (p : CrankProcess K) :
    Sample.Current p.updates p.chain.nav
      ⟨(fetchVaultState p.chain.state).map vaultReading, p.updates.length⟩ := by
  refine ⟨Nat.le_refl _, ?_⟩
  intro _ r hr
  rw [fetchVaultState_eq] at hr
  obtain ⟨vs, hvs, hreading⟩ := Option.map_eq_some_iff.mp (Option.map_map .. ▸ hr)
  exact ⟨vs.navPriceBps, Js.number vs.usxAllocationBps.toNat,
    Timeline.nav_eq_some.mpr ⟨vs, hvs, rfl⟩, hreading.symm⟩

/-- One event, where neither guard is raced. -/
theorem ProcessStep.tracked (h : ProcessStep client p e p') (htracked : Tracked p)
    (hunraced : Unraced ⟨p, e, p'⟩) : Tracked p' := by
  obtain ⟨hsole, happly⟩ := h
  cases e with
  | pass ms =>
      cases happly
      exact htracked.later (by omega) fun n hn => hn
  | act act =>
      cases happly
      exact htracked.later (Int.le_refl _) fun n hn => execute_nav hn (hsole act rfl)
  | start =>
      cases happly
      refine htracked.setRuns ?_
      intro q e s hs
      rcases List.mem_append.mp hs with hold | hnew
      · exact .inl hold
      · cases List.mem_singleton.mp hnew
  | gold run raw =>
      simp only [CrankProcess.apply] at happly
      split at happly
      · cases happly
        have hcached : Tracked { p with fields := p.fields.cacheGold (fetchedPrice raw) } :=
          htracked.setFields rfl
        refine hcached.resume ?_
        intro q e s hno
        cases hno
      · cases happly
  | chf run raw =>
      simp only [CrankProcess.apply] at happly
      split at happly
      · cases happly
        have hcached : Tracked { p with fields := p.fields.cacheChf (fetchedPrice raw) } :=
          htracked.setFields rfl
        refine hcached.resume ?_
        intro q e s hno
        cases hno
      · cases happly
  | eusx run answer =>
      simp only [CrankProcess.apply] at happly
      split at happly
      · cases happly
        refine htracked.resume ?_
        intro q e s hno
        cases hno
      · cases happly
  | sample run =>
      simp only [CrankProcess.apply] at happly
      split at happly
      · cases happly
        refine htracked.resume ?_
        intro q e s hs
        cases hs
        exact sample_current p
      · cases happly
  | vaultState run answered =>
      simp only [CrankProcess.apply] at happly
      split at happly
      · next q e sample hrun =>
          cases happly
          refine htracked.decide hunraced ?_
          intro s hs
          unfold sampled at hs
          split at hs
          · rw [hs] at hrun
            exact htracked.runs q e s (List.mem_of_getElem? hrun)
          · cases hs
      · cases happly
  | execute tx clock =>
      simp only [CrankProcess.apply] at happly
      split at happly
      · next navBps seen confirmed hsent =>
          split at happly
          · next hexec =>
              cases happly
              exact htracked.execute hsent (hunraced _ hsent) (setNav_executed hexec)
          · cases happly
      · cases happly
  | confirm run =>
      simp only [CrankProcess.apply] at happly
      split at happly
      · split at happly
        · next hsent =>
            cases happly
            refine Tracked.resume (htracked.confirm hsent) ?_
            intro q e s hno
            cases hno
        · cases happly
      · cases happly
  | reject run =>
      simp only [CrankProcess.apply] at happly
      split at happly
      · cases happly
        refine htracked.resume ?_
        intro q e s hno
        cases hno
      · cases happly

/-- A process that has nothing going on, and has not set the NAV. -/
structure CrankProcess.Idle (p : CrankProcess K) : Prop where
  last : p.fields.lastOnChainUpdateMs ≤ p.dateNow
  runs : p.runs = []
  sent : p.sent = []
  updates : p.updates = []

omit [DecidableEq K] [Addresses K] [Deployment K] [TokenProgram K] in
theorem CrankProcess.Idle.tracked (h : p.Idle) : Tracked p := by
  obtain ⟨hlast, hruns, hsent, hupdates⟩ := h
  refine ⟨hlast, ?_, ?_, ?_, ?_, ?_, ?_, ?_⟩
  · simp [hsent]
  · simp [hsent]
  · simp [hupdates]
  · simp [hruns]
  · simp [hsent]
  · rw [hupdates]
    exact .nil
  · simp [hupdates]

/-- However many runs overlap, the guards hold of what is executed, as long as neither is raced. -/
theorem guarded_of_unraced {ts : List (ProcessTransition K)} (h : Run (ProcessStep client) p₀ ts p)
    (hidle : p₀.Idle) (hunraced : ∀ t ∈ ts, Unraced t) : Guarded p.updates :=
  (h.kept hidle.tracked (fun hp hstep => hstep.tracked hp) hunraced).1.guarded

end Steps

/-! ## A run alone -/

section Alone

variable {K : Type} [DecidableEq K] [Addresses K] [Deployment K] [TokenProgram K]
  (client : CrankClient K)

/-- Some events lead from one to the other. -/
def Leads (p p' : CrankProcess K) : Prop := ∃ ts, Run (ProcessStep client) p ts p'

variable {client} {p p' p'' : CrankProcess K}

theorem Leads.refl (p : CrankProcess K) : Leads client p p := ⟨[], .nil⟩

theorem Leads.trans (h : Leads client p p') (h' : Leads client p' p'') : Leads client p p'' := by
  obtain ⟨ts, hts⟩ := h
  obtain ⟨us, hus⟩ := h'
  exact ⟨ts ++ us, Run.append_iff.mpr ⟨p', hts, hus⟩⟩

theorem Leads.event {e : ProcessEvent K} (he : ∀ act, e = .act act → act.isSetNav = false)
    (h : p.apply client e = some p') : Leads client p p' :=
  ⟨_, .snoc .nil ⟨he, h⟩⟩

theorem leads_acts (p : CrankProcess K) {acts : List (Action K)}
    (h : ∀ act ∈ acts, act.isSetNav = false) :
    Leads client p { p with chain := p.chain.executeAll acts } := by
  induction acts generalizing p with
  | nil => exact .refl p
  | cons act acts ih =>
      have hfirst : Leads client p { p with chain := p.chain.execute act } := by
        refine .event (e := .act act) ?_ rfl
        intro act' hact'
        cases hact'
        exact h act List.mem_cons_self
      exact hfirst.trans (ih _ fun act' hact' => h act' (List.mem_cons_of_mem act hact'))

theorem leads_pass (p : CrankProcess K) {ms : Int} (h : p.dateNow ≤ ms) :
    Leads client p { p with dateNow := ms } := by
  refine .event (e := .pass (ms - p.dateNow).toNat) (by simp) ?_
  have hms : p.dateNow + ((ms - p.dateNow).toNat : Int) = ms := by omega
  simp only [CrankProcess.apply, hms]

/-- The run a process has started last waits. -/
def CrankProcess.await (p : CrankProcess K) (await : Await) : CrankProcess K :=
  { p with runs := p.runs ++ [await] }

omit [DecidableEq K] [Addresses K] [Deployment K] [TokenProgram K] in
@[simp] theorem await_runs (p : CrankProcess K) (await : Await) :
    (p.await await).runs[p.runs.length]? = some await := List.getElem?_concat_length

omit [DecidableEq K] [Addresses K] [Deployment K] [TokenProgram K] in
@[simp] theorem await_resume (p : CrankProcess K) (await await' : Await) :
    (p.await await).resume p.runs.length await' = p.await await' := by
  unfold CrankProcess.await CrankProcess.resume
  rw [List.set_append_right _ _ (Nat.le_refl _), Nat.sub_self]
  rfl

theorem leads_gold (p : CrankProcess K) (raw : Option Json) :
    Leads client (p.await .gold)
      ({ p with fields := p.fields.cacheGold (fetchedPrice raw) }.await (.chf (fetchedPrice raw))) := by
  refine .event (e := .gold p.runs.length raw) (by simp) ?_
  simp only [CrankProcess.apply, await_runs]
  exact congrArg some (await_resume { p with fields := p.fields.cacheGold (fetchedPrice raw) } _ _)

theorem leads_chf (p : CrankProcess K) (goldPrice : Option Price) (raw : Option Json) :
    Leads client (p.await (.chf goldPrice))
      ({ p with fields := p.fields.cacheChf (fetchedPrice raw) }.await
        (.eusx ((p.fields.cacheChf (fetchedPrice raw)).quotes goldPrice (fetchedPrice raw)))) := by
  refine .event (e := .chf p.runs.length raw) (by simp) ?_
  simp only [CrankProcess.apply, await_runs]
  exact congrArg some (await_resume { p with fields := p.fields.cacheChf (fetchedPrice raw) } _ _)

theorem leads_eusx (p : CrankProcess K) (q : Quotes) (answer : Option Price) :
    Leads client (p.await (.eusx q)) (p.await (.vaultState q (eusxOr answer) none)) := by
  refine .event (e := .eusx p.runs.length answer) (by simp) ?_
  simp only [CrankProcess.apply, await_runs]
  exact congrArg some (await_resume p _ _)

theorem leads_sample (p : CrankProcess K) (q : Quotes) (e : Price) (sample : Option Sample) :
    Leads client (p.await (.vaultState q e sample)) (p.await (.vaultState q e
      (some ⟨(fetchVaultState p.chain.state).map vaultReading, p.updates.length⟩))) := by
  refine .event (e := .sample p.runs.length) (by simp) ?_
  simp only [CrankProcess.apply, await_runs]
  exact congrArg some (await_resume p _ _)

omit [DecidableEq K] [Addresses K] [Deployment K] [TokenProgram K] in
theorem await_decide (p : CrankProcess K) (await : Await) (q : Quotes) (e : Price)
    (sample : Option Sample) {run : Prepared}
    (hrun : prepare p.fields q e (sample.bind (·.reading)) p.dateNow = run) :
    (p.await await).decide p.runs.length q e sample =
      if run.decision = .setNav then
        ({ p with fields := run.fields }.send
          ⟨run.newNavBps, (sample.map Sample.updates).getD 0, none, false⟩).await
            (.setNav p.sent.length)
      else { p with fields := run.fields }.await .rest := by
  subst hrun
  let run := prepare p.fields q e (sample.bind (·.reading)) p.dateNow
  let decided : CrankProcess K := { p with fields := run.fields }
  let tx : SentNav := ⟨run.newNavBps, (sample.map Sample.updates).getD 0, none, false⟩
  split
  · next hset => exact (if_pos hset).trans (await_resume (decided.send tx) await _)
  · next hheld => exact (if_neg hheld).trans (await_resume decided await _)

variable {t : Tick K} {w : CrankWorld K}

/-- The process as the run finds it once the vault state is read. -/
def Tick.found (t : Tick K) (w : CrankWorld K) (p : CrankProcess K) : CrankProcess K :=
  { p with
    chain := (t.begun w).chain
    fields := (w.fields.observe t.observation).2
    dateNow := t.checkedAt }

theorem leads_found (hchain : p.chain = w.chain) (hfields : p.fields = w.fields)
    (hle : p.dateNow ≤ t.checkedAt) (hsole : t.Sole) :
    Leads client p ((t.found w p).await (.vaultState (w.fields.observe t.observation).1
      (eusxOr t.observation.eusx)
      (some ⟨(fetchVaultState (t.begun w).chain.state).map vaultReading, p.updates.length⟩))) := by
  obtain ⟨chain, fields, dateNow, runs, sent, updates⟩ := p
  cases hchain
  cases hfields
  let p : CrankProcess K := ⟨w.chain, w.fields, dateNow, runs, sent, updates⟩
  let f := w.fields.cacheGold (fetchedPrice t.observation.gold)
  let f' := f.cacheChf (fetchedPrice t.observation.chf)
  let q := f'.quotes (fetchedPrice t.observation.gold) (fetchedPrice t.observation.chf)
  let asked : Await := .vaultState q (eusxOr t.observation.eusx) none
  have hstart : Leads client p (p.await .gold) := .event (e := .start) (by simp) rfl
  have hgold : Leads client (p.await .gold) ({ p with fields := f }.await (.chf _)) :=
    leads_gold p t.observation.gold
  have hchf : Leads client _ ({ p with fields := f' }.await (.eusx q)) :=
    leads_chf { p with fields := f } _ t.observation.chf
  have heusx : Leads client _ ({ p with fields := f' }.await asked) :=
    leads_eusx { p with fields := f' } q t.observation.eusx
  have hpass : Leads client _ ({ p with fields := f', dateNow := t.checkedAt }.await asked) :=
    leads_pass ({ p with fields := f' }.await asked) hle
  have hacts : Leads client _ ((t.found w p).await asked) :=
    leads_acts ({ p with fields := f', dateNow := t.checkedAt }.await asked) hsole.parts.1
  have hsample : Leads client ((t.found w p).await asked) _ :=
    leads_sample (t.found w p) q (eusxOr t.observation.eusx) none
  exact hstart.trans (hgold.trans (hchf.trans (heusx.trans (hpass.trans (hacts.trans hsample)))))

/-- The guards of the run are those of `updateNav`. -/
theorem leads_decided (hchain : p.chain = w.chain) (hfields : p.fields = w.fields)
    (hle : p.dateNow ≤ t.checkedAt) (hsole : t.Sole) :
    Leads client p (if (t.prepared w).decision = .setNav then
      ({ t.found w p with fields := (t.prepared w).fields }.send
        ⟨(t.prepared w).newNavBps, p.updates.length, none, false⟩).await (.setNav p.sent.length)
      else { t.found w p with fields := (t.prepared w).fields }.await .rest) := by
  refine (leads_found hchain hfields hle hsole).trans ?_
  refine .event (e := .vaultState p.runs.length t.read.answered) (by simp) ?_
  let s : Sample := ⟨(fetchVaultState (t.begun w).chain.state).map vaultReading, p.updates.length⟩
  have hreading : (sampled (some s) t.read.answered).bind (·.reading) =
      (t.read.vaultState w.chain).1.map vaultReading := by
    show (if t.read.answered then some s else none).bind (·.reading) =
      (if t.read.answered then fetchVaultState (t.begun w).chain.state else none).map vaultReading
    cases t.read.answered with
    | true => rfl
    | false => rfl
  have hprepared : prepare (t.found w p).fields (w.fields.observe t.observation).1
      (eusxOr t.observation.eusx) ((sampled (some s) t.read.answered).bind (·.reading)) t.checkedAt =
        t.prepared w := by
    rw [hreading]
    rfl
  have hruns := await_runs (t.found w p) (.vaultState (w.fields.observe t.observation).1
    (eusxOr t.observation.eusx) (some s))
  simp only [CrankProcess.apply]
  rw [show p.runs.length = (t.found w p).runs.length from rfl, hruns]
  refine congrArg some ((await_decide (t.found w p) _ _ _ _ hprepared).trans ?_)
  split
  · next hset =>
      have hanswered : t.read.answered = true := by
        obtain ⟨r, hr, -⟩ := guards_eq_setNav.mp hset
        by_contra hno
        rw [Fetch.vaultState, if_neg hno] at hr
        cases hr
      rw [hanswered]
      rfl
  · rfl

/-- The yield tick is some actions on the chain, of the crank and of others. -/
theorem tickYield_acts (client : CrankClient K) (hsole : t.Sole) (navBefore navAfter alloc : Int)
    (e : Price) : ∃ acts, (∀ act ∈ acts, act.isSetNav = false) ∧
      (tickYield client t navBefore navAfter alloc e w).chain = w.chain.executeAll acts := by
  obtain ⟨-, -, hyield, hreread⟩ := hsole.parts
  let call : Call K := .processYield ⟨vaultStateKey, client.authority⟩
  have hcall : ∀ act ∈ t.processYield.others ++ [.program t.processYield.clock call],
      act.isSetNav = false :=
    List.forall_mem_append.mpr ⟨hyield, List.forall_mem_singleton.mpr rfl⟩
  have hexecuted : ∀ c : Timeline K, (c.executeAll t.processYield.others).execute
      (.program t.processYield.clock call) =
        c.executeAll (t.processYield.others ++ [.program t.processYield.clock call]) := by
    intro c
    unfold Timeline.executeAll
    rw [List.foldl_append]
    rfl
  unfold tickYield
  rcases t.processYield.rpc_cases call w.chain with hrpc | ⟨_, _, -, hrpc⟩
  · rw [hrpc]
    exact ⟨_, hyield, rfl⟩
  · rw [hrpc, hexecuted]
    cases t.processYield.confirmation with
    | none => exact ⟨_, hcall, rfl⟩
    | some tx =>
        refine ⟨_, List.forall_mem_append.mpr ⟨hcall, hreread⟩, ?_⟩
        generalize t.processYield.others ++ [.program t.processYield.clock call] = acts
        have hread : (t.reread.vaultState (w.chain.executeAll acts)).2 =
            w.chain.executeAll (acts ++ t.reread.others) := (List.foldl_append ..).symm
        rw [← hread]
        simp only
        split
        · next hnone => rw [hnone]
        · next hsome =>
            rw [hsome]
            unfold recordYieldEvent
            split <;> rfl

omit [DecidableEq K] [Addresses K] [Deployment K] [TokenProgram K] in
theorem send_get (p : CrankProcess K) (tx : SentNav) : (p.send tx).sent[p.sent.length]? = some tx :=
  List.getElem?_concat_length

omit [DecidableEq K] [Addresses K] [Deployment K] [TokenProgram K] in
theorem send_set (p : CrankProcess K) (tx tx' : SentNav) :
    (p.send tx).sent.set p.sent.length tx' = p.sent ++ [tx'] := by
  show (p.sent ++ [tx]).set p.sent.length tx' = _
  rw [List.set_append_right _ _ (Nat.le_refl _), Nat.sub_self]
  rfl

theorem leads_reject (p : CrankProcess K) (tx : Nat) :
    Leads client (p.await (.setNav tx)) (p.await .rest) := by
  refine .event (e := .reject p.runs.length) (by simp) ?_
  simp only [CrankProcess.apply, await_runs]
  exact congrArg some (await_resume p _ _)

/-- The process with what it sent executed. -/
def CrankProcess.executed (p : CrankProcess K) (tx : SentNav) (chain : Timeline K) :
    CrankProcess K :=
  { p with
    chain
    sent := p.sent ++ [{ tx with executedAt := some p.dateNow }]
    updates := p.updates ++ [⟨p.dateNow, p.chain.nav, chain.nav⟩] }

theorem leads_execute {navBps : Int} {seen : Nat} {clock : Int64} {out : State K × Option (Event K)}
    (await : Await)
    (h : (Call.setNav client.setNav (navArg navBps)).exec clock p.chain.state = .ok out) :
    Leads client ((p.send ⟨navBps, seen, none, false⟩).await await)
      ((p.executed ⟨navBps, seen, none, false⟩
        (p.chain.execute (.program clock (.setNav client.setNav (navArg navBps))))).await await) := by
  refine .event (e := .execute p.sent.length clock) (by simp) ?_
  have hget : ((p.send ⟨navBps, seen, none, false⟩).await await).sent[p.sent.length]? =
      some ⟨navBps, seen, none, false⟩ := send_get p _
  have hset : ((p.send ⟨navBps, seen, none, false⟩).await await).sent.set p.sent.length
      ⟨navBps, seen, some p.dateNow, false⟩ = p.sent ++ [⟨navBps, seen, some p.dateNow, false⟩] :=
    send_set p _ _
  have hexec : (Call.setNav client.setNav (navArg navBps)).exec clock
      ((p.send ⟨navBps, seen, none, false⟩).await await).chain.state = .ok out := h
  simp only [CrankProcess.apply, hget, hexec]
  rw [show ((p.send ⟨navBps, seen, none, false⟩).await await).dateNow = p.dateNow from rfl, hset]
  rfl

/-- The process once the run knows. -/
def CrankProcess.known (p : CrankProcess K) (tx : SentNav) (chain : Timeline K) (ms : Int) :
    CrankProcess K :=
  { p.executed tx chain with
    dateNow := ms
    fields := { p.fields with lastOnChainUpdateMs := ms }
    sent := p.sent ++ [{ tx with executedAt := some p.dateNow, confirmed := true }] }

theorem leads_confirm {tx : SentNav} {chain : Timeline K} {ms : Int} (hle : p.dateNow ≤ ms) :
    Leads client ((p.executed tx chain).await (.setNav p.sent.length))
      ((p.known tx chain ms).await .rest) := by
  have hpass : Leads client ((p.executed tx chain).await (.setNav p.sent.length)) _ :=
    leads_pass _ hle
  refine hpass.trans (.event (e := .confirm p.runs.length) (by simp) ?_)
  let q : CrankProcess K :=
    { (p.executed tx chain).await (.setNav p.sent.length) with dateNow := ms }
  have hruns : q.runs[p.runs.length]? = some (.setNav p.sent.length) :=
    await_runs (p.executed tx chain) _
  have hget : q.sent[p.sent.length]? = some { tx with executedAt := some p.dateNow } :=
    List.getElem?_concat_length
  have hset : q.sent.set p.sent.length { tx with executedAt := some p.dateNow, confirmed := true } =
      p.sent ++ [{ tx with executedAt := some p.dateNow, confirmed := true }] :=
    send_set p { tx with executedAt := some p.dateNow } _
  show q.apply client _ = _
  simp only [CrankProcess.apply, hruns, hget, hset]
  exact congrArg some (await_resume (p.known tx chain ms) (.setNav p.sent.length) .rest)

/-- Alone, a run of the process is a run of the crank. -/
theorem leads_updateNav (hchain : p.chain = w.chain) (hfields : p.fields = w.fields)
    (hchecked : p.dateNow ≤ t.checkedAt) (hconfirmed : t.checkedAt ≤ t.confirmedAt) (hsole : t.Sole) :
    ∃ p', Leads client p p' ∧ p'.chain = (updateNav client t w).2.chain ∧
      p'.fields = (updateNav client t w).2.fields := by
  have hdecided : Leads client p _ := leads_decided hchain hfields hchecked hsole
  by_cases hdecision : (t.prepared w).decision = .setNav
  · rw [if_pos hdecision] at hdecided
    obtain ⟨audit, hsent⟩ := updateNav_sent client t w hdecision
    rw [hsent]
    show ∃ p', Leads client p p' ∧ p'.chain = (recordSnapshot t _ (t.published client w).2).chain ∧
      p'.fields = (recordSnapshot t _ (t.published client w).2).fields
    rw [recordSnapshot_chain, recordSnapshot_fields]
    let tx : SentNav := ⟨(t.prepared w).newNavBps, p.updates.length, none, false⟩
    let d : CrankProcess K := { t.found w p with
      chain := (t.begun w).chain.executeAll t.setNav.others
      fields := (t.prepared w).fields }
    have hacts : Leads client p ((d.send tx).await (.setNav p.sent.length)) :=
      hdecided.trans (leads_acts _ hsole.parts.2.1)
    unfold Tick.published publish
    simp only
    rcases t.setNav.rpc_cases (.setNav client.setNav (navArg (t.prepared w).newNavBps))
      (t.begun w).chain with hrpc | ⟨s, ev, hexec, hrpc⟩
    · rw [hrpc]
      exact ⟨_, hacts.trans (leads_reject _ _), rfl, rfl⟩
    · rw [hrpc]
      have hexecuted := hacts.trans (leads_execute (.setNav p.sent.length) hexec)
      cases t.setNav.confirmation with
      | none => exact ⟨_, hexecuted.trans (leads_reject _ _), rfl, rfl⟩
      | some signature =>
          have hknown := hexecuted.trans (leads_confirm hconfirmed)
          simp only
          obtain ⟨acts, hyield, hafter⟩ := tickYield_acts (t := t) client hsole _ _ _ _
          obtain ⟨-, hkept, -⟩ := tickYield_kept client t _ _ _ _ _
          refine ⟨_, hknown.trans (leads_acts _ hyield), ?_, ?_⟩
          · rw [hafter]
            rfl
          · rw [hkept]
            rfl
  · rw [if_neg hdecision] at hdecided
    refine ⟨_, hdecided, ?_⟩
    rcases updateNav_held client t w hdecision with h | h
    · rw [h]
      exact ⟨rfl, rfl⟩
    · rw [h, recordSnapshot_chain, recordSnapshot_fields]
      exact ⟨rfl, rfl⟩

end Alone

/-! ## Two runs at once -/

namespace Cluster

open OragamiVault.Cluster

def process : CrankProcess FreeKey := ⟨⟨opened, []⟩, .started, 0, [], [], []⟩

theorem process_idle : process.Idle := ⟨Int.le_refl _, rfl, rfl, rfl⟩

def half : Price := ⟨1 / 2, by norm_num⟩

/-- What a run that hears of eUSX only does up to its `set_nav`. -/
def hear (run : Nat) (eusx : Price) : List (ProcessEvent FreeKey) :=
  [.gold run none, .chf run none, .eusx run (some eusx), .sample run, .vaultState run true]

/-- Two runs, the first confirmed before the second begins, -/
def inTurn : List (ProcessEvent FreeKey) :=
  [.pass 120000, .start] ++ hear 0 par ++ [.execute 0 0, .confirm 0, .pass 120000, .start] ++
    hear 1 oneAndHalf ++ [.execute 1 0, .confirm 1]

/-- and two that both decide before either is executed. -/
def atOnce : List (ProcessEvent FreeKey) :=
  [.pass 120000, .start, .start] ++ hear 0 half ++ hear 1 oneAndHalf ++
    [.execute 0 0, .execute 1 0]

def transitions (es : List (ProcessEvent FreeKey)) : List (ProcessTransition FreeKey) :=
  Lts.play (CrankProcess.apply crankClient) process es

def after (es : List (ProcessEvent FreeKey)) : CrankProcess FreeKey :=
  Lts.final (CrankProcess.apply crankClient) process es

/-- Nobody else acts in these. -/
def ProcessEvent.own (e : ProcessEvent FreeKey) : Bool :=
  match e with
  | .act _ => false
  | _ => true

theorem transitions_run {es : List (ProcessEvent FreeKey)} (h : es.all ProcessEvent.own = true) :
    Run (ProcessStep crankClient) process (transitions es) (after es) := by
  refine Lts.play_run (P := fun e => ProcessEvent.own e = true) ?_ (List.all_eq_true.mp h) process
  intro p e p' hp hown
  refine ⟨?_, hp⟩
  intro act hact
  rw [hact] at hown
  cases hown

end Cluster

theorem guarded_of_unraced_inTurn : Guarded (Cluster.after Cluster.inTurn).updates :=
  guarded_of_unraced (Cluster.transitions_run (by decide)) Cluster.process_idle
    (show ∀ t ∈ Cluster.transitions Cluster.inTurn, Unraced t by decide +kernel)

/-- Within no time at all the NAV goes down by a tenth and up by two. -/
theorem guards_raced : ∃ ts p, Run (ProcessStep Cluster.crankClient) Cluster.process ts p ∧
    p.updates = [⟨120000, some 10000, some 9000⟩, ⟨120000, some 9000, some 11000⟩] ∧
      ¬ Guarded p.updates := by
  have hown : Cluster.atOnce.all Cluster.ProcessEvent.own = true := by decide
  have hupdates : (Cluster.after Cluster.atOnce).updates =
      [⟨120000, some 10000, some 9000⟩, ⟨120000, some 9000, some 11000⟩] := by
    decide +kernel
  refine ⟨_, _, Cluster.transitions_run hown, hupdates, ?_⟩
  rw [hupdates]
  rintro ⟨hspaced, -⟩
  exact absurd hspaced (by decide)

end Backend
