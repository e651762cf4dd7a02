/-
# `Oragami.Backend.NavRuns` — the NAV over runs of the crank

A run writes to two places, the vault state and the table of snapshots.  What it can do to
the first is one of two things (`updateNav_chain`): set the NAV it computed, or nothing.
To the second it may add the NAV it computed (`updateNav_navSnapshots`).

The exits of `updateNav` combine these as they like: a run held back by the change guard
records a NAV it did not set.  So the NAV published by the backend is the one on the chain
only as long as the last run that wrote wrote both (`navCurrent_eq_nav`).  And a NAV further
than the guard from the price is never moved again (`repeated_runs`).
-/
import Oragami.Backend.NavCrankService
import Mathlib.Data.List.Induction

namespace Backend

open Idl Lts OragamiVault

/-! ## `navCurrent` -/

/-- What `VaultService.navCurrent` answers. -/
structure CurrentNav where
  navBps : Option Int
  source : Option String
  goldPrice : Option Price
  chfUsd : Option Price
  eusxNav : Option Price
  timestamp : Option Int

/-- The row with the latest timestamp. -/
def latestSnapshot (rows : List NavSnapshot) : Option NavSnapshot :=
  rows.foldl (fun latest row => match latest with
    | none => some row
    | some r => if r.timestamp < row.timestamp then some row else some r) none

def navCurrent (rows : List NavSnapshot) : CurrentNav :=
  let row := latestSnapshot rows
  { navBps := row.map (·.navBps)
    source := row.map (·.source)
    goldPrice := row.bind (·.goldPrice)
    chfUsd := row.bind (·.chfUsd)
    eusxNav := row.map (·.eusxNav)
    timestamp := row.map (·.timestamp) }

theorem latestSnapshot_mem {rows : List NavSnapshot} {row : NavSnapshot}
    (h : latestSnapshot rows = some row) : row ∈ rows := by
  induction rows using List.reverseRecOn with
  | nil => cases h
  | append_singleton rows last ih =>
      simp only [latestSnapshot, List.foldl_append, List.foldl_cons, List.foldl_nil] at h
      split at h
      · cases h
        simp
      · next r hr =>
          split at h
          · cases h
            simp
          · cases h
            exact List.mem_append_left _ (ih hr)

theorem latestSnapshot_append {rows : List NavSnapshot} {row : NavSnapshot}
    (h : ∀ r ∈ rows, r.timestamp < row.timestamp) : latestSnapshot (rows ++ [row]) = some row := by
  have hmem : ∀ r, latestSnapshot rows = some r → r ∈ rows := by
    intro r hr
    exact latestSnapshot_mem hr
  simp only [latestSnapshot, List.foldl_append, List.foldl_cons, List.foldl_nil] at hmem ⊢
  split
  · rfl
  · next r hr => exact if_pos (h r (hmem r hr))

/-! ## What a run does to the NAV -/

section Timelines

variable {K : Type}

/-- How often the NAV was set. -/
def setNavs (c : Timeline K) : Nat := c.history.countP (·.label.isSetNav)

/-- The NAV was not set from one to the other. -/
structure NavKept (c c' : Timeline K) : Prop where
  setNavs : setNavs c' = setNavs c
  nav : ∀ n, c.nav = some n → c'.nav = some n

/-- The NAV was set once, and is `n`. -/
structure NavSet (n : UInt64) (c c' : Timeline K) : Prop where
  setNavs : setNavs c' = setNavs c + 1
  nav : c'.nav = some n

variable {c c' c'' : Timeline K} {n : UInt64}

theorem NavKept.refl (c : Timeline K) : NavKept c c := ⟨rfl, fun _ h => h⟩

theorem NavKept.trans (h : NavKept c c') (h' : NavKept c' c'') : NavKept c c'' :=
  ⟨h'.setNavs.trans h.setNavs, fun n hn => h'.nav n (h.nav n hn)⟩

theorem NavSet.kept (h : NavSet n c c') (h' : NavKept c' c'') : NavSet n c c'' :=
  ⟨h'.setNavs.trans h.setNavs, h'.nav n h.nav⟩

theorem NavKept.set (h : NavKept c c') (h' : NavSet n c' c'') : NavSet n c c'' :=
  ⟨h'.setNavs.trans (congrArg (· + 1) h.setNavs), h'.nav⟩

variable [DecidableEq K] [Addresses K] [Deployment K] [TokenProgram K]

theorem setNavs_execute {act : Action K} {s : State K} (h : act.apply c.state = some s) :
    setNavs (c.execute act) = setNavs c + if act.isSetNav then 1 else 0 := by
  unfold setNavs
  rw [execute_some h, List.countP_append, List.countP_singleton]

theorem navKept_execute {act : Action K} (hact : act.isSetNav = false) :
    NavKept c (c.execute act) := by
  refine ⟨?_, fun n hn => execute_nav hn hact⟩
  cases happly : act.apply c.state with
  | none => rw [execute_none happly]
  | some s =>
      rw [setNavs_execute happly, hact]
      rfl

theorem navKept_executeAll {acts : List (Action K)} (hacts : ∀ act ∈ acts, act.isSetNav = false) :
    NavKept c (c.executeAll acts) :=
  executeAll_kept (P := NavKept c) (G := fun act => act.isSetNav = false)
    (fun hc hact => hc.trans (navKept_execute hact)) (.refl c) hacts

/-- A transaction leaves what the others did, or was executed upon it. -/
theorem Send.rpc_cases (r : Send K) (call : Call K) (c : Timeline K) :
    r.rpc call c = (none, c.executeAll r.others) ∨
      ∃ s ev, call.exec r.clock (c.executeAll r.others).state = .ok (s, ev) ∧
        r.rpc call c =
          (r.confirmation, (c.executeAll r.others).execute (.program r.clock call)) := by
  unfold Send.rpc
  cases r.reaches with
  | false => exact .inl rfl
  | true =>
      cases hexec : call.exec r.clock (c.executeAll r.others).state with
      | error e => exact .inl (by simp [hexec])
      | ok out => exact .inr ⟨out.1, out.2, rfl, by simp [hexec]⟩

/-- One that is no `set_nav` keeps the NAV, -/
theorem navKept_rpc {r : Send K} {call : Call K} (hothers : ∀ act ∈ r.others, act.isSetNav = false)
    (hcall : ∀ a nav, call ≠ .setNav a nav) : NavKept c (r.rpc call c).2 := by
  have hact : (Action.program r.clock call).isSetNav = false := by
    cases call <;> first | rfl | exact absurd rfl (hcall _ _)
  rcases r.rpc_cases call c with h | ⟨_, _, -, h⟩
  · rw [h]
    exact navKept_executeAll hothers
  · rw [h]
    exact (navKept_executeAll hothers).trans (navKept_execute hact)

theorem setNav_executed {a : SetNav K} {n : UInt64} {clock : Int64}
    {out : State K × Option (Event K)} (h : (Call.setNav a n).exec clock c.state = .ok out) :
    (c.execute (.program clock (.setNav a n))).nav = some n := by
  have happly : (Action.program clock (.setNav a n)).apply c.state = some out.1 := by
    simp only [Action.apply, h]
  obtain ⟨s, ev⟩ := out
  obtain ⟨vs, registry, -, hs⟩ := setNav_spec h
  rw [execute_some happly]
  exact Timeline.nav_eq_some.mpr ⟨_, by rw [hs], rfl⟩

/-- and one that is sets it if it is executed. -/
theorem navSet_rpc {r : Send K} {a : SetNav K} {n : UInt64}
    (hothers : ∀ act ∈ r.others, act.isSetNav = false) :
    NavSet n c (r.rpc (.setNav a n) c).2 ∨
      NavKept c (r.rpc (.setNav a n) c).2 ∧ (r.rpc (.setNav a n) c).1 = none := by
  have hkept : NavKept c (c.executeAll r.others) := navKept_executeAll hothers
  rcases r.rpc_cases (.setNav a n) c with h | ⟨s, ev, hexec, h⟩
  · rw [h]
    exact .inr ⟨hkept, rfl⟩
  · rw [h]
    have happly : (Action.program r.clock (.setNav a n)).apply (c.executeAll r.others).state =
        some s := by
      simp only [Action.apply, hexec]
    exact .inl (hkept.set ⟨setNavs_execute happly, setNav_executed hexec⟩)

end Timelines

section Ticks

variable {K : Type} [DecidableEq K] [Addresses K] [Deployment K] [TokenProgram K]
  (client : CrankClient K) (t : Tick K) (w : CrankWorld K)

/-- What the run comes to before its guards let it write. -/
def Tick.prepared : Prepared :=
  prepareOn w.fields t.observation ((t.read.vaultState w.chain).1.map vaultReading) t.checkedAt

theorem Tick.toNat_prepared :
    ((navArg (t.prepared w).newNavBps).toNat : Int) = (t.prepared w).newNavBps :=
  toNat_navArg (Int.le_trans (by decide) (le_computeNavBps ..)) (computeNavBps_le ..)

/-- What others do on the chain during the run. -/
def Tick.others : List (Action K) :=
  t.read.others ++ t.setNav.others ++ t.processYield.others ++ t.reread.others

/-- Nobody else sets the NAV during the run. -/
def Tick.Sole : Prop := ∀ act ∈ t.others, act.isSetNav = false

variable {t}

omit [DecidableEq K] [Addresses K] [Deployment K] [TokenProgram K] in
theorem Tick.Sole.parts (h : t.Sole) :
    (∀ act ∈ t.read.others, act.isSetNav = false) ∧
      (∀ act ∈ t.setNav.others, act.isSetNav = false) ∧
      (∀ act ∈ t.processYield.others, act.isSetNav = false) ∧
      ∀ act ∈ t.reread.others, act.isSetNav = false := by
  simp only [Tick.Sole, Tick.others, List.forall_mem_append] at h
  exact ⟨h.1.1.1, h.1.1.2, h.1.2, h.2⟩

variable (t)

/-- The world at the guards. -/
def Tick.begun : CrankWorld K :=
  { w with chain := (t.read.vaultState w.chain).2, fields := (t.prepared w).fields }

/-- The snapshot of the run. -/
def Tick.snapshot (txSignature : Option String) : NavSnapshot :=
  let q := (w.fields.observe t.observation).1
  ⟨(t.prepared w).newNavBps, q.sixSource, txSignature, q.goldPrice, q.chfUsd,
    eusxOr t.observation.eusx, t.recordedAt⟩

/-- `set_nav` as the run calls it. -/
def Tick.published : Option String × CrankWorld K :=
  let reading := (t.read.vaultState w.chain).1.map vaultReading
  publish client t (t.prepared w).newNavBps ((reading.map (·.currentNavBps)).getD 10000)
    ((reading.map (·.usxAllocationBps)).getD 7000) (eusxOr t.observation.eusx) (t.begun w)

/-- A run that is held back goes no further, but may record what it computed. -/
theorem updateNav_held (h : (t.prepared w).decision ≠ .setNav) :
    (updateNav client t w).2 = t.begun w ∨
      (updateNav client t w).2 = recordSnapshot t (t.snapshot w none) (t.begun w) := by
  unfold updateNav
  simp only
  split
  · exact .inr rfl
  · exact .inl rfl
  · exact .inr rfl
  · next hset => exact absurd hset h

/-- A run that is not calls `set_nav` and records it. -/
theorem updateNav_sent (h : (t.prepared w).decision = .setNav) :
    ∃ audit, (updateNav client t w).2 =
      { recordSnapshot t (t.snapshot w (t.published client w).1) (t.published client w).2 with
        navAuditEvents := audit } := by
  unfold updateNav
  simp only
  split
  · next hlarge => cases h.symm.trans hlarge
  · next hrecent => cases h.symm.trans hrecent
  · next hnone => cases h.symm.trans hnone
  · split
    · exact ⟨_, rfl⟩
    · exact ⟨_, rfl⟩

omit [DecidableEq K] [Addresses K] [Deployment K] [TokenProgram K] in
@[simp] theorem recordSnapshot_chain (row : NavSnapshot) :
    (recordSnapshot t row w).chain = w.chain := by
  unfold recordSnapshot
  split <;> rfl

omit [DecidableEq K] [Addresses K] [Deployment K] [TokenProgram K] in
@[simp] theorem recordSnapshot_fields (row : NavSnapshot) :
    (recordSnapshot t row w).fields = w.fields := by
  unfold recordSnapshot
  split <;> rfl

omit [DecidableEq K] [Addresses K] [Deployment K] [TokenProgram K] in
theorem recordSnapshot_navSnapshots (row : NavSnapshot) :
    (recordSnapshot t row w).navSnapshots = w.navSnapshots ∨
      (recordSnapshot t row w).navSnapshots = w.navSnapshots ++ [row] := by
  unfold recordSnapshot
  split
  · exact .inr rfl
  · exact .inl rfl

/-- The yield tick is about other things. -/
theorem tickYield_kept (navBefore navAfter alloc : Int) (e : Price) :
    (tickYield client t navBefore navAfter alloc e w).navSnapshots = w.navSnapshots ∧
      (tickYield client t navBefore navAfter alloc e w).fields = w.fields ∧
      (t.Sole → NavKept w.chain (tickYield client t navBefore navAfter alloc e w).chain) := by
  have hrpc : t.Sole → NavKept w.chain
      (t.processYield.rpc (.processYield ⟨vaultStateKey, client.authority⟩) w.chain).2 := by
    intro hsole
    exact navKept_rpc hsole.parts.2.2.1 (by simp)
  unfold tickYield recordYieldEvent
  generalize t.processYield.rpc (.processYield ⟨vaultStateKey, client.authority⟩) w.chain = sent
    at hrpc ⊢
  obtain ⟨_ | tx, chain⟩ := sent
  · exact ⟨rfl, rfl, hrpc⟩
  · have hread : t.Sole → NavKept w.chain (t.reread.vaultState chain).2 := by
      intro hsole
      exact (hrpc hsole).trans (navKept_executeAll hsole.parts.2.2.2)
    simp only
    generalize t.reread.vaultState chain = reread at hread ⊢
    obtain ⟨_ | vs, chain'⟩ := reread
    · exact ⟨rfl, rfl, hread⟩
    · simp only
      split
      · exact ⟨rfl, rfl, hread⟩
      · exact ⟨rfl, rfl, hread⟩

/-- `set_nav` is executed or not, and if it is confirmed it was. -/
theorem published_cases (hsole : t.Sole) :
    (t.published client w).2.navSnapshots = w.navSnapshots ∧
      (NavSet (navArg (t.prepared w).newNavBps) (t.begun w).chain (t.published client w).2.chain ∨
        NavKept (t.begun w).chain (t.published client w).2.chain ∧
          (t.published client w).1 = none) := by
  have hrpc := navSet_rpc (c := (t.begun w).chain) (r := t.setNav) (a := client.setNav)
    (n := navArg (t.prepared w).newNavBps) hsole.parts.2.1
  unfold Tick.published publish
  simp only
  generalize t.setNav.rpc (.setNav client.setNav (navArg (t.prepared w).newNavBps))
    (t.begun w).chain = sent at hrpc ⊢
  obtain ⟨_ | tx, chain⟩ := sent
  · refine ⟨rfl, ?_⟩
    rcases hrpc with hset | ⟨hkept, -⟩
    · exact .inl hset
    · exact .inr ⟨hkept, rfl⟩
  · obtain ⟨hrows, -, hchain⟩ := tickYield_kept client t _ _ _ _ _
    refine ⟨hrows, ?_⟩
    rcases hrpc with hset | ⟨-, hnone⟩
    · exact .inl (hset.kept (hchain hsole))
    · cases hnone

/-- A run keeps the NAV or sets the one it computed. -/
theorem updateNav_chain (hsole : t.Sole) :
    NavKept w.chain (updateNav client t w).2.chain ∨
      (t.prepared w).decision = .setNav ∧
        NavSet (navArg (t.prepared w).newNavBps) w.chain (updateNav client t w).2.chain := by
  have hread : NavKept w.chain (t.begun w).chain := navKept_executeAll hsole.parts.1
  by_cases hdecision : (t.prepared w).decision = .setNav
  · obtain ⟨audit, hsent⟩ := updateNav_sent client t w hdecision
    have hchain : (updateNav client t w).2.chain = (t.published client w).2.chain := by
      rw [hsent]
      exact recordSnapshot_chain ..
    rw [hchain]
    rcases (published_cases client t w hsole).2 with hset | ⟨hkept, -⟩
    · exact .inr ⟨hdecision, hread.set hset⟩
    · exact .inl (hread.trans hkept)
  · have hchain : (updateNav client t w).2.chain = (t.begun w).chain := by
      rcases updateNav_held client t w hdecision with h | h
      · rw [h]
      · rw [h, recordSnapshot_chain]
    rw [hchain]
    exact .inl hread

/-- A run records the NAV it computed or nothing. -/
theorem updateNav_navSnapshots (hsole : t.Sole) :
    (updateNav client t w).2.navSnapshots = w.navSnapshots ∨
      ∃ row, (updateNav client t w).2.navSnapshots = w.navSnapshots ++ [row] ∧
        row.navBps = (t.prepared w).newNavBps ∧ row.timestamp = t.recordedAt := by
  by_cases hdecision : (t.prepared w).decision = .setNav
  · obtain ⟨audit, hsent⟩ := updateNav_sent client t w hdecision
    have hrows : (updateNav client t w).2.navSnapshots = (recordSnapshot t
        (t.snapshot w (t.published client w).1) (t.published client w).2).navSnapshots := by
      rw [hsent]
    have hkept : (t.published client w).2.navSnapshots = w.navSnapshots :=
      (published_cases client t w hsole).1
    rcases recordSnapshot_navSnapshots t (t.published client w).2
        (t.snapshot w (t.published client w).1) with h | h
    · exact .inl (hrows.trans (h.trans hkept))
    · exact .inr ⟨_, hrows.trans (hkept ▸ h), rfl, rfl⟩
  · rcases updateNav_held client t w hdecision with h | h
    · exact .inl (by rw [h]; rfl)
    · rw [h]
      rcases recordSnapshot_navSnapshots t (t.begun w) (t.snapshot w none) with h' | h'
      · exact .inl h'
      · exact .inr ⟨_, h', rfl, rfl⟩

end Ticks

/-! ## Runs -/

/-- What happens between two looks at the tables: the crank runs, or somebody acts on the chain. -/
inductive CrankEvent (K : Type) where
  | tick (t : Tick K)
  | act (act : Action K)

section Runs

variable {K : Type} [DecidableEq K] [Addresses K] [Deployment K] [TokenProgram K]

/-- A run of the crank at a time later than any snapshot's, or an action on the chain. -/
inductive CrankStep (client : CrankClient K) : CrankWorld K → CrankEvent K → CrankWorld K → Prop
  | tick {w : CrankWorld K} {t : Tick K} : (∀ row ∈ w.navSnapshots, row.timestamp < t.recordedAt) →
      CrankStep client w (.tick t) (updateNav client t w).2
  | act {w : CrankWorld K} {act : Action K} :
      CrankStep client w (.act act) { w with chain := w.chain.execute act }

/-- Nobody but the crank calls `set_nav`. -/
def CrankEvent.Sole : CrankEvent K → Prop
  | .tick t => t.Sole
  | .act a => a.isSetNav = false

abbrev CrankTransition (K : Type) := Transition (CrankWorld K) (CrankEvent K)

/-- The NAV was set, -/
def NavWritten (t : CrankTransition K) : Prop := setNavs t.post.chain ≠ setNavs t.pre.chain

/-- and a snapshot was recorded. -/
def SnapshotWritten (t : CrankTransition K) : Prop := t.post.navSnapshots ≠ t.pre.navSnapshots

/-- The NAV the backend has is the one on the chain. -/
def Agrees (w : CrankWorld K) : Prop :=
  ∃ n, w.chain.nav = some n ∧ (navCurrent w.navSnapshots).navBps = some (n.toNat : Int)

variable {client : CrankClient K} {w w' : CrankWorld K} {e : CrankEvent K}

/-- What writes neither keeps them as they are, -/
theorem CrankStep.agrees_of_kept (h : CrankStep client w e w') (hsole : e.Sole) (hw : Agrees w)
    (hnav : ¬ NavWritten ⟨w, e, w'⟩) (hrow : ¬ SnapshotWritten ⟨w, e, w'⟩) : Agrees w' := by
  obtain ⟨n, hn, hcurrent⟩ := hw
  have hrows : w'.navSnapshots = w.navSnapshots := not_not.mp hrow
  refine ⟨n, ?_, hrows ▸ hcurrent⟩
  cases h with
  | act => exact execute_nav hn hsole
  | tick _ =>
      rcases updateNav_chain client _ w hsole with hkept | ⟨-, hset⟩
      · exact hkept.nav n hn
      · refine absurd ?_ hnav
        show setNavs _ ≠ setNavs w.chain
        rw [hset.setNavs]
        exact Nat.succ_ne_self _

/-- and what writes both writes the same to both. -/
theorem CrankStep.agrees_of_written (h : CrankStep client w e w') (hsole : e.Sole)
    (hnav : NavWritten ⟨w, e, w'⟩) (hrow : SnapshotWritten ⟨w, e, w'⟩) : Agrees w' := by
  cases h with
  | act => exact absurd rfl hrow
  | @tick t hlater =>
      rcases updateNav_chain client t w hsole with hkept | ⟨-, hset⟩
      · exact absurd hkept.setNavs hnav
      · rcases updateNav_navSnapshots client t w hsole with hsame | ⟨row, hrows, hbps, hstamp⟩
        · exact absurd hsame hrow
        · refine ⟨_, hset.nav, ?_⟩
          have hlatest : latestSnapshot (w.navSnapshots ++ [row]) = some row :=
            latestSnapshot_append (hstamp ▸ hlater)
          rw [hrows, t.toNat_prepared, ← hbps, navCurrent, hlatest]
          rfl

/-- The NAV the backend has is the one on the chain as long as the last run that wrote to either
wrote to both. -/
theorem navCurrent_eq_nav {w₀ : CrankWorld K} {ts : List (CrankTransition K)}
    (h : Run (CrankStep client) w₀ ts w) (hsole : ∀ t ∈ ts, t.label.Sole)
    (hsince : Since ts (fun t => NavWritten t ∧ SnapshotWritten t)
      fun t => NavWritten t ∨ SnapshotWritten t) : Agrees w := by
  induction h with
  | nil => exact absurd hsince not_since_nil
  | snoc hrun hstep ih =>
      simp only [List.forall_mem_append, List.forall_mem_singleton] at hsole
      rcases since_snoc_iff.mp hsince with ⟨hnav, hrow⟩ | ⟨hbefore, hneither⟩
      · exact hstep.agrees_of_written hsole.2 hnav hrow
      · have hw := ih hsole.1 hbefore
        exact hstep.agrees_of_kept hsole.2 hw (fun hnav => hneither (.inl hnav))
          fun hrow => hneither (.inr hrow)

/-! ## The same price again and again -/

/-- The crank is told `o` and every call of it gets through, at least the interval after the last
update; others may act, but do not set the NAV. -/
def Repeats (client : CrankClient K) (o : Observation) (t : CrankTransition K) : Prop :=
  match t.label with
  | .tick tick => tick.observation = o ∧ tick.Sole ∧ tick.read.answered = true ∧
      minUpdateIntervalMs ≤ tick.checkedAt - t.pre.fields.lastOnChainUpdateMs ∧
      ((tick.prepared t.pre).decision = .setNav →
        (tick.published client t.pre).1.isSome = true)
  | .act a => a.isSetNav = false

/-- Where a read is answered, a run knows the NAV. -/
theorem Tick.reading {t : Tick K} {n : UInt64} (hn : w.chain.nav = some n) (hsole : t.Sole)
    (hread : t.read.answered = true) :
    ∃ alloc, (t.read.vaultState w.chain).1.map vaultReading = some ⟨readNav n, alloc⟩ := by
  have hkept : NavKept w.chain (w.chain.executeAll t.read.others) := navKept_executeAll hsole.parts.1
  obtain ⟨vs, hvs, rfl⟩ := Timeline.nav_eq_some.mp (hkept.nav n hn)
  refine ⟨Js.number vs.usxAllocationBps.toNat, ?_⟩
  show Option.map vaultReading (if t.read.answered then fetchVaultState _ else none) = _
  rw [if_pos hread, fetchVaultState_eq, hvs]
  rfl

/-- One run brings the NAV to what it computed, or leaves it if that is too far off. -/
theorem tick_repeats {t : Tick K} {n : UInt64} (hn : w.chain.nav = some n)
    (h : Repeats client t.observation ⟨w, .tick t, (updateNav client t w).2⟩) :
    (|(t.prepared w).newNavBps - (n.toNat : Int)| ≤ 1000 →
      (updateNav client t w).2.chain.nav = some (navArg (t.prepared w).newNavBps)) ∧
    (1000 < |(t.prepared w).newNavBps - (n.toNat : Int)| →
      (updateNav client t w).2.chain.nav = some n) := by
  obtain ⟨-, hsole, hread, hspaced, hconfirmed⟩ := h
  obtain ⟨alloc, hreading⟩ := Tick.reading hn hsole hread
  have hprepared : t.prepared w =
      prepareOn w.fields t.observation (some ⟨readNav n, alloc⟩) t.checkedAt := by
    rw [Tick.prepared, hreading]
  have hchain := updateNav_chain client t w hsole
  constructor
  · intro hnear
    have hbound := abs_le.mp hnear
    have hhi : (t.prepared w).newNavBps ≤ 20000 := computeNavBps_le ..
    have hexact : readNav n = n.toNat := Js.number_of_le (by omega)
    have hdecision : (t.prepared w).decision = .setNav := by
      have hnav : |(t.prepared w).newNavBps - readNav n| ≤ maxNavChangeBps := hexact ▸ hnear
      rw [hprepared] at hnav ⊢
      exact guards_eq_setNav.mpr ⟨_, rfl, hnav, hspaced⟩
    obtain ⟨audit, hsent⟩ := updateNav_sent client t w hdecision
    have hafter : (updateNav client t w).2.chain = (t.published client w).2.chain := by
      rw [hsent]
      exact recordSnapshot_chain ..
    rw [hafter]
    rcases (published_cases client t w hsole).2 with hset | ⟨-, hnone⟩
    · exact hset.nav
    · have hsome := hconfirmed hdecision
      rw [hnone] at hsome
      cases hsome
  · intro hfar
    rcases hchain with hkept | ⟨hdecision, -⟩
    · exact hkept.nav n hn
    · rw [hprepared] at hdecision hfar
      exact absurd (prepare_near _ _ _ _ _ _ hdecision) (Int.not_le.mpr hfar)

/-- The fields of a run are those of what it computed, but for the time of the update. -/
theorem updateNav_fields (client : CrankClient K) (t : Tick K) (w : CrankWorld K) :
    ∃ ms, (updateNav client t w).2.fields =
      { (t.prepared w).fields with lastOnChainUpdateMs := ms } := by
  by_cases hdecision : (t.prepared w).decision = .setNav
  · obtain ⟨audit, hsent⟩ := updateNav_sent client t w hdecision
    have hfields : (updateNav client t w).2.fields = (t.published client w).2.fields := by
      rw [hsent]
      exact recordSnapshot_fields ..
    rw [hfields]
    unfold Tick.published publish
    simp only
    generalize t.setNav.rpc (.setNav client.setNav (navArg (t.prepared w).newNavBps))
      (t.begun w).chain = sent
    obtain ⟨_ | tx, chain⟩ := sent
    · exact ⟨_, rfl⟩
    · obtain ⟨-, hkept, -⟩ := tickYield_kept client t _ _ _ _ _
      exact ⟨_, hkept⟩
  · rcases updateNav_held client t w hdecision with h | h
    · exact ⟨_, by rw [h]; rfl⟩
    · exact ⟨_, by rw [h, recordSnapshot_fields]; rfl⟩

/-- Some transition is a run of the crank. -/
def Ticked (ts : List (CrankTransition K)) : Prop := ∃ t ∈ ts, ∃ tick, t.label = .tick tick

/-- The price computed stays what it is, and the NAV is where it was or at the price. -/
theorem repeats_invariant {o : Observation} {w₀ : CrankWorld K} {ts : List (CrankTransition K)}
    {n : UInt64} (h : Run (CrankStep client) w₀ ts w) (hrepeats : ∀ t ∈ ts, Repeats client o t)
    (hn : w₀.chain.nav = some n) :
    (observedNav w.fields o).1 = (observedNav w₀.fields o).1 ∧
      ∃ c, w.chain.nav = some c ∧
        (|(observedNav w₀.fields o).1 - (n.toNat : Int)| ≤ 1000 →
          c = navArg (observedNav w₀.fields o).1 ∨ c = n ∧ ¬ Ticked ts) ∧
        (1000 < |(observedNav w₀.fields o).1 - (n.toNat : Int)| → c = n) := by
  induction h with
  | nil => exact ⟨rfl, n, hn, fun _ => .inr ⟨rfl, by simp [Ticked]⟩, fun _ => rfl⟩
  | @snoc ts w w' e hrun hstep ih =>
      simp only [List.forall_mem_append, List.forall_mem_singleton] at hrepeats
      obtain ⟨hprice, c, hc, hnear, hfar⟩ := ih hrepeats.1
      cases hstep with
      | @act a =>
          refine ⟨hprice, c, execute_nav hc hrepeats.2, ?_, hfar⟩
          intro hle
          rcases hnear hle with hset | ⟨hsame, hnone⟩
          · exact .inl hset
          · refine .inr ⟨hsame, ?_⟩
            rintro ⟨t, ht, tick, hlabel⟩
            rcases List.mem_append.mp ht with hmem | hmem
            · exact hnone ⟨t, hmem, tick, hlabel⟩
            · rw [List.mem_singleton.mp hmem] at hlabel
              cases hlabel
      | @tick t _ =>
          obtain ⟨rfl, -⟩ := hrepeats.2
          have hcomputed : (t.prepared w).newNavBps = (observedNav w₀.fields t.observation).1 :=
            hprice
          obtain ⟨ms, hfields⟩ := updateNav_fields client t w
          have hstays : (observedNav (updateNav client t w).2.fields t.observation).1 =
              (observedNav w₀.fields t.observation).1 := by
            rw [hfields, ← hprice]
            exact observedNav_again w.fields t.observation
          obtain ⟨hto, hstay⟩ := tick_repeats hc hrepeats.2
          rw [hcomputed] at hto hstay
          refine ⟨hstays, ?_⟩
          rcases le_or_gt |(observedNav w₀.fields t.observation).1 - (n.toNat : Int)| 1000 with
            hle | hlt
          · refine ⟨_, hto ?_, fun _ => .inl rfl, fun hlt => absurd hle (Int.not_le.mpr hlt)⟩
            rcases hnear hle with rfl | ⟨rfl, -⟩
            · have hexact := t.toNat_prepared w
              rw [hcomputed] at hexact
              rw [hexact, sub_self]
              decide
            · exact hle
          · have hsame := hfar hlt
            rw [hsame] at hstay
            exact ⟨n, hstay hlt, fun hle => absurd hle (Int.not_le.mpr hlt), fun _ => rfl⟩

/-- After the first run of many on one price the NAV is at the price, if it was within the guard of
it, and where it was before, if it was not. -/
theorem repeated_runs {o : Observation} {w₀ : CrankWorld K} {ts : List (CrankTransition K)}
    {n : UInt64} (h : Run (CrankStep client) w₀ ts w) (hrepeats : ∀ t ∈ ts, Repeats client o t)
    (hticked : Ticked ts) (hn : w₀.chain.nav = some n) :
    (|(observedNav w₀.fields o).1 - (n.toNat : Int)| ≤ 1000 →
      w.chain.nav = some (navArg (observedNav w₀.fields o).1)) ∧
    (1000 < |(observedNav w₀.fields o).1 - (n.toNat : Int)| → w.chain.nav = some n) := by
  obtain ⟨-, c, hc, hnear, hfar⟩ := repeats_invariant h hrepeats hn
  constructor
  · intro hle
    rcases hnear hle with rfl | ⟨-, hnone⟩
    · exact hc
    · exact absurd hticked hnone
  · intro hlt
    rw [hc, hfar hlt]

end Runs

/-! ## Runs on a small cluster -/

namespace Cluster

open OragamiVault.Cluster

/-- The vault is open, and its NAV may be set. -/
def opened : State FreeKey := final (.genesis OragamiVault.Cluster.ledger) [opening, registry]

def crankClient : CrankClient FreeKey :=
  ⟨admin, ⟨vaultStateKey, rwaAssetRegistryKey, admin⟩⟩

/-- A run that hears of eUSX only, with nothing in its way. -/
def tick (eusx : Price) (ms : Int) : Tick FreeKey where
  observation := ⟨none, none, some eusx⟩
  read := ⟨[], true⟩
  setNav := ⟨[], true, 0, some "set_nav"⟩
  processYield := ⟨[], true, 0, some "process_yield"⟩
  reread := ⟨[], true⟩
  navSnapshot := true
  yieldEvent := true
  auditEvent := true
  checkedAt := ms
  confirmedAt := ms
  countedAt := ms
  recordedAt := ms
  auditedAt := ms

def cranking : CrankWorld FreeKey := ⟨⟨opened, []⟩, .started, [], [], []⟩

/-- After a run at par, -/
def cranked : CrankWorld FreeKey := (updateNav crankClient (tick par 120000) cranking).2

/-- and after one that finds eUSX at two. -/
def held : CrankWorld FreeKey := (updateNav crankClient (tick ⟨2, by decide⟩ 240000) cranked).2

theorem cranked_run : Run (CrankStep crankClient) cranking
    [⟨cranking, .tick (tick par 120000), cranked⟩] cranked :=
  Run.snoc Run.nil (.tick (by simp [cranking]))

theorem tick_sole (eusx : Price) (ms : Int) : (tick eusx ms).Sole := by
  simp [Tick.Sole, Tick.others, tick]

theorem cranked_sole :
    ∀ t ∈ [(⟨cranking, .tick (tick par 120000), cranked⟩ : CrankTransition FreeKey)],
      t.label.Sole := by
  intro t ht
  rw [List.mem_singleton.mp ht]
  exact tick_sole par 120000

theorem cranked_written : NavWritten ⟨cranking, .tick (tick par 120000), cranked⟩ ∧
    SnapshotWritten ⟨cranking, .tick (tick par 120000), cranked⟩ := by
  constructor
  · show setNavs cranked.chain ≠ setNavs cranking.chain
    decide +kernel
  · have hlength : cranked.navSnapshots.length = 1 := by decide +kernel
    intro hsame
    have hzero : cranked.navSnapshots.length = 0 := congrArg List.length hsame
    rw [hlength] at hzero
    cases hzero

theorem cranked_timestamp : ∀ row ∈ cranked.navSnapshots, row.timestamp < 240000 := by
  decide +kernel

end Cluster

theorem navCurrent_eq_nav_cranked : Agrees Cluster.cranked :=
  navCurrent_eq_nav Cluster.cranked_run Cluster.cranked_sole
    ⟨[], _, [], rfl, Cluster.cranked_written, by simp⟩

/-- One run at par is published, and after the next the backend has 1.20 where the chain has 1. -/
theorem navCurrent_differs : ∃ ts w, Run (CrankStep Cluster.crankClient) Cluster.cranking ts w ∧
    (∀ t ∈ ts, t.label.Sole) ∧ (∃ t ∈ ts, NavWritten t) ∧ w.chain.nav = some 10000 ∧
    (navCurrent w.navSnapshots).navBps = some 12000 := by
  refine ⟨_, Cluster.held, .snoc Cluster.cranked_run (.tick (t := Cluster.tick ⟨2, by decide⟩ 240000)
    Cluster.cranked_timestamp), ?_, ⟨_, List.mem_cons_self, Cluster.cranked_written.1⟩, ?_, ?_⟩
  · refine List.forall_mem_append.mpr ⟨Cluster.cranked_sole, List.forall_mem_singleton.mpr ?_⟩
    exact Cluster.tick_sole _ _
  · decide +kernel
  · decide +kernel

namespace Cluster

/-- eUSX at two, and no other price. -/
def dear : Observation := ⟨none, none, some ⟨2, by decide⟩⟩

theorem cranking_nav : cranking.chain.nav = some 10000 := by decide +kernel

theorem cranking_dear : (observedNav cranking.fields dear).1 = 12000 := by decide +kernel

/-- A run at any later time. -/
def tickAfter (w : CrankWorld FreeKey) (ms : Int) : Tick FreeKey :=
  { tick ⟨2, by decide⟩ ms with
    checkedAt := w.fields.lastOnChainUpdateMs + minUpdateIntervalMs }

theorem tickAfter_sole (w : CrankWorld FreeKey) (ms : Int) : (tickAfter w ms).Sole :=
  tick_sole ⟨2, by decide⟩ ms

theorem exists_later (rows : List NavSnapshot) : ∃ ms, ∀ row ∈ rows, row.timestamp < ms := by
  induction rows with
  | nil => exact ⟨0, by simp⟩
  | cons row rows ih =>
      obtain ⟨ms, hms⟩ := ih
      refine ⟨max ms (row.timestamp + 1), ?_⟩
      intro r hr
      rcases List.mem_cons.mp hr with rfl | hmem
      · omega
      · have := hms r hmem
        omega

/-- The price is out of reach however often the crank is run. -/
theorem dear_out_of_reach (k : Nat) : ∃ ts w, Run (CrankStep crankClient) cranking ts w ∧
    (∀ t ∈ ts, Repeats crankClient dear t) ∧ ts.length = k ∧ w.chain.nav = some 10000 := by
  induction k with
  | zero => exact ⟨[], cranking, .nil, by simp, rfl, cranking_nav⟩
  | succ k ih =>
      obtain ⟨ts, w, hrun, hrepeats, hlength, hnav⟩ := ih
      obtain ⟨ms, hms⟩ := exists_later w.navSnapshots
      have hstep : CrankStep crankClient w (.tick (tickAfter w ms))
          (updateNav crankClient (tickAfter w ms) w).2 := .tick hms
      have hcomputed : ((tickAfter w ms).prepared w).newNavBps = 12000 :=
        (repeats_invariant hrun hrepeats cranking_nav).1.trans cranking_dear
      have hfar : 1000 < |((tickAfter w ms).prepared w).newNavBps - ((10000 : UInt64).toNat : Int)| := by
        rw [hcomputed]
        decide
      have hlast : Repeats crankClient dear
          ⟨w, .tick (tickAfter w ms), (updateNav crankClient (tickAfter w ms) w).2⟩ := by
        refine ⟨rfl, tickAfter_sole w ms, rfl, ?_, ?_⟩
        · show minUpdateIntervalMs ≤ w.fields.lastOnChainUpdateMs + minUpdateIntervalMs -
            w.fields.lastOnChainUpdateMs
          omega
        · intro hdecision
          obtain ⟨alloc, hreading⟩ := Tick.reading hnav (tickAfter_sole w ms) rfl
          rw [Tick.prepared, hreading] at hdecision hfar
          exact absurd (prepare_near _ _ _ _ _ _ hdecision) (Int.not_le.mpr hfar)
      refine ⟨_, _, .snoc hrun hstep, ?_, by rw [List.length_append, hlength]; rfl, ?_⟩
      · exact List.forall_mem_append.mpr ⟨hrepeats, List.forall_mem_singleton.mpr hlast⟩
      · exact (tick_repeats hnav hlast).2 hfar

end Cluster

namespace Cluster

/-- eUSX at one and a half. -/
def oneAndHalf : Price := ⟨3 / 2, by norm_num⟩

/-- After a run that finds it there, -/
def raised : CrankWorld FreeKey := (updateNav crankClient (tick oneAndHalf 120000) cranking).2

/-- and after another. -/
def steady : CrankWorld FreeKey := (updateNav crankClient (tick oneAndHalf 240000) raised).2

def steadying : List (CrankTransition FreeKey) :=
  [⟨cranking, .tick (tick oneAndHalf 120000), raised⟩,
    ⟨raised, .tick (tick oneAndHalf 240000), steady⟩]

theorem raised_timestamp : ∀ row ∈ raised.navSnapshots, row.timestamp < 240000 := by
  decide +kernel

theorem steadying_run : Run (CrankStep crankClient) cranking steadying steady :=
  (Run.snoc Run.nil (.tick (by simp [cranking]))).snoc
    (.tick (t := tick oneAndHalf 240000) raised_timestamp)

theorem steadying_repeats : ∀ t ∈ steadying, Repeats crankClient ⟨none, none, some oneAndHalf⟩ t := by
  refine List.forall_mem_cons.mpr ⟨?_, List.forall_mem_singleton.mpr ?_⟩
  · exact ⟨rfl, tick_sole oneAndHalf 120000, rfl, by decide +kernel, fun _ => by decide +kernel⟩
  · exact ⟨rfl, tick_sole oneAndHalf 240000, rfl, by decide +kernel, fun _ => by decide +kernel⟩

end Cluster

/-- Two runs on that price take the NAV from 1 to 1.10 and leave it there. -/
theorem repeated_runs_cranked : Cluster.steady.chain.nav = some 11000 := by
  have hprice :
      (observedNav Cluster.cranking.fields ⟨none, none, some Cluster.oneAndHalf⟩).1 = 11000 := by
    decide +kernel
  have hnav := (repeated_runs Cluster.steadying_run Cluster.steadying_repeats
    ⟨_, List.mem_cons_self, _, rfl⟩ Cluster.cranking_nav).1 (by rw [hprice]; decide)
  rw [hprice] at hnav
  exact hnav

/-- With the NAV at 1 and the price at 1.20 no number of runs will do. -/
theorem repeated_runs_stuck : ¬ ∃ k, ∀ ts w, Run (CrankStep Cluster.crankClient) Cluster.cranking ts w →
    (∀ t ∈ ts, Repeats Cluster.crankClient Cluster.dear t) → ts.length = k →
      w.chain.nav = some 12000 := by
  rintro ⟨k, h⟩
  obtain ⟨ts, w, hrun, hrepeats, hlength, hnav⟩ := Cluster.dear_out_of_reach k
  have hreached := h ts w hrun hrepeats hlength
  rw [hnav] at hreached
  cases hreached

end Backend
