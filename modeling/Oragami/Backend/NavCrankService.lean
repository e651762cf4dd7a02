/-
# `Oragami.Backend.NavCrankService` — a run of the NAV crank

`updateNav` reads the vault, computes a NAV and, unless one of three guards holds it back,
sends `set_nav`; then it has the yield processed and records what it did.  It goes on
after most of what can fail, so what a run leaves behind depends on which calls got
through: a `Tick` says that of each, and what others did on the chain before it.

The guard on the change is a difference of a thousand points, wherever the NAV stands.
That keeps `set_nav` from ever being refused for its value (`setNav_admissible`), though it
is no tenth of the NAV but from par on (`tenth_of_nav_iff`).
-/
import Oragami.Backend.NavPrice
import Oragami.Backend.World
import Oragami.OragamiVault.History

namespace Backend

open Idl OragamiVault

/-! ## Guards -/

def maxNavChangeBps : Int := 1000
def minUpdateIntervalMs : Int := 90000

/-- What a run takes from the vault state. -/
structure VaultReading where
  currentNavBps : Int
  usxAllocationBps : Int

/-- Where a run goes once the NAV is computed. -/
inductive Decision where
  | changeTooLarge
  | tooRecent
  | notInitialized
  | setNav
deriving DecidableEq

/-- The guards, in their order; `reading` is nothing where the vault state was not read. -/
def guards (lastOnChainUpdateMs now : Int) (reading : Option VaultReading) (newNavBps : Int) :
    Decision :=
  let currentNavBps := (reading.map (·.currentNavBps)).getD 10000
  if maxNavChangeBps < |newNavBps - currentNavBps| then .changeTooLarge
  else if now - lastOnChainUpdateMs < minUpdateIntervalMs then .tooRecent
  else if reading.isNone then .notInitialized
  else .setNav

theorem guards_eq_setNav {last now : Int} {reading : Option VaultReading} {nav : Int} :
    guards last now reading nav = .setNav ↔ ∃ r, reading = some r ∧
      |nav - r.currentNavBps| ≤ maxNavChangeBps ∧ minUpdateIntervalMs ≤ now - last := by
  unfold guards
  cases reading with
  | none =>
      simp only [Option.isNone_none, if_true, reduceCtorEq, false_and, exists_false, iff_false]
      split
      · simp
      · split <;> simp
  | some r =>
      simp only [Option.map_some, Option.getD_some, Option.isNone_some, Bool.false_eq_true, if_false,
        Option.some.injEq, exists_eq_left']
      split
      · next hlarge => simp [Int.not_le.mpr hlarge]
      · next hsmall =>
          split
          · next hrecent => simp [Int.not_le.mpr hrecent]
          · next hlate => simp [Int.not_lt.mp hsmall, Int.not_lt.mp hlate]

/-- A run up to its guards. -/
structure Prepared where
  newNavBps : Int
  fields : Fields
  decision : Decision

def prepare (f : Fields) (q : Quotes) (eusxNav : Price) (reading : Option VaultReading)
    (now : Int) : Prepared where
  newNavBps := (computeNavBps f q eusxNav).1
  fields := (computeNavBps f q eusxNav).2
  decision := guards f.lastOnChainUpdateMs now reading (computeNavBps f q eusxNav).1

/-- The NAV as a run reads it. -/
def readNav (n : UInt64) : Int := Js.number n.toNat

/-- A NAV near one the crank computes is read as it is. -/
theorem readNav_of_near {n : UInt64} {nav : Int} (hnav : nav ≤ 20000)
    (h : |nav - readNav n| ≤ maxNavChangeBps) : readNav n = n.toNat := by
  refine Js.number_of_le ?_
  have habs := abs_le.mp h
  have hround : readNav n = Js.roundNat n.toNat := rfl
  have hmax : maxNavChangeBps = 1000 := rfl
  by_contra hlarge
  have hle : 2 ^ 53 ≤ Js.roundNat n.toNat := Js.le_roundNat (Nat.le_of_not_le hlarge)
  omega

section Prepared

variable (f : Fields) (q : Quotes) (e : Price) (now alloc : Int) (n : UInt64)

/-- What a run sends is near to what it read. -/
theorem prepare_near (h : (prepare f q e (some ⟨readNav n, alloc⟩) now).decision = .setNav) :
    |(prepare f q e (some ⟨readNav n, alloc⟩) now).newNavBps - (n.toNat : Int)| ≤ 1000 := by
  obtain ⟨r, hr, hnear, -⟩ := guards_eq_setNav.mp h
  cases hr
  have hread := readNav_of_near (computeNavBps_le f q e) hnear
  rw [← hread]
  exact hnear

/-! ## What the program makes of it -/

/-- `new BN(newNavBps)` as the instruction has it. -/
def navArg (navBps : Int) : UInt64 := UInt64.ofNat navBps.toNat

theorem toNat_navArg {navBps : Int} (hlo : 0 ≤ navBps) (hhi : navBps ≤ 20000) :
    ((navArg navBps).toNat : Int) = navBps := by
  have hsize : UInt64.size = 2 ^ 64 := rfl
  rw [navArg, UInt64.toNat_ofNat_of_lt' (by omega)]
  omega

/-- Every NAV a run sends passes the guards of `set_nav`, as long as the NAV is the one it read. -/
theorem setNav_admissible
    (h : (prepare f q e (some ⟨readNav n, alloc⟩) now).decision = .setNav) :
    navGuard n (navArg (prepare f q e (some ⟨readNav n, alloc⟩) now).newNavBps) = .ok () := by
  have hnear := abs_le.mp (prepare_near f q e now alloc n h)
  have hlo : 5000 ≤ (prepare f q e (some ⟨readNav n, alloc⟩) now).newNavBps :=
    le_computeNavBps f q e
  have hhi : (prepare f q e (some ⟨readNav n, alloc⟩) now).newNavBps ≤ 20000 :=
    computeNavBps_le f q e
  have harg := toNat_navArg (Int.le_trans (by decide) hlo) hhi
  rw [navGuard_eq_ok]
  omega

end Prepared

/-- A run on what it hears and reads at once. -/
def prepareOn (f : Fields) (o : Observation) (reading : Option VaultReading) (now : Int) :
    Prepared :=
  prepare (f.observe o).2 (f.observe o).1 (eusxOr o.eusx) reading now

/-- With gold at two fifths of its baseline the NAV goes from 0.60 to 0.70. -/
theorem setNav_admissible_raised :
    let run := prepareOn .atPar (quotedBoth ⟨2 / 5, by norm_num⟩ par) (some ⟨readNav 6000, 7000⟩) 90000
    run.newNavBps = 7000 ∧ navGuard 6000 (navArg run.newNavBps) = .ok () :=
  ⟨by decide +kernel, setNav_admissible _ _ _ 90000 7000 6000 (by decide +kernel)⟩

/-- At a NAV `n` no run, on any prices, sends one further from it than a tenth of it, if and only
if `n` is at least par or out of reach of the crank. -/
theorem tenth_of_nav_iff (n : UInt64) :
    (∀ f o alloc now, (prepareOn f o (some ⟨readNav n, alloc⟩) now).decision = .setNav →
      10 * |(prepareOn f o (some ⟨readNav n, alloc⟩) now).newNavBps - (n.toNat : Int)| ≤ n.toNat) ↔
    n.toNat < 4000 ∨ 10000 ≤ n.toNat := by
  constructor
  · intro h
    by_contra hrange
    have hn : 4000 ≤ n.toNat ∧ n.toNat < 10000 := by omega
    obtain ⟨p, hp⟩ := observedNav_surjective (n := n.toNat + 1000) (by omega) (by omega)
    have hread : readNav n = n.toNat := Js.number_of_le (by omega)
    have hdecision : (prepareOn .atPar (quotedBoth p par) (some ⟨readNav n, 0⟩) 90000).decision =
        .setNav := by
      refine guards_eq_setNav.mpr ⟨_, rfl, ?_, show (90000 : Int) ≤ 90000 - 0 by decide⟩
      show |(observedNav .atPar (quotedBoth p par)).1 - readNav n| ≤ 1000
      rw [hp, hread]
      simp
    have htenth := h _ _ _ _ hdecision
    have hnav : (prepareOn .atPar (quotedBoth p par) (some ⟨readNav n, 0⟩) 90000).newNavBps =
        n.toNat + 1000 := hp
    rw [hnav, add_sub_cancel_left] at htenth
    have habs : |(1000 : Int)| = 1000 := rfl
    omega
  · intro hrange f o alloc now hdecision
    have hnear := prepare_near _ _ _ _ _ _ hdecision
    have hlo : 5000 ≤ (prepareOn f o (some ⟨readNav n, alloc⟩) now).newNavBps :=
      le_computeNavBps _ _ _
    have hwindow := abs_le.mp hnear
    rcases hrange with hlow | hhigh
    · -- a thousand points up from below 4000 is still below the range
      exact absurd hlo (by unfold prepareOn; omega)
    · exact Int.le_trans (Int.mul_le_mul_of_nonneg_left hnear (by decide)) (by omega)

/-- From 0.60 to 0.70 is allowed, and more than a tenth. -/
theorem tenth_of_nav_exceeded :
    let run := prepareOn .atPar (quotedBoth ⟨2 / 5, by norm_num⟩ par) (some ⟨readNav 6000, 7000⟩) 90000
    run.decision = .setNav ∧ run.newNavBps = 7000 ∧ ¬ 10 * |run.newNavBps - 6000| ≤ 6000 := by
  decide +kernel

/-! ## Rows -/

structure NavSnapshot where
  navBps : Int
  source : String
  txSignature : Option String
  goldPrice : Option Price
  chfUsd : Option Price
  eusxNav : Price
  timestamp : Int

structure YieldEvent where
  totalDeposits : Int
  usxAllocationBps : Int
  apyBps : Int
  daysElapsed : Int
  yieldAccrued : Int
  navBeforeBps : Int
  navAfterBps : Int
  eusxPrice : Price
  timestamp : Int

/-- The `AuditEvent` of a run that called `set_nav`. -/
structure NavAuditEvent where
  actor : String
  role : String
  action : String
  result : String
  txSignature : Option String
  navBps : Int
  goldPrice : Option Price
  chfUsd : Option Price
  eusxNav : Price
  source : String
  timestamp : Int

/-- What `updateNav` returns. -/
structure NavResult where
  navBps : Int
  goldPrice : Option Price
  chfUsd : Option Price
  eusxNav : Price
  source : String
  txSignature : Option String

/-! ## Calls to the chain -/

/-- A read: what others do before it, and whether it is answered. -/
structure Fetch (K : Type) where
  others : List (Action K)
  answered : Bool

/-- A transaction: what others do before it, whether it gets to the chain, the time there, and
the signature it is confirmed under. -/
structure Send (K : Type) where
  others : List (Action K)
  reaches : Bool
  clock : Int64
  confirmation : Option String

/-- What the client of the crank signs with, and the accounts it sends with `set_nav`: the three
of the program.  `oragami_vault.idl.json` lists two, without the registry, which `set_nav` refuses,
so this stands for a client with the list the program has. -/
structure CrankClient (K : Type) where
  authority : K
  setNav : SetNav K

section Calls

variable {K : Type} [DecidableEq K] [Addresses K] [Deployment K] [TokenProgram K]

/-- What a read finds, and the chain it finds it on. -/
def Fetch.vaultState (r : Fetch K) (c : Timeline K) :
    Option (Record K VaultStateField) × Timeline K :=
  let c := c.executeAll r.others
  (if r.answered then fetchVaultState c.state else none, c)

/-- `.rpc()`: the signature, or nothing where it throws. -/
def Send.rpc (r : Send K) (call : Call K) (c : Timeline K) : Option String × Timeline K :=
  let c := c.executeAll r.others
  if r.reaches then
    match call.exec r.clock c.state with
    | .ok _ => (r.confirmation, c.execute (.program r.clock call))
    | .error _ => (none, c)
  else (none, c)

end Calls

/-! ## `updateNav` -/

/-- All that a run is given from outside. -/
structure Tick (K : Type) where
  observation : Observation
  read : Fetch K
  setNav : Send K
  processYield : Send K
  reread : Fetch K
  /-- Statements on a table are executed. -/
  navSnapshot : Bool
  yieldEvent : Bool
  auditEvent : Bool
  /-- `Date.now()` in the order of the calls: at the guards, once `set_nav` is confirmed, once the
  vault state is read again, with the snapshot and with the audit event. -/
  checkedAt : Int
  confirmedAt : Int
  countedAt : Int
  recordedAt : Int
  auditedAt : Int

/-- The chain, the fields of the service and its tables. -/
structure CrankWorld (K : Type) where
  chain : Timeline K
  fields : Fields
  navSnapshots : List NavSnapshot
  yieldEvents : List YieldEvent
  navAuditEvents : List NavAuditEvent

section UpdateNav

variable {K : Type} [DecidableEq K] [Addresses K] [Deployment K] [TokenProgram K]

/-- The numbers `updateNav` takes from the vault state. -/
def vaultReading (vs : Record K VaultStateField) : VaultReading where
  currentNavBps := Js.number ((vs.num .navPriceBps).getD 10000)
  usxAllocationBps := Js.number ((vs.num .usxAllocationBps).getD 7000)

omit [DecidableEq K] [Addresses K] [Deployment K] [TokenProgram K] in
/-- A failed insert is logged and no more. -/
def recordSnapshot (t : Tick K) (row : NavSnapshot) (w : CrankWorld K) : CrankWorld K :=
  if t.navSnapshot then { w with navSnapshots := w.navSnapshots ++ [row] } else w

def recordYieldEvent (t : Tick K) (row : YieldEvent) (w : CrankWorld K) : CrankWorld K :=
  if t.yieldEvent then { w with yieldEvents := w.yieldEvents ++ [row] } else w

/-- `Math.max(0, Math.floor((Date.now() / 1000 - lastClaim) / 86400))`. -/
def daysSince (lastClaim dateNow : Int) : Int := max 0 ((dateNow - lastClaim * 1000) / 86400000)

/-- The row `tickYield` writes from what it reads. -/
def yieldRow (vs : Record K VaultStateField) (t : Tick K)
    (usxAllocationBps navBeforeBps navAfterBps : Int) (eusxNav : Price) : YieldEvent where
  totalDeposits := (vs.num .totalDeposits).getD 0
  usxAllocationBps
  apyBps := (vs.num .apyBps).getD 0
  daysElapsed := daysSince (Js.number ((vs.num .lastYieldClaim).getD 0)) t.countedAt
  yieldAccrued := (vs.num .pendingYield).getD 0
  navBeforeBps
  navAfterBps
  eusxPrice := eusxNav
  timestamp := t.countedAt

/-- It never throws. -/
def tickYield (client : CrankClient K) (t : Tick K)
    (navBeforeBps navAfterBps usxAllocationBps : Int) (eusxNav : Price) (w : CrankWorld K) : CrankWorld K :=
  match t.processYield.rpc (.processYield ⟨vaultStateKey, client.authority⟩) w.chain with
  | (none, chain) => { w with chain }
  | (some _, chain) =>
      match t.reread.vaultState chain with
      | (none, chain) => { w with chain }
      | (some vs, chain) =>
          recordYieldEvent t (yieldRow vs t usxAllocationBps navBeforeBps navAfterBps eusxNav)
            { w with chain }

/-- `set_nav`, and once it is confirmed the yield.  What `postReserveAttestation` sends in between
is one of the transactions `tickYield` finds before its own: it reads nothing here and does not
throw. -/
def publish (client : CrankClient K) (t : Tick K) (newNavBps currentNavBps usxAllocationBps : Int)
    (eusxNav : Price) (w : CrankWorld K) : Option String × CrankWorld K :=
  match t.setNav.rpc (.setNav client.setNav (navArg newNavBps)) w.chain with
  | (none, chain) => (none, { w with chain })
  | (some tx, chain) =>
      (some tx, tickYield client t currentNavBps newNavBps usxAllocationBps eusxNav
        { w with chain, fields := { w.fields with lastOnChainUpdateMs := t.confirmedAt } })

/-- A run of the crank; no result where it throws, which only the audit event makes it do. -/
def updateNav (client : CrankClient K) (t : Tick K) (w : CrankWorld K) :
    Option NavResult × CrankWorld K :=
  let (q, fields) := w.fields.observe t.observation
  let eusxNav := eusxOr t.observation.eusx
  let (read, chain) := t.read.vaultState w.chain
  let reading := read.map vaultReading
  let currentNavBps := (reading.map (·.currentNavBps)).getD 10000
  let usxAllocationBps := (reading.map (·.usxAllocationBps)).getD 7000
  let run := prepare fields q eusxNav reading t.checkedAt
  let w := { w with chain, fields := run.fields }
  let snapshot (txSignature : Option String) : NavSnapshot :=
    ⟨run.newNavBps, q.sixSource, txSignature, q.goldPrice, q.chfUsd, eusxNav, t.recordedAt⟩
  let result (txSignature : Option String) : NavResult :=
    ⟨run.newNavBps, q.goldPrice, q.chfUsd, eusxNav, q.sixSource, txSignature⟩
  match run.decision with
  | .changeTooLarge => (some (result none), recordSnapshot t (snapshot none) w)
  | .tooRecent => (some (result none), w)
  | .notInitialized => (some (result none), recordSnapshot t (snapshot none) w)
  | .setNav =>
      let (txSignature, w) := publish client t run.newNavBps currentNavBps usxAllocationBps eusxNav w
      let w := recordSnapshot t (snapshot txSignature) w
      if t.auditEvent then
        (some (result txSignature), { w with navAuditEvents := w.navAuditEvents ++ [{
          actor := "system"
          role := "crank"
          action := "set_nav"
          result := if txSignature.isSome then "success" else "failed"
          txSignature
          navBps := run.newNavBps
          goldPrice := q.goldPrice
          chfUsd := q.chfUsd
          eusxNav
          source := q.sixSource
          timestamp := t.auditedAt }] })
      else (none, w)

end UpdateNav

end Backend
