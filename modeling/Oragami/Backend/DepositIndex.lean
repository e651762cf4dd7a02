/-
# `Oragami.Backend.DepositIndex` — the deposits the backend has on record

A client that has deposited tells the backend, which looks up the transaction and records a
`Deposit`.  It asks of the transaction that it succeeded, and takes the amounts from the
client and the NAV from the chain as it is then.  Nothing is read of what the transaction
did.

So a row is a deposit just where the client was honest and prompt (`deposits_real_iff`); then
what `stats` adds up was deposited, since no transaction is recorded twice.
-/
import Oragami.Backend.World
import Oragami.OragamiVault.Scenario
import Mathlib.Algebra.BigOperators.Group.List.Basic
import Mathlib.Algebra.GroupWithZero.Nat
import Mathlib.Algebra.Ring.Int.Defs
import Mathlib.Algebra.Order.BigOperators.Group.List
import Mathlib.Algebra.Order.Group.Int
import Mathlib.Data.List.Nodup

namespace Backend

open Idl Lts Anchor OragamiVault

variable {K : Type}

/-! ## Transactions -/

/-- A transaction of the cluster: what it executed, nothing if it failed. -/
structure Txn (K : Type) where
  signature : String
  success : Bool
  executed : List (Transition (State K) (Action K))

/-- `DepositMade`, and the NAV it was made at. -/
structure DepositMade (K : Type) where
  payer : K
  usdcAmount : UInt64
  cvaultAmount : UInt64
  navPriceBps : UInt64
deriving DecidableEq

section Chain

variable [DecidableEq K] [Addresses K] [Deployment K] [TokenProgram K]

/-- The deposit of a transition, if it is one. -/
def depositMade (t : Transition (State K) (Action K)) : Option (DepositMade K) :=
  match t.label with
  | .program now (.deposit a amount) =>
      match OragamiVault.deposit now a amount t.pre with
      | .ok (_, some (.depositMade payer usdcAmount cvaultAmount _)) =>
          t.pre.vaultState.map fun vs => ⟨payer, usdcAmount, cvaultAmount, vs.navPriceBps⟩
      | _ => none
  | _ => none

def Txn.deposits (txn : Txn K) : List (DepositMade K) := txn.executed.filterMap depositMade

/-- The USDC deposited by a transaction. -/
def Txn.usdcDeposited (txn : Txn K) : Int := (txn.deposits.map (·.usdcAmount.toNat)).sum

/-- Instructions one after the other, all of them or none. -/
def attempt (s : State K) : List (Action K) →
    Option (State K × List (Transition (State K) (Action K)))
  | [] => some (s, [])
  | act :: acts => do
      let s' ← act.apply s
      let (s'', executed) ← attempt s' acts
      pure (s'', ⟨s, act, s'⟩ :: executed)

end Chain

/-! ## Tables -/

/-- A row of `Deposit`; an institution is its wallet. -/
structure DepositRow (K : Type) where
  txSignature : String
  institution : K
  usdcAmount : Int
  cvaultAmount : Int
  navAtDeposit : Int
  nonce : String
  travelRuleId : Option String
  timestamp : Int

/-- The `AuditEvent` of a deposit; `depositId` is all the metadata there are. -/
structure DepositAudit (K : Type) where
  institution : K
  actor : K
  role : String
  action : String
  result : String
  txSignature : String
  depositId : String

structure DepositsDatabase (K : Type) where
  institutions : K → Option (Institution K)
  /-- The `id` of the row with a `nonceHash`, which is hexadecimal, in small letters. -/
  travelRules : String → Option String
  deposits : List (DepositRow K)
  auditEvents : List (DepositAudit K)

/-- The cluster with its transactions, and the tables. -/
structure DepositsWorld (K : Type) where
  chain : State K
  transactions : List (Txn K)
  db : DepositsDatabase K

/-! ## `index` -/

/-- The text of an integer is that integer, and `none` a text of none. -/
structure IndexDepositDto (K : Type) where
  txSignature : String
  wallet : Option K
  usdcAmount : Option Int
  cvaultAmount : Option Int
  nonce : String
  travelRuleNonceHash : Option String

/-- What gets through while a deposit is indexed. -/
structure IndexNetwork where
  transaction : Bool
  institution : Bool
  vaultState : Bool
  travelRule : Bool
  /-- The `id` the row gets. -/
  deposit : Option String
  auditEvent : Bool
  /-- `new Date()`. -/
  recordedAt : Int

/-- The Travel Rule row of a deposit: `findUnique` where there is a hash to look for. -/
def findTravelRule (net : IndexNetwork) (db : DepositsDatabase K) (dto : IndexDepositDto K) :
    Except (Exception K) (Option String) :=
  let trHash := dto.travelRuleNonceHash.getD dto.nonce
  if trHash.length = 64 then
    if net.travelRule then .ok (db.travelRules trHash.toLower) else .error .uncaught
  else .ok none

/-- A statement that is executed. -/
def queried {α : Type} (executed : Bool) (a : α) : Except (Exception K) α :=
  if executed then .ok a else .error .uncaught

/-- All that `index` does before it writes. -/
def depositRow (net : IndexNetwork) (w : DepositsWorld K) (dto : IndexDepositDto K) :
    Except (Exception K) (DepositRow K) := do
  let parsed ← queried net.transaction (w.transactions.find? (·.signature = dto.txSignature))
  match parsed with
  | some ⟨_, true, _⟩ =>
      let institution ← queried net.institution
        (dto.wallet.filter fun wallet => (w.db.institutions wallet).isSome)
      match institution with
      | some wallet =>
          let usdcAmount ← orThrow dto.usdcAmount
          let cvaultAmount ← orThrow dto.cvaultAmount
          let vault ← orThrow (if net.vaultState then fetchVaultState w.chain else none)
          let travelRuleId ← findTravelRule net w.db dto
          pure {
            txSignature := dto.txSignature
            institution := wallet
            usdcAmount
            cvaultAmount
            navAtDeposit := (vault.num .navPriceBps).getD 0
            nonce := dto.nonce
            travelRuleId
            timestamp := net.recordedAt }
      | none => .error (.notFound "Institution not found for wallet")
  | _ => .error (.badRequest "Transaction not found or failed on-chain")

/-- A `BigInt` column holds 64 bits, one of them the sign. -/
def FitsColumn (n : Int) : Prop := -(2 ^ 63) ≤ n ∧ n < 2 ^ 63

instance (n : Int) : Decidable (FitsColumn n) := inferInstanceAs (Decidable (_ ∧ _))

/-- A row the table takes: its numbers fit, and no row has its signature or its nonce. -/
def DepositsDatabase.Takes (db : DepositsDatabase K) (row : DepositRow K) : Prop :=
  (FitsColumn row.usdcAmount ∧ FitsColumn row.cvaultAmount ∧ FitsColumn row.navAtDeposit) ∧
    ∀ r ∈ db.deposits, r.txSignature ≠ row.txSignature ∧ r.nonce ≠ row.nonce

instance (db : DepositsDatabase K) (row : DepositRow K) : Decidable (db.Takes row) :=
  inferInstanceAs (Decidable (_ ∧ _))

/-- `deposit.create`. -/
def createDeposit (net : IndexNetwork) (row : DepositRow K) :
    EStateM (Exception K) (DepositsWorld K) String := fun w =>
  match net.deposit with
  | some id =>
      if w.db.Takes row then
        .ok id { w with db := { w.db with deposits := w.db.deposits ++ [row] } }
      else .error .uncaught w
  | none => .error .uncaught w

/-- `auditEvent.create`. -/
def auditDeposit (net : IndexNetwork) (event : DepositAudit K) :
    EStateM (Exception K) (DepositsWorld K) Unit := fun w =>
  if net.auditEvent then
    .ok () { w with db := { w.db with auditEvents := w.db.auditEvents ++ [event] } }
  else .error .uncaught w

/-- `index`, and the `depositId` of its answer. -/
def index (net : IndexNetwork) (dto : IndexDepositDto K) :
    EStateM (Exception K) (DepositsWorld K) String := fun w =>
  match depositRow net w dto with
  | .error e => .error e w
  | .ok row => (do
      let depositId ← createDeposit net row
      auditDeposit net {
        institution := row.institution
        actor := row.institution
        role := "institution"
        action := "deposit"
        result := "indexed"
        txSignature := dto.txSignature
        depositId }
      pure depositId) w

/-- `totalDepositsUsd` of `VaultService.stats`. -/
def totalDepositsUsd (rows : List (DepositRow K)) : Int := (rows.map (·.usdcAmount)).sum

/-! ## What a request comes to -/

/-- What is asked of a request before its row is written. -/
structure Indexes (net : IndexNetwork) (w : DepositsWorld K) (dto : IndexDepositDto K) (txn : Txn K)
    (row : DepositRow K) : Prop where
  transaction : net.transaction = true
  found : w.transactions.find? (·.signature = dto.txSignature) = some txn
  success : txn.success = true
  institution : net.institution = true ∧ dto.wallet = some row.institution ∧
    (w.db.institutions row.institution).isSome = true
  usdcAmount : dto.usdcAmount = some row.usdcAmount
  cvaultAmount : dto.cvaultAmount = some row.cvaultAmount
  navAtDeposit : net.vaultState = true ∧ ∃ vs, w.chain.vaultState = some vs ∧
    row.navAtDeposit = vs.navPriceBps.toNat
  travelRule : findTravelRule net w.db dto = .ok row.travelRuleId
  copied : row.txSignature = dto.txSignature ∧ row.nonce = dto.nonce ∧
    row.timestamp = net.recordedAt

section Spec

variable {net : IndexNetwork} {w : DepositsWorld K} {dto : IndexDepositDto K} {txn : Txn K}
  {row : DepositRow K}

theorem queried_eq_ok {α : Type} {executed : Bool} {a b : α} :
    (queried executed a : Except (Exception K) α) = .ok b ↔ executed = true ∧ a = b := by
  cases executed <;> simp [queried]

theorem depositRow_eq_ok : depositRow net w dto = .ok row ↔ ∃ txn, Indexes net w dto txn row := by
  simp only [depositRow, bind_eq_ok, queried_eq_ok]
  constructor
  · rintro ⟨parsed, ⟨htransaction, rfl⟩, h⟩
    split at h
    · next sig executed hfound =>
        simp only [bind_eq_ok, queried_eq_ok] at h
        obtain ⟨institution, ⟨hinstitution, rfl⟩, h⟩ := h
        split at h
        · next wallet hwallet =>
            simp only [bind_eq_ok, orThrow_eq_ok, pure_eq_ok] at h
            obtain ⟨usdc, husdc, cvault, hcvault, vault, hvault, rule, hrule, rfl⟩ := h
            obtain ⟨hdto, hrow⟩ := Option.filter_eq_some_iff.mp hwallet
            refine ⟨_, htransaction, hfound, rfl, ⟨hinstitution, hdto, hrow⟩, husdc, hcvault, ?_,
              hrule, rfl, rfl, rfl⟩
            split at hvault
            · next hread =>
                rw [fetchVaultState_eq] at hvault
                obtain ⟨vs, hvs, rfl⟩ := Option.map_eq_some_iff.mp hvault
                exact ⟨hread, vs, hvs, rfl⟩
            · cases hvault
        · cases h
    · cases h
  · rintro ⟨txn, h⟩
    obtain ⟨htransaction, hfound, hsuccess, ⟨hinstitution, hdto, hrow⟩, husdc, hcvault,
      ⟨hread, vs, hvs, hnav⟩, hrule, hsignature, hnonce, htime⟩ := h
    obtain ⟨sig, success, executed⟩ := txn
    obtain ⟨txSignature, institution, usdcAmount, cvaultAmount, navAtDeposit, nonce, rule, time⟩ :=
      row
    cases hsuccess
    cases hsignature
    cases hnonce
    cases htime
    cases hnav
    refine ⟨_, ⟨htransaction, rfl⟩, ?_⟩
    rw [hfound]
    simp only [bind_eq_ok, queried_eq_ok]
    refine ⟨_, ⟨hinstitution, rfl⟩, ?_⟩
    rw [Option.filter_eq_some_iff.mpr ⟨hdto, hrow⟩]
    simp only [bind_eq_ok, orThrow_eq_ok, pure_eq_ok]
    refine ⟨_, husdc, _, hcvault, record (Stored.values ((vaultStateStored vs).take 21)), ?_, _,
      hrule, ?_⟩
    · rw [if_pos hread, fetchVaultState_eq, hvs]
      rfl
    · rfl

/-- The row a request leaves, if it leaves one. -/
theorem index_deposits (net : IndexNetwork) (w : DepositsWorld K) (dto : IndexDepositDto K) :
    (leaves (index net dto) w).chain = w.chain ∧
      (leaves (index net dto) w).transactions = w.transactions ∧
      ((∃ txn row, Indexes net w dto txn row ∧ net.deposit.isSome = true ∧ w.db.Takes row ∧
          (leaves (index net dto) w).db.deposits = w.db.deposits ++ [row]) ∨
        ((∀ txn row, Indexes net w dto txn row → net.deposit.isSome = true → ¬ w.db.Takes row) ∧
          (leaves (index net dto) w).db.deposits = w.db.deposits)) := by
  unfold leaves index
  cases hrow : depositRow net w dto with
  | error e =>
      refine ⟨rfl, rfl, .inr ⟨?_, rfl⟩⟩
      intro txn row h
      cases hrow.symm.trans (depositRow_eq_ok.mpr ⟨txn, h⟩)
  | ok row =>
      obtain ⟨txn, hindexes⟩ := depositRow_eq_ok.mp hrow
      have honly : ∀ txn' row', Indexes net w dto txn' row' → row' = row := by
        intro txn' row' h
        exact Except.ok.inj ((depositRow_eq_ok.mpr ⟨txn', h⟩).symm.trans hrow)
      simp only [bind, EStateM.bind, createDeposit]
      cases hstored : net.deposit with
      | none =>
          refine ⟨rfl, rfl, .inr ⟨?_, rfl⟩⟩
          intro _ _ _ hsome
          cases hsome
      | some id =>
          simp only
          by_cases htakes : w.db.Takes row
          · rw [if_pos htakes]
            unfold auditDeposit
            -- the row stays where the audit event fails
            cases net.auditEvent with
            | true => exact ⟨rfl, rfl, .inl ⟨txn, row, hindexes, rfl, htakes, rfl⟩⟩
            | false => exact ⟨rfl, rfl, .inl ⟨txn, row, hindexes, rfl, htakes, rfl⟩⟩
          · rw [if_neg htakes]
            refine ⟨rfl, rfl, .inr ⟨?_, rfl⟩⟩
            intro txn' row' h _
            rw [honly txn' row' h]
            exact htakes

end Spec

/-! ## Over a history -/

section Runs

variable [DecidableEq K] [Addresses K] [Deployment K] [TokenProgram K]

inductive IndexEvent (K : Type) where
  | transact (signature : String) (acts : List (Action K))
  | index (net : IndexNetwork) (dto : IndexDepositDto K)
  | tables (institutions : K → Option (Institution K)) (travelRules : String → Option String)

/-- A transaction is there, executed or failed. -/
def DepositsWorld.transact (w : DepositsWorld K) (signature : String) (acts : List (Action K)) :
    DepositsWorld K :=
  match attempt w.chain acts with
  | some (s, executed) =>
      { w with chain := s, transactions := w.transactions ++ [⟨signature, true, executed⟩] }
  | none => { w with transactions := w.transactions ++ [⟨signature, false, []⟩] }

/-- A transaction under a signature of its own, a request, or other services at their tables. -/
inductive IndexStep : DepositsWorld K → IndexEvent K → DepositsWorld K → Prop
  | transact {w : DepositsWorld K} {signature : String} {acts : List (Action K)} :
      (∀ txn ∈ w.transactions, txn.signature ≠ signature) →
      IndexStep w (.transact signature acts) (w.transact signature acts)
  | index {w : DepositsWorld K} {net : IndexNetwork} {dto : IndexDepositDto K} :
      IndexStep w (.index net dto) (leaves (index net dto) w)
  | tables {w : DepositsWorld K} {institutions : K → Option (Institution K)}
      {travelRules : String → Option String} :
      IndexStep w (.tables institutions travelRules)
        { w with db := { w.db with institutions, travelRules } }

/-- A row that is a deposit of its transaction. -/
def RealDeposit (transactions : List (Txn K)) (row : DepositRow K) : Prop :=
  ∃ txn ∈ transactions, txn.signature = row.txSignature ∧ txn.success = true ∧
    ∃ d ∈ txn.deposits, d.payer = row.institution ∧ row.usdcAmount = d.usdcAmount.toNat ∧
      row.cvaultAmount = d.cvaultAmount.toNat ∧ row.navAtDeposit = d.navPriceBps.toNat

def DepositsWorld.Real (w : DepositsWorld K) : Prop :=
  ∀ row ∈ w.db.deposits, RealDeposit w.transactions row

/-- The client states what the deposit was, -/
def DepositMade.Stated (d : DepositMade K) (dto : IndexDepositDto K) : Prop :=
  dto.wallet = some d.payer ∧ dto.usdcAmount = some (d.usdcAmount.toNat : Int) ∧
    dto.cvaultAmount = some (d.cvaultAmount.toNat : Int)

/-- and the NAV still is what it was. -/
def DepositMade.Current (d : DepositMade K) (w : DepositsWorld K) : Prop :=
  w.chain.vaultState.map (·.navPriceBps) = some d.navPriceBps

/-- A client that gets its row recorded is honest, in that it made a deposit of the amounts it
states in the transaction it names, and prompt, in that it asks while the NAV is still that of
the deposit. -/
def HonestAndPrompt (t : Transition (DepositsWorld K) (IndexEvent K)) : Prop :=
  match t.label with
  | .index net dto => ∀ txn row, Indexes net t.pre dto txn row → net.deposit.isSome = true →
      t.pre.db.Takes row → ∃ d ∈ txn.deposits, d.Stated dto ∧ d.Current t.pre
  | _ => True

variable {w w' w₀ : DepositsWorld K} {e : IndexEvent K}
  {ts : List (Transition (DepositsWorld K) (IndexEvent K))}

/-- A transaction adds itself to the others. -/
theorem transact_transactions (w : DepositsWorld K) (signature : String) (acts : List (Action K)) :
    (w.transact signature acts).db = w.db ∧ ∃ txn, txn.signature = signature ∧
      (w.transact signature acts).transactions = w.transactions ++ [txn] := by
  unfold DepositsWorld.transact
  split
  · exact ⟨rfl, _, rfl, rfl⟩
  · exact ⟨rfl, _, rfl, rfl⟩

/-- No two transactions have one signature, and no two rows. -/
structure DepositsWorld.Signed (w : DepositsWorld K) : Prop where
  transactions : (w.transactions.map (·.signature)).Nodup
  deposits : (w.db.deposits.map (·.txSignature)).Nodup

theorem nodup_snoc {α β : Type} {f : α → β} {l : List α} {a : α} (h : (l.map f).Nodup)
    (ha : ∀ b ∈ l, f b ≠ f a) : ((l ++ [a]).map f).Nodup := by
  rw [List.map_append]
  refine List.nodup_append.mpr ⟨h, List.nodup_singleton _, ?_⟩
  intro x hx y hy
  obtain ⟨b, hb, rfl⟩ := List.mem_map.mp hx
  rw [List.mem_singleton.mp hy]
  exact ha b hb

theorem IndexStep.signed (hw : w.Signed) (h : IndexStep w e w') : w'.Signed := by
  cases h with
  | @transact signature acts hfresh =>
      obtain ⟨hdb, txn, rfl, htransactions⟩ := transact_transactions w signature acts
      refine ⟨?_, hdb ▸ hw.deposits⟩
      rw [htransactions]
      exact nodup_snoc hw.transactions hfresh
  | @index net dto =>
      obtain ⟨-, htransactions, hrows⟩ := index_deposits net w dto
      refine ⟨htransactions ▸ hw.transactions, ?_⟩
      rcases hrows with ⟨txn, row, -, -, htakes, hrows⟩ | ⟨-, hrows⟩
      · rw [hrows]
        exact nodup_snoc hw.deposits fun r hr => (htakes.2 r hr).1
      · rw [hrows]
        exact hw.deposits
  | tables => exact ⟨hw.transactions, hw.deposits⟩

theorem RealDeposit.mono {transactions transactions' : List (Txn K)} {row : DepositRow K}
    (h : RealDeposit transactions row) (hmono : ∀ txn ∈ transactions, txn ∈ transactions') :
    RealDeposit transactions' row := by
  obtain ⟨txn, htxn, hreal⟩ := h
  exact ⟨txn, hmono txn htxn, hreal⟩

omit [DecidableEq K] [Addresses K] [Deployment K] [TokenProgram K] in
/-- The transaction looked up is the one with the signature. -/
theorem eq_of_found {transactions : List (Txn K)} {signature : String} {txn txn' : Txn K}
    (h : (transactions.map (·.signature)).Nodup)
    (hfound : transactions.find? (·.signature = signature) = some txn) (hmem : txn' ∈ transactions)
    (hsignature : txn'.signature = signature) : txn' = txn := by
  have hfoundSig : txn.signature = signature := by simpa using List.find?_some hfound
  exact List.inj_on_of_nodup_map h hmem (List.mem_of_find?_eq_some hfound)
    (hsignature.trans hfoundSig.symm)

theorem Indexes.real {net : IndexNetwork} {dto : IndexDepositDto K} {txn : Txn K}
    {row : DepositRow K} (h : Indexes net w dto txn row)
    (hstated : ∃ d ∈ txn.deposits, d.Stated dto ∧ d.Current w) :
    RealDeposit w.transactions row := by
  obtain ⟨d, hd, ⟨hpayer, husdc, hcvault⟩, hnav⟩ := hstated
  obtain ⟨-, vs, hvs, hrow⟩ := h.navAtDeposit
  have hsignature : txn.signature = dto.txSignature := by simpa using List.find?_some h.found
  refine ⟨txn, List.mem_of_find?_eq_some h.found, hsignature.trans h.copied.1.symm, h.success, d,
    hd, ?_, ?_, ?_, ?_⟩
  · exact Option.some.inj (hpayer.symm.trans h.institution.2.1)
  · exact Option.some.inj (h.usdcAmount.symm.trans husdc)
  · exact Option.some.inj (h.cvaultAmount.symm.trans hcvault)
  · rw [DepositMade.Current, hvs] at hnav
    rw [hrow, ← Option.some.inj hnav]

theorem Indexes.of_real {net : IndexNetwork} {dto : IndexDepositDto K} {txn : Txn K}
    {row : DepositRow K} (h : Indexes net w dto txn row) (hsigned : w.Signed)
    (hreal : RealDeposit w.transactions row) :
    ∃ d ∈ txn.deposits, d.Stated dto ∧ d.Current w := by
  obtain ⟨txn', htxn', hsignature, -, d, hd, hpayer, husdc, hcvault, hnav⟩ := hreal
  obtain ⟨-, vs, hvs, hrow⟩ := h.navAtDeposit
  cases eq_of_found hsigned.transactions h.found htxn' (hsignature.trans h.copied.1)
  refine ⟨d, hd, ⟨?_, ?_, ?_⟩, ?_⟩
  · rw [hpayer]
    exact h.institution.2.1
  · rw [← husdc]
    exact h.usdcAmount
  · rw [← hcvault]
    exact h.cvaultAmount
  · have hsame : vs.navPriceBps.toNat = d.navPriceBps.toNat := by omega
    rw [DepositMade.Current, hvs, Option.map_some, UInt64.toNat_inj.mp hsame]

/-- A row written is real just where the client was honest and prompt. -/
theorem IndexStep.real_iff (hsigned : w.Signed) (hw : w.Real) (h : IndexStep w e w') :
    w'.Real ↔ HonestAndPrompt ⟨w, e, w'⟩ := by
  cases h with
  | @transact signature acts hfresh =>
      obtain ⟨hdb, txn, -, htransactions⟩ := transact_transactions w signature acts
      refine ⟨fun _ => trivial, fun _ => ?_⟩
      intro row hrow
      rw [hdb] at hrow
      refine (hw row hrow).mono ?_
      intro txn' htxn'
      rw [htransactions]
      exact List.mem_append_left _ htxn'
  | tables => exact ⟨fun _ => trivial, fun _ => hw⟩
  | @index net dto =>
      obtain ⟨-, htransactions, hrows⟩ := index_deposits net w dto
      unfold DepositsWorld.Real
      rw [htransactions]
      rcases hrows with ⟨txn, row, hindexes, hstored, htakes, hrows⟩ | ⟨hnone, hrows⟩
      · rw [hrows, List.forall_mem_append, List.forall_mem_singleton]
        constructor
        · rintro ⟨-, hreal⟩
          intro txn' row' hindexes' _ _
          cases hindexes.found.symm.trans hindexes'.found
          exact hindexes.of_real hsigned hreal
        · intro hhonest
          exact ⟨hw, hindexes.real (hhonest txn row hindexes hstored htakes)⟩
      · rw [hrows]
        refine ⟨fun _ => ?_, fun _ => hw⟩
        intro txn row hindexes hstored htakes
        exact absurd htakes (hnone txn row hindexes hstored)

/-- What rows of different signatures draw from one transaction each is in them all. -/
theorem sum_le_of_matched {α β : Type} {f : α → String} {g : β → String} {u : α → Int} {v : β → Int}
    (hv : ∀ b, 0 ≤ v b) {rows : List α} {txns : List β} (hnodup : (rows.map f).Nodup)
    (h : ∀ r ∈ rows, ∃ b ∈ txns, g b = f r ∧ u r ≤ v b) :
    (rows.map u).sum ≤ (txns.map v).sum := by
  induction rows generalizing txns with
  | nil => exact List.sum_nonneg (by simpa using fun b _ => hv b)
  | cons r rows ih =>
      obtain ⟨b, hb, hsame, hle⟩ := h r List.mem_cons_self
      obtain ⟨before, after, rfl⟩ := List.append_of_mem hb
      obtain ⟨hfresh, hnodup⟩ := List.nodup_cons.mp (List.map_cons ▸ hnodup)
      -- the others have theirs among the others
      have hrest : (rows.map u).sum ≤ ((before ++ after).map v).sum := by
        refine ih hnodup ?_
        intro r' hr'
        obtain ⟨b', hb', hsame', hle'⟩ := h r' (List.mem_cons_of_mem r hr')
        refine ⟨b', ?_, hsame', hle'⟩
        rcases List.mem_append.mp hb' with hmem | hmem
        · exact List.mem_append_left _ hmem
        · rcases List.mem_cons.mp hmem with rfl | hmem
          · refine absurd (List.mem_map.mpr ⟨r', hr', ?_⟩) hfresh
            rw [← hsame', hsame]
          · exact List.mem_append_right _ hmem
      simp only [List.map_append, List.map_cons, List.sum_append, List.sum_cons] at hrest ⊢
      omega

theorem Txn.usdcDeposited_nonneg (txn : Txn K) : 0 ≤ txn.usdcDeposited := by
  refine List.sum_nonneg ?_
  intro x hx
  obtain ⟨d, -, rfl⟩ := List.mem_map.mp hx
  omega

/-- Real rows do not add up to more than was deposited. -/
theorem DepositsWorld.Real.total_le (h : w.Real) (hsigned : w.Signed) :
    totalDepositsUsd w.db.deposits ≤ (w.transactions.map Txn.usdcDeposited).sum := by
  refine sum_le_of_matched (g := Txn.signature) Txn.usdcDeposited_nonneg hsigned.deposits ?_
  intro row hrow
  obtain ⟨txn, htxn, hsignature, -, d, hd, -, husdc, -⟩ := h row hrow
  refine ⟨txn, htxn, hsignature, ?_⟩
  rw [husdc]
  refine List.single_le_sum ?_ _ (List.mem_map.mpr ⟨d, hd, rfl⟩)
  intro x hx
  obtain ⟨d', -, rfl⟩ := List.mem_map.mp hx
  omega

/-- Every row of a history is a deposit if and only if every client that got one was honest and
prompt, and then they do not add up to more than was deposited. -/
theorem deposits_real_iff (h : Run IndexStep w₀ ts w) (htransactions : w₀.transactions = [])
    (hdeposits : w₀.db.deposits = []) :
    ((∀ t ∈ ts, t.post.Real) ↔ ∀ t ∈ ts, HonestAndPrompt t) ∧ ((∀ t ∈ ts, HonestAndPrompt t) →
      totalDepositsUsd w.db.deposits ≤ (w.transactions.map Txn.usdcDeposited).sum) := by
  have hsigned₀ : w₀.Signed := by
    refine ⟨?_, ?_⟩
    · rw [htransactions]
      exact List.nodup_nil
    · rw [hdeposits]
      exact List.nodup_nil
  have hsigned : ∀ {ts w}, Run IndexStep w₀ ts w → w.Signed := fun hrun =>
    hrun.invariant hsigned₀ fun hw hstep => hstep.signed hw
  have hreal₀ : w₀.Real := by
    intro row hrow
    rw [hdeposits] at hrow
    cases hrow
  obtain ⟨hiff, hend⟩ := h.kept_iff (G := HonestAndPrompt) hreal₀ fun hrun hw hstep =>
    hstep.real_iff (hsigned hrun) hw
  exact ⟨hiff, fun hhonest => (hend hhonest).total_le (hsigned h)⟩

end Runs

/-! ## A deposit of 3650 -/

namespace Cluster

open OragamiVault.Cluster

def aliceRow : Institution FreeKey where
  walletAddress := alice
  name := ""
  jurisdiction := ""
  tier := 1
  kycLevel := 1
  amlScore := 1
  credentialPda := some (credentialKey alice)
  credentialStatus := "active"
  credentialIssuedAt := none
  credentialExpiresAt := none
  attestationHash := none

def unindexed : DepositsWorld FreeKey where
  chain := .genesis OragamiVault.Cluster.ledger
  transactions := []
  db := ⟨fun wallet => if wallet = alice then some aliceRow else none, fun _ => none, [], []⟩

def signature : String := "11111111111111111111111111111111"

/-- The vault is set up and Alice deposits. -/
def acts : List (Action FreeKey) := setUp ++ [OragamiVault.Cluster.deposit 3650]

def deposited : DepositsWorld FreeKey := unindexed.transact signature acts

def answering : IndexNetwork := ⟨true, true, true, true, some "deposit", true, 0⟩

/-- What Alice says she deposited. -/
def dto (usdcAmount : Int) : IndexDepositDto FreeKey :=
  ⟨signature, some alice, some usdcAmount, some 3650, "nonce", none⟩

def indexed (usdcAmount : Int) : DepositsWorld FreeKey :=
  leaves (index answering (dto usdcAmount)) deposited

def indexing (usdcAmount : Int) : List (Transition (DepositsWorld FreeKey) (IndexEvent FreeKey)) :=
  [⟨unindexed, .transact signature acts, deposited⟩,
    ⟨deposited, .index answering (dto usdcAmount), indexed usdcAmount⟩]

theorem indexing_run (usdcAmount : Int) :
    Run IndexStep unindexed (indexing usdcAmount) (indexed usdcAmount) := by
  have hfirst :
      Run IndexStep unindexed [⟨unindexed, .transact signature acts, deposited⟩] deposited :=
    Run.snoc Run.nil (.transact (by simp [unindexed]))
  exact hfirst.snoc .index

theorem unindexed_signed : unindexed.Signed := ⟨List.nodup_nil, List.nodup_nil⟩

theorem deposited_deposits :
    deposited.transactions.map Txn.deposits = [[⟨alice, 3650, 3650, 10000⟩]] := by
  decide +kernel

theorem deposited_nav : deposited.chain.vaultState.map (·.navPriceBps) = some 10000 := by
  decide +kernel

end Cluster

open Cluster OragamiVault.Cluster in
theorem deposits_real_honest : (∀ t ∈ indexing 3650, t.post.Real) ∧
    totalDepositsUsd (indexed 3650).db.deposits ≤
      ((indexed 3650).transactions.map Txn.usdcDeposited).sum := by
  obtain ⟨hiff, htotal⟩ := deposits_real_iff (indexing_run 3650) rfl rfl
  have hhonest : ∀ t ∈ indexing 3650, HonestAndPrompt t := by
    refine List.forall_mem_cons.mpr ⟨trivial, List.forall_mem_singleton.mpr ?_⟩
    intro txn row hindexes _ _
    have hmem := List.mem_map_of_mem (f := Txn.deposits) (List.mem_of_find?_eq_some hindexes.found)
    rw [deposited_deposits] at hmem
    rw [List.mem_singleton.mp hmem]
    exact ⟨_, List.mem_singleton_self _, ⟨rfl, rfl, rfl⟩, deposited_nav⟩
  exact ⟨hiff.mpr hhonest, htotal hhonest⟩

open Cluster in
/-- Alice says it was a million dollars. -/
theorem deposits_unreal : ∃ ts w, Run IndexStep unindexed ts w ∧
    totalDepositsUsd w.db.deposits = 1000000000000 ∧
      (w.transactions.map Txn.usdcDeposited).sum = 3650 ∧ ¬ w.Real := by
  have htotal : totalDepositsUsd (indexed 1000000000000).db.deposits = 1000000000000 := by
    decide +kernel
  have hdeposited : ((indexed 1000000000000).transactions.map Txn.usdcDeposited).sum = 3650 := by
    decide +kernel
  refine ⟨_, _, indexing_run 1000000000000, htotal, hdeposited, ?_⟩
  intro hreal
  have hsigned : (indexed 1000000000000).Signed :=
    (indexing_run 1000000000000).invariant unindexed_signed fun hw hstep => hstep.signed hw
  have hle := hreal.total_le hsigned
  rw [htotal, hdeposited] at hle
  exact absurd hle (by decide)

end Backend
