/-
# `Oragami.Backend.Reconciliation` — a credential on the chain and its row

`issue` and `revoke` change the chain first and the row of the wallet after that, and nothing
holds the two together.  A call that ends in between is not made good by another: the program
issues a wallet one credential and revokes it once, so the second call is refused before it
comes to the row (`reconciled_iff`).

The row is what `verify` and the preflight of a deposit go by where the chain is not read.
-/
import Oragami.Backend.CredentialsService

namespace Backend

open Idl Lts OragamiVault

variable {K : Type}

/-! ## Calls -/

inductive CredentialCall (K : Type) where
  | issue (dto : IssueCredentialDto K)
  | revoke (wallet : Option K)

def CredentialCall.wallet : CredentialCall K → Option K
  | .issue dto => dto.wallet
  | .revoke wallet => wallet

/-- A call, with the time it is made at and what gets through. -/
structure Attempt (K : Type) where
  call : CredentialCall K
  net : Network
  dateNow : Int

/-- The transaction is heard of and the statement after it executed. -/
def Network.Records (net : Network) : Prop :=
  net.confirmation.isSome = true ∧ net.institution = true

/-! ## Two writes -/

section TwoWrites

variable [DecidableEq K] [Addresses K] [Deployment K] [TokenProgram K]

/-- A statement on the table of institutions. -/
def writeInstitutions (net : Network)
    (write : (K → Option (Institution K)) → K → Option (Institution K)) : Request K Unit :=
  fun world =>
    if net.institution then
      .ok () { world with db := { world.db with institutions := write world.db.institutions } }
    else .error .uncaught world

/-- The instruction is executed in this world. -/
def Network.Lands (net : Network) (c : OragamiVault.Call K) (world : World K) : Prop :=
  net.transaction = true ∧ ∃ o, c.exec net.clock world.chain = .ok o

/-- What `issue` and `revoke` come to once the request has passed its checks. -/
def twoWrites {α : Type} (net : Network) (c : OragamiVault.Call K)
    (write : (K → Option (Institution K)) → K → Option (Institution K))
    (event : String → AuditEvent K) (answer : String → α) : Request K α := do
  let txSignature ← rpc net c
  writeInstitutions net write
  createAuditEvent net (event txSignature)
  pure (answer txSignature)

section Leaves

variable {net : Network} {c : OragamiVault.Call K} {world : World K}

theorem rpc_unlanded (h : ¬ net.Lands c world) : rpc net c world = .error .uncaught world := by
  cases htransaction : net.transaction with
  | false =>
      unfold rpc
      rw [htransaction]
      rfl
  | true =>
      refine rpc_refused ?_
      intro o ho
      exact h ⟨htransaction, o, ho⟩

/-- The chain moves, whether the client hears of it or not. -/
theorem rpc_landed {s : State K} {ev : Option (Event K)} (htransaction : net.transaction = true)
    (hexec : c.exec net.clock world.chain = .ok (s, ev)) :
    (net.confirmation = none ∧ rpc net c world = .error .uncaught { world with chain := s }) ∨
      ∃ txSignature, net.confirmation = some txSignature ∧
        rpc net c world = .ok txSignature { world with chain := s } := by
  unfold rpc
  rw [htransaction, hexec]
  cases net.confirmation with
  | none => exact .inl ⟨rfl, rfl⟩
  | some txSignature => exact .inr ⟨txSignature, rfl, rfl⟩

omit [DecidableEq K] [Addresses K] [Deployment K] [TokenProgram K] in
theorem createAuditEvent_leaves {α : Type} (event : AuditEvent K) (a : α) :
    let world' := leaves (do createAuditEvent net event; pure a) world
    world'.chain = world.chain ∧ world'.db.institutions = world.db.institutions := by
  cases haudit : net.auditEvent with
  | true => simp [leaves, bind, EStateM.bind, pure, EStateM.pure, createAuditEvent, haudit]
  | false => simp [leaves, bind, EStateM.bind, createAuditEvent, haudit]

/-- The second write is there with the first where the network records, and otherwise nothing
of it is. -/
theorem twoWrites_leaves {α : Type}
    {write : (K → Option (Institution K)) → K → Option (Institution K)}
    {event : String → AuditEvent K} {answer : String → α} {x : Request K α}
    (h : x world = twoWrites net c write event answer world) :
    let world' := leaves x world
    (¬ net.Lands c world ∧ world' = world) ∨
      ∃ s ev, net.transaction = true ∧ c.exec net.clock world.chain = .ok (s, ev) ∧
        world'.chain = s ∧
        (net.Records → world'.db.institutions = write world.db.institutions) ∧
        (¬ net.Records → world'.db = world.db) := by
  intro world'
  have hleaves : world' = leaves (twoWrites net c write event answer) world := by
    simp only [world', leaves, h]
  unfold twoWrites at hleaves
  by_cases hlands : net.Lands c world
  · obtain ⟨htransaction, ⟨s, ev⟩, hexec⟩ := hlands
    refine .inr ⟨s, ev, htransaction, hexec, ?_⟩
    -- the request ends at the first call that fails
    rcases rpc_landed htransaction hexec with ⟨hunheard, hrpc⟩ | ⟨txSignature, hheard, hrpc⟩
    · rw [leaves_error hrpc] at hleaves
      rw [hleaves]
      refine ⟨rfl, ?_, fun _ => rfl⟩
      rintro ⟨hconfirmed, -⟩
      rw [hunheard] at hconfirmed
      cases hconfirmed
    · rw [leaves_ok hrpc] at hleaves
      cases hinstitution : net.institution with
      | false =>
          have hwrite : writeInstitutions net write { world with chain := s } =
              .error .uncaught { world with chain := s } := by
            unfold writeInstitutions
            rw [hinstitution]
            rfl
          rw [leaves_error hwrite] at hleaves
          rw [hleaves]
          refine ⟨rfl, ?_, fun _ => rfl⟩
          rintro ⟨-, hwritten⟩
          cases hinstitution.symm.trans hwritten
      | true =>
          have hwrite : writeInstitutions net write { world with chain := s } =
              .ok () { chain := s, db := { world.db with
                institutions := write world.db.institutions } } := by
            unfold writeInstitutions
            rw [hinstitution]
            rfl
          rw [leaves_ok hwrite] at hleaves
          obtain ⟨hchain, hrows⟩ := createAuditEvent_leaves (event txSignature) (answer txSignature)
          rw [hleaves]
          refine ⟨hchain, fun _ => hrows, ?_⟩
          intro hnot
          exact absurd ⟨by rw [hheard]; rfl, hinstitution⟩ hnot
  · refine .inl ⟨hlands, ?_⟩
    rw [hleaves, leaves_error (rpc_unlanded hlands)]

end Leaves

end TwoWrites

/-! ## What an attempt does -/

section Attempts

variable [DecidableEq K] [Addresses K] [Deployment K] [TokenProgram K] [Platform K]
  {authority w : K} {t : Attempt K} {world world' : World K}

/-- The request, without its answer. -/
def Attempt.serve (authority : K) (t : Attempt K) : Request K Unit :=
  match t.call with
  | .issue dto => do
      let _ ← issue authority t.net t.dateNow dto
  | .revoke wallet => do
      let _ ← revoke authority t.net wallet

/-- The instruction it has for the chain, if the arguments pass. -/
def Attempt.instruction (authority : K) (t : Attempt K) : Option (OragamiVault.Call K) :=
  match t.call with
  | .issue dto => (checkIssue t.dateNow dto).toOption.map fun c =>
      .issueCredential
        { credential := credentialKey c.walletPk, vaultState := vaultStateKey, authority }
        (issueParams dto c)
  | .revoke wallet => wallet.map fun walletPk =>
      .revokeCredential
        { credential := credentialKey walletPk, vaultState := vaultStateKey, authority }

/-- Its transaction is executed in this world. -/
def Attempt.Executes (authority : K) (t : Attempt K) (world : World K) : Prop :=
  ∃ c, t.instruction authority = some c ∧ t.net.Lands c world

theorem Attempt.executes_iff {c : OragamiVault.Call K}
    (hinstruction : t.instruction authority = some c) :
    t.Executes authority world ↔ t.net.Lands c world := by
  simp [Attempt.Executes, hinstruction]

/-- What an executed attempt does to the credential of `w` and, if it records, to the row. -/
inductive Attempt.Moves (w : K) (t : Attempt K) (world world' : World K) : Prop
  | issued {c : ComplianceCredential K} {row : Institution K} :
      world.chain.credentials (credentialKey w) = none →
      world'.chain.credentials (credentialKey w) = some c → c.status = credentialStatusActive →
      row.credentialStatus = "active" →
      (t.net.Records → world'.db.institutions w = some row) →
      (¬ t.net.Records → world'.db.institutions w = world.db.institutions w) →
      Moves w t world world'
  | revoked {c : ComplianceCredential K} :
      world.chain.credentials (credentialKey w) = some c → c.status ≠ credentialStatusRevoked →
      world'.chain.credentials (credentialKey w) =
        some { c with status := credentialStatusRevoked } →
      (t.net.Records → world'.db.institutions w =
        (world.db.institutions w).map fun row => { row with credentialStatus := "revoked" }) →
      (¬ t.net.Records → world'.db.institutions w = world.db.institutions w) →
      Moves w t world world'

omit [DecidableEq K] [Addresses K] [Deployment K] [TokenProgram K] [Platform K] in
theorem leaves_unit {α : Type} (x : Request K α) (world : World K) :
    leaves (do let _ ← x) world = leaves x world := by
  cases hx : x world with
  | ok a world' =>
      rw [leaves_ok hx]
      simp [leaves, hx, pure, EStateM.pure]
  | error e world' =>
      rw [leaves_error hx]
      simp [leaves, hx]

omit [Platform K] in
/-- A credential that is there is not issued. -/
theorem not_lands_issue {a : IssueCredential K} {p : IssueCredentialParams K}
    {c : ComplianceCredential K} {net : Network}
    (hc : world.chain.credentials (credentialKey p.wallet) = some c) :
    ¬ net.Lands (.issueCredential a p) world := by
  rintro ⟨-, o, ho⟩
  exact issueCredential_refused hc o ho

/-- A checked request for a wallet without a credential comes to its two writes. -/
theorem issue_eq_twoWrites {net : Network} {dateNow : Int} {dto : IssueCredentialDto K}
    {c : CheckedIssue K} (hcheck : checkIssue dateNow dto = .ok c)
    (hfresh : world.chain.credentials (credentialKey c.walletPk) = none) :
    ∃ event answer, issue authority net dateNow dto world =
      twoWrites net (.issueCredential
        { credential := credentialKey c.walletPk, vaultState := vaultStateKey, authority }
        (issueParams dto c))
        (fun rows => Function.update rows c.walletPk (some (issuedInstitution dto c)))
        event answer world := by
  have hgo : ofExcept (checkIssue dateNow dto) world = .ok c world := by
    rw [hcheck]
    rfl
  have hread : refuseReissue net c.walletPk world = .ok () world := by
    unfold refuseReissue
    rw [readCredential_eq, hfresh]
    cases net.credential with
    | true => rfl
    | false => rfl
  refine ⟨fun txSignature =>
    ⟨authority, "admin", "issue_credential", "success", some txSignature, c.walletPk⟩,
    fun txSignature => ⟨true, credentialKey c.walletPk, txSignature⟩, ?_⟩
  rw [issue, request_ok hgo, request_ok hread]
  rfl

theorem issue_leaves {net : Network} {dateNow : Int} {dto : IssueCredentialDto K}
    (hw : dto.wallet = some w) :
    let t : Attempt K := ⟨.issue dto, net, dateNow⟩
    let world' := leaves (issue authority net dateNow dto) world
    (¬ t.Executes authority world ∧ world' = world) ∨
      (t.Executes authority world ∧ t.Moves w world world') := by
  intro t world'
  cases hcheck : checkIssue dateNow dto with
  | error e =>
      refine .inl ⟨?_, ?_⟩
      · rintro ⟨c, hc, -⟩
        simp [t, Attempt.instruction, hcheck, Except.toOption] at hc
      · have hrefused : ofExcept (checkIssue dateNow dto) world = .error e world := by
          rw [hcheck]
          rfl
        exact leaves_error hrefused
  | ok c =>
      have hwallet : c.walletPk = w := checkIssue_wallet hcheck hw
      subst hwallet
      have hinstruction : t.instruction authority = some (.issueCredential
          { credential := credentialKey c.walletPk, vaultState := vaultStateKey, authority }
          (issueParams dto c)) := by
        simp [t, Attempt.instruction, hcheck, Except.toOption]
      rw [t.executes_iff hinstruction]
      cases hfresh : world.chain.credentials (credentialKey c.walletPk) with
      | some old =>
          refine .inl ⟨not_lands_issue hfresh, ?_⟩
          obtain ⟨e, he, -⟩ := issue_refused world hfresh authority net dateNow dto hw
          simp only [world', leaves, he]
      | none =>
          obtain ⟨event, answer, hsame⟩ := issue_eq_twoWrites hcheck hfresh
          rcases twoWrites_leaves hsame with
            ⟨hno, hworld⟩ | ⟨s, ev, htransaction, hexec, hchain, hrow, hkept⟩
          · exact .inl ⟨hno, hworld⟩
          · obtain ⟨vs, cred, hwritten, -, -, -, -, hactive⟩ := issueCredential_spec hexec
            have hstatus : (issuedInstitution dto c).credentialStatus = "active" := rfl
            refine .inr ⟨⟨htransaction, _, hexec⟩, ?_⟩
            refine .issued (c := cred) hfresh ?_ hactive hstatus ?_ ?_
            · rw [hchain, hwritten.state]
              exact Function.update_self ..
            · intro hrecords
              rw [hrow hrecords]
              exact Function.update_self ..
            · intro hnot
              rw [hkept hnot]

theorem revoke_leaves {net : Network} {dateNow : Int} :
    let t : Attempt K := ⟨.revoke (some w), net, dateNow⟩
    let world' := leaves (revoke authority net (some w)) world
    (¬ t.Executes authority world ∧ world' = world) ∨
      (t.Executes authority world ∧ t.Moves w world world') := by
  intro t world'
  have hinstruction : t.instruction authority = some (.revokeCredential
      { credential := credentialKey w, vaultState := vaultStateKey, authority }) := rfl
  obtain ⟨event, answer, hsame⟩ : ∃ event answer, revoke authority net (some w) world =
      twoWrites net (.revokeCredential
        { credential := credentialKey w, vaultState := vaultStateKey, authority })
        (fun rows => Function.update rows w
          ((rows w).map fun row => { row with credentialStatus := "revoked" }))
        event answer world := by
    exact ⟨fun txSignature =>
      ⟨authority, "admin", "revoke_credential", "success", some txSignature, w⟩,
      fun txSignature => ⟨true, txSignature⟩, rfl⟩
  rw [t.executes_iff hinstruction]
  rcases twoWrites_leaves hsame with
    ⟨hno, hworld⟩ | ⟨s, ev, htransaction, hexec, hchain, hrow, hkept⟩
  · exact .inl ⟨hno, hworld⟩
  · obtain ⟨vs, c, hwritten, hc, hne⟩ := revokeCredential_spec hexec
    refine .inr ⟨⟨htransaction, _, hexec⟩, .revoked hc hne ?_ ?_ ?_⟩
    · rw [hchain, hwritten.state]
      exact Function.update_self ..
    · intro hrecords
      rw [hrow hrecords]
      exact Function.update_self ..
    · intro hnot
      rw [hkept hnot]

/-- A call is served: for the wallet `w`, by whichever of the two. -/
inductive AttemptStep (authority w : K) : World K → Attempt K → World K → Prop
  | served {t : Attempt K} {world : World K} : t.call.wallet = some w →
      AttemptStep authority w world t (leaves (t.serve authority) world)

theorem AttemptStep.effect (h : AttemptStep authority w world t world') :
    (¬ t.Executes authority world ∧ world' = world) ∨
      (t.Executes authority world ∧ t.Moves w world world') := by
  cases h with
  | served hw =>
      obtain ⟨call, net, dateNow⟩ := t
      cases call with
      | issue dto =>
          unfold Attempt.serve
          rw [leaves_unit]
          exact issue_leaves hw
      | revoke wallet =>
          cases hw
          unfold Attempt.serve
          rw [leaves_unit]
          exact revoke_leaves

end Attempts

/-! ## In step -/

section Records

variable [Addresses K] [Deployment K] {w : K} {t : Attempt K} {world world' : World K}

def OnChain (world : World K) (w : K) (status : UInt8) : Prop :=
  ∃ c, world.chain.credentials (credentialKey w) = some c ∧ c.status = status

/-- The wallet has its row, which says of the credential what the chain says. -/
def Reconciled (w : K) (world : World K) : Prop :=
  ∃ row, world.db.institutions w = some row ∧
    (row.credentialStatus = "active" ↔ OnChain world w credentialStatusActive) ∧
    (row.credentialStatus = "revoked" ↔ OnChain world w credentialStatusRevoked)

/-- Or there is neither yet. -/
def InStep (w : K) (world : World K) : Prop :=
  (world.chain.credentials (credentialKey w) = none ∧ world.db.institutions w = none) ∨
    ((∃ c, world.chain.credentials (credentialKey w) = some c) ∧ Reconciled w world)

/-- A credential without a row, or one revoked whose row has not heard of it. -/
def Astray (w : K) (world : World K) : Prop :=
  ∃ c, world.chain.credentials (credentialKey w) = some c ∧
    ∀ row, world.db.institutions w = some row →
      c.status = credentialStatusRevoked ∧ row.credentialStatus ≠ "revoked"

theorem onChain_iff {c : ComplianceCredential K} {status : UInt8}
    (hc : world.chain.credentials (credentialKey w) = some c) :
    OnChain world w status ↔ c.status = status := by
  constructor
  · rintro ⟨c', hc', hstatus⟩
    cases hc.symm.trans hc'
    exact hstatus
  · intro hstatus
    exact ⟨c, hc, hstatus⟩

theorem Astray.not_reconciled (h : Astray w world) : ¬ Reconciled w world := by
  rintro ⟨row, hrow, -, hrevoked⟩
  obtain ⟨c, hc, hall⟩ := h
  obtain ⟨hstatus, hne⟩ := hall row hrow
  exact hne (hrevoked.mpr ⟨c, hc, hstatus⟩)

/-- Recorded, a move keeps the two in step, -/
theorem Attempt.Moves.inStep (h : t.Moves w world world') (hworld : InStep w world)
    (hrecords : t.net.Records) : InStep w world' := by
  refine .inr ?_
  cases h with
  | @issued c row _ hc hactive hstatus hrow _ =>
      refine ⟨⟨c, hc⟩, row, hrow hrecords, ?_, ?_⟩
      · rw [onChain_iff hc]
        exact ⟨fun _ => hactive, fun _ => hstatus⟩
      · rw [onChain_iff hc, hactive, hstatus]
        decide
  | @revoked c hold _ hc hrow _ =>
      refine ⟨⟨_, hc⟩, ?_⟩
      rcases hworld with ⟨hnone, -⟩ | ⟨-, row, hrow₀, -⟩
      · cases hnone.symm.trans hold
      · refine ⟨{ row with credentialStatus := "revoked" }, ?_, ?_, ?_⟩
        · rw [hrow hrecords, hrow₀]
          rfl
        · rw [onChain_iff hc]
          show "revoked" = "active" ↔ credentialStatusRevoked = credentialStatusActive
          decide
        · rw [onChain_iff hc]
          exact ⟨fun _ => rfl, fun _ => rfl⟩

/-- and unrecorded it parts them. -/
theorem Attempt.Moves.astray (h : t.Moves w world world') (hworld : InStep w world)
    (hnot : ¬ t.net.Records) : Astray w world' := by
  cases h with
  | issued hnone hc _ _ _ hkept =>
      refine ⟨_, hc, ?_⟩
      intro row hrow
      rw [hkept hnot] at hrow
      rcases hworld with ⟨-, hempty⟩ | ⟨⟨c, hold⟩, -⟩
      · cases hempty.symm.trans hrow
      · cases hnone.symm.trans hold
  | revoked hold hne hc _ hkept =>
      refine ⟨_, hc, ?_⟩
      intro row hrow
      rw [hkept hnot] at hrow
      rcases hworld with ⟨hnone, -⟩ | ⟨-, row', hrow', -, hrevoked⟩
      · cases hnone.symm.trans hold
      · cases hrow'.symm.trans hrow
        refine ⟨rfl, ?_⟩
        rw [Ne, hrevoked, onChain_iff hold]
        exact hne

/-- What has gone astray is not found again. -/
theorem Attempt.Moves.stays_astray (h : t.Moves w world world') (hworld : Astray w world) :
    Astray w world' := by
  obtain ⟨c, hc, hall⟩ := hworld
  cases h with
  | issued hnone => cases hnone.symm.trans hc
  | revoked hold hne hc' hrow hkept =>
      cases hold.symm.trans hc
      refine ⟨_, hc', ?_⟩
      -- one that could still be revoked had no row, and gets none by an update
      have hempty : world.db.institutions w = none := by
        by_contra hsome
        obtain ⟨row, hrow'⟩ := Option.ne_none_iff_exists'.mp hsome
        exact hne (hall row hrow').1
      have hempty' : world'.db.institutions w = none := by
        by_cases hrecords : t.net.Records
        · rw [hrow hrecords, hempty]
          rfl
        · rw [hkept hrecords, hempty]
      intro row hrow'
      cases hempty'.symm.trans hrow'

end Records

/-! ## Retries -/

section Retries

variable [DecidableEq K] [Addresses K] [Deployment K] [TokenProgram K] [Platform K]
  {authority w : K} {world₀ world : World K} {ts : List (Transition (World K) (Attempt K))}
  {retry : Transition (World K) (Attempt K)}

/-- It changed the chain and failed. -/
def Interrupted (authority : K) (t : Transition (World K) (Attempt K)) : Prop :=
  t.label.Executes authority t.pre ∧ fails (t.label.serve authority) t.pre = true

/-- A call made again with the arguments of one that was interrupted. -/
def Retries (authority : K) (ts : List (Transition (World K) (Attempt K)))
    (retry : Transition (World K) (Attempt K)) : Prop :=
  ∃ t ∈ ts, Interrupted authority t ∧ retry.label.call = t.label.call

/-- A change of the chain did not fail before its row was written. -/
def Recorded (authority : K) (t : Transition (World K) (Attempt K)) : Prop :=
  t.label.Executes authority t.pre → t.label.net.Records

/-- A credential once there stays. -/
theorem AttemptStep.credential {t : Attempt K} {world' : World K}
    (h : AttemptStep authority w world t world')
    (hc : ∃ c, world.chain.credentials (credentialKey w) = some c) :
    ∃ c, world'.chain.credentials (credentialKey w) = some c := by
  rcases h.effect with ⟨-, rfl⟩ | ⟨-, hmoves⟩
  · exact hc
  · cases hmoves with
    | issued _ hc' => exact ⟨_, hc'⟩
    | revoked _ _ hc' => exact ⟨_, hc'⟩

theorem run_inStep (h : Run (AttemptStep authority w) world₀ ts world) (h₀ : InStep w world₀) :
    ((∀ t ∈ ts, Recorded authority t) ∧ InStep w world) ∨
      ((∃ t ∈ ts, ¬ Recorded authority t) ∧ Astray w world) := by
  refine h.kept_or_lost h₀ ?_ ?_ ?_
  · intro s t s' hs hstep hrecorded
    rcases hstep.effect with ⟨-, rfl⟩ | ⟨hexecutes, hmoves⟩
    · exact hs
    · exact hmoves.inStep hs (hrecorded hexecutes)
  · intro s t s' hs hstep hnot
    rcases hstep.effect with ⟨hexecutes, -⟩ | ⟨hexecutes, hmoves⟩
    · exact absurd (fun h => absurd h hexecutes) hnot
    · exact hmoves.astray hs fun hrecords => hnot fun _ => hrecords
  · intro s t s' hs hstep
    rcases hstep.effect with ⟨-, rfl⟩ | ⟨-, hmoves⟩
    · exact hs
    · exact hmoves.stays_astray hs

/-- Once a retry has returned, the row is there and says what the chain says if and only if
no call that changed the chain, the retried one and the retry included, failed before its row
was written. -/
theorem reconciled_iff (h : Run (AttemptStep authority w) world₀ (ts ++ [retry]) world)
    (h₀ : InStep w world₀) (hretry : Retries authority ts retry) :
    Reconciled w world ↔ ∀ t ∈ ts ++ [retry], Recorded authority t := by
  obtain ⟨t, ht, ⟨hexecutes, -⟩, -⟩ := hretry
  -- the call interrupted left a credential
  have hcredential : ∃ c, world.chain.credentials (credentialKey w) = some c := by
    obtain ⟨before, after, hts⟩ := List.append_of_mem (List.mem_append_left [retry] ht)
    rw [hts] at h
    obtain ⟨-, hstep, hrest⟩ := h.split
    refine hrest.invariant
      (I := fun world => ∃ c, world.chain.credentials (credentialKey w) = some c)
      ?_ fun hc hstep => hstep.credential hc
    rcases hstep.effect with ⟨hno, -⟩ | ⟨-, hmoves⟩
    · exact absurd hexecutes hno
    · cases hmoves with
      | issued _ hc => exact ⟨_, hc⟩
      | revoked _ _ hc => exact ⟨_, hc⟩
  rcases run_inStep h h₀ with ⟨hall, hend⟩ | ⟨⟨u, hu, hnot⟩, hend⟩
  · refine ⟨fun _ => hall, fun _ => ?_⟩
    rcases hend with ⟨hnone, -⟩ | ⟨-, hreconciled⟩
    · obtain ⟨c, hc⟩ := hcredential
      cases hnone.symm.trans hc
    · exact hreconciled
  · refine ⟨fun hreconciled => absurd hreconciled hend.not_reconciled, fun hall => ?_⟩
    exact absurd (hall u hu) hnot

end Retries

/-! ## A credential for Alice, twice -/

namespace Cluster

open OragamiVault.Cluster

/-- The vault is open and nobody has a credential. -/
def uncredentialed : World FreeKey :=
  ⟨final (.genesis OragamiVault.Cluster.ledger) [opening], db⟩

/-- Alice's credential, where something of the database may be down. -/
def issuing (institution auditEvent : Bool) : Attempt FreeKey :=
  ⟨.issue reissue, { net with institution, auditEvent }, 20000⟩

/-- It is asked for twice, the second time with everything up. -/
def first (institution auditEvent : Bool) : World FreeKey :=
  leaves ((issuing institution auditEvent).serve admin) uncredentialed

def second (institution auditEvent : Bool) : World FreeKey :=
  leaves ((issuing true true).serve admin) (first institution auditEvent)

def retry (institution auditEvent : Bool) : Transition (World FreeKey) (Attempt FreeKey) :=
  ⟨first institution auditEvent, issuing true true, second institution auditEvent⟩

def firstTry (institution auditEvent : Bool) : Transition (World FreeKey) (Attempt FreeKey) :=
  ⟨uncredentialed, issuing institution auditEvent, first institution auditEvent⟩

theorem twice_run (institution auditEvent : Bool) :
    Run (AttemptStep admin alice) uncredentialed
      ([firstTry institution auditEvent] ++ [retry institution auditEvent])
      (second institution auditEvent) := by
  have hfirst : Run (AttemptStep admin alice) uncredentialed [firstTry institution auditEvent]
      (first institution auditEvent) := Run.snoc Run.nil (.served rfl)
  exact hfirst.snoc (.served rfl)

theorem uncredentialed_inStep : InStep alice uncredentialed := .inl ⟨rfl, rfl⟩

theorem first_credentialed (institution auditEvent : Bool) :
    ((first institution auditEvent).chain.credentials (credentialKey alice)).isSome = true := by
  cases institution <;> cases auditEvent <;> decide +kernel

/-- The first call is interrupted unless everything is up. -/
theorem firstTry_interrupted (institution auditEvent : Bool)
    (hdown : (institution && auditEvent) = false) :
    Interrupted admin (firstTry institution auditEvent) := by
  refine ⟨?_, ?_⟩
  · have hstep : AttemptStep admin alice uncredentialed (issuing institution auditEvent)
        (first institution auditEvent) := .served rfl
    rcases hstep.effect with ⟨-, hsame⟩ | ⟨hexecutes, -⟩
    · have hsome := first_credentialed institution auditEvent
      rw [hsame] at hsome
      cases hsome
    · exact hexecutes
  · revert hdown
    cases institution <;> cases auditEvent <;> decide +kernel

theorem retry_retries (institution auditEvent : Bool)
    (hdown : (institution && auditEvent) = false) :
    Retries admin [firstTry institution auditEvent] (retry institution auditEvent) :=
  ⟨_, List.mem_singleton_self _, firstTry_interrupted institution auditEvent hdown, rfl⟩

end Cluster

open OragamiVault.Cluster Cluster in
/-- With the audit event down the row is there all the same. -/
theorem reconciled_unaudited : Reconciled alice (second true false) := by
  refine (reconciled_iff (twice_run true false) uncredentialed_inStep
    (retry_retries true false rfl)).mpr ?_
  intro t ht _
  rcases List.mem_cons.mp ht with rfl | ht
  · exact ⟨rfl, rfl⟩
  · cases List.mem_singleton.mp ht
    exact ⟨rfl, rfl⟩

open OragamiVault.Cluster Cluster in
/-- With the table down Alice has a credential, and never gets the row. -/
theorem credential_unreconciled :
    ∃ ts again world, Run (AttemptStep admin alice) uncredentialed (ts ++ [again]) world ∧
      InStep alice uncredentialed ∧ Retries admin ts again ∧
      OnChain world alice credentialStatusActive ∧ world.db.institutions alice = none ∧
      ¬ Reconciled alice world := by
  have hnone : ((second false true).db.institutions alice).isNone = true := by decide +kernel
  refine ⟨_, _, _, twice_run false true, uncredentialed_inStep, retry_retries false true rfl, ?_,
    Option.isNone_iff_eq_none.mp hnone, ?_⟩
  · have hactive : ((second false true).chain.credentials (credentialKey alice)).map (·.status) =
        some credentialStatusActive := by
      decide +kernel
    exact Option.map_eq_some_iff.mp hactive
  · rintro ⟨row, hrow, -⟩
    rw [hrow] at hnone
    cases hnone

end Backend
