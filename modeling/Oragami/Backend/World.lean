/-
# `Oragami.Backend.World` — the chain and the database behind the services

A service keeps nothing: a request reads and writes accounts of the chain through
the client of `anchor.service.ts`, and rows of the database.  `World` is both, and a
`Request` is a computation on it.  What it wrote stays written when it fails later.

Any call to the outside may fail.  Which ones do is data of a request (`Network`), so
a statement about every network is one about every failure.
-/
import Oragami.Backend.Client
import Oragami.Backend.Encoding
import Oragami.OragamiVault.Step

namespace Backend

open Idl

/-! ## The database -/

structure Institution (K : Type) where
  walletAddress : K
  name : String
  jurisdiction : String
  tier : UInt8
  kycLevel : UInt8
  amlScore : Int
  credentialPda : Option K
  credentialStatus : String
  /-- Dates are milliseconds. -/
  credentialIssuedAt : Option Int
  credentialExpiresAt : Option Int
  attestationHash : Option String

structure AuditEvent (K : Type) where
  actor : K
  role : String
  action : String
  result : String
  txSignature : Option String
  /-- The wallet, all the metadata there are. -/
  metadata : K

structure Database (K : Type) where
  /-- One row at most for a `walletAddress`. -/
  institutions : K → Option (Institution K)
  auditEvents : List (AuditEvent K)

structure World (K : Type) where
  chain : OragamiVault.State K
  db : Database K

/-! ## Requests -/

/-- What gets through while a request is served. -/
structure Network where
  /-- The time on the chain. -/
  clock : Int64
  /-- The transaction sent reaches the chain, -/
  transaction : Bool
  /-- and is confirmed under this signature. -/
  confirmation : Option String
  /-- The account is read. -/
  credential : Bool
  vaultState : Bool
  /-- Statements on the table are executed. -/
  institution : Bool
  auditEvent : Bool

abbrev Request (K : Type) := EStateM (Exception K) (World K)

section Request

variable {K σ α β : Type} {x : EStateM (Exception K) σ α} {f : α → EStateM (Exception K) σ β}
  {world world' : σ}

/-- A step that answers goes on, -/
theorem request_ok {a : α} (h : x world = .ok a world') : (x >>= f) world = f a world' := by
  simp only [bind, EStateM.bind, h]

/-- and one that throws ends the request. -/
theorem request_error {e : Exception K} (h : x world = .error e world') :
    (x >>= f) world = .error e world' := by
  simp only [bind, EStateM.bind, h]

/-- The world a request leaves, however it ends. -/
def leaves (x : EStateM (Exception K) σ α) (world : σ) : σ :=
  match x world with
  | .ok _ world' => world'
  | .error _ world' => world'

/-- A request that goes on leaves what the rest of it leaves, -/
theorem leaves_ok {a : α} (h : x world = .ok a world') :
    leaves (x >>= f) world = leaves (f a) world' := by
  unfold leaves
  rw [request_ok h]

/-- and one that ends what there is then. -/
theorem leaves_error {e : Exception K} (h : x world = .error e world') :
    leaves (x >>= f) world = world' := by
  unfold leaves
  rw [request_error h]

/-- It throws. -/
def fails (x : EStateM (Exception K) σ α) (world : σ) : Bool :=
  match x world with
  | .ok _ _ => false
  | .error _ _ => true

/-- A computation that does not touch the world. -/
def ofExcept (r : Except (Exception K) α) : Request K α := fun world =>
  match r with
  | .ok a => .ok a world
  | .error e => .error e world

end Request

variable {K : Type} [DecidableEq K] [Addresses K] [Deployment K]

/-! ## `anchor.service.ts` -/

section Read

variable (net : Network) (s : OragamiVault.State K)

/-- `readCredential`, or nothing where it throws. -/
def readCredential (wallet : K) : Option (Record K CredentialField) :=
  if net.credential then
    (s.credentials (OragamiVault.credentialKey wallet)).bind fun c =>
      OragamiVaultIdl.complianceCredential.decode
        (accountData MultiAssetVault.credentialDiscriminator (credentialStored c))
  else none

/-- `readVaultState`. -/
def readVaultState : Option (Record K VaultStateField) :=
  if net.vaultState then
    s.vaultState.bind fun vs =>
      OragamiVaultIdl.vaultState.decode (accountData vaultStateDiscriminator (vaultStateStored vs))
  else none

omit [DecidableEq K] in
theorem readCredential_eq (wallet : K) :
    readCredential net s wallet =
      if net.credential then
        (s.credentials (OragamiVault.credentialKey wallet)).map
          fun c => record (credentialStored c).values
      else none := by
  unfold readCredential
  cases s.credentials (OragamiVault.credentialKey wallet) with
  | none => rfl
  | some c => rw [Option.bind_some, Option.map_some, decode_credential]

omit [DecidableEq K] [Addresses K] [Deployment K] in
theorem readVaultState_eq :
    readVaultState net s =
      if net.vaultState then
        s.vaultState.map fun vs => record (Stored.values ((vaultStateStored vs).take 21))
      else none := by
  unfold readVaultState
  cases s.vaultState with
  | none => rfl
  | some vs => rw [Option.bind_some, Option.map_some, decode_vaultState]

/-- `readVaultState` of a state, where it is answered. -/
def fetchVaultState : Option (Record K VaultStateField) :=
  s.vaultState.bind fun vs =>
    OragamiVaultIdl.vaultState.decode (accountData vaultStateDiscriminator (vaultStateStored vs))

omit [DecidableEq K] [Addresses K] [Deployment K] in
theorem fetchVaultState_eq : fetchVaultState s =
    s.vaultState.map fun vs => record (Stored.values ((vaultStateStored vs).take 21)) := by
  unfold fetchVaultState
  cases s.vaultState with
  | none => rfl
  | some vs => rw [Option.bind_some, Option.map_some, decode_vaultState]

end Read

variable [TokenProgram K]

/-- `.rpc()`: the instruction is executed, or refused, and the client hears of it or not. -/
def rpc (net : Network) (c : OragamiVault.Call K) : Request K String := fun world =>
  if net.transaction then
    match c.exec net.clock world.chain with
    | .error _ => .error .uncaught world
    | .ok (s, _) =>
        match net.confirmation with
        | none => .error .uncaught { world with chain := s }
        | some txSignature => .ok txSignature { world with chain := s }
  else .error .uncaught world

/-- An instruction that is refused leaves no trace. -/
theorem rpc_refused {net : Network} {c : OragamiVault.Call K} {world : World K}
    (h : ∀ o, c.exec net.clock world.chain ≠ .ok o) :
    rpc net c world = .error .uncaught world := by
  unfold rpc
  split
  · split
    · rfl
    · next hexec => exact absurd hexec (h _)
  · rfl

/-! ## Statements of the services -/

omit [DecidableEq K] [Addresses K] [Deployment K] [TokenProgram K]

/-- `institution.upsert`, where what is created and what is updated are one row. -/
def upsertInstitution (net : Network) (row : Institution K) : Request K Unit :=
  fun world =>
    if net.institution then
      .ok () { world with db := { world.db with
        institutions := Function.update world.db.institutions row.walletAddress (some row) } }
    else .error .uncaught world

/-- `institution.updateMany` of the rows of a wallet, of which there is one at most. -/
def updateInstitutions (net : Network) (walletAddress : K)
    (data : Institution K → Institution K) : Request K Unit := fun world =>
  if net.institution then
    .ok () { world with db := { world.db with
      institutions := Function.update world.db.institutions walletAddress
        ((world.db.institutions walletAddress).map data) } }
  else .error .uncaught world

/-- `auditEvent.create`. -/
def createAuditEvent (net : Network) (event : AuditEvent K) : Request K Unit := fun world =>
  if net.auditEvent then
    .ok () { world with db := { world.db with auditEvents := world.db.auditEvents ++ [event] } }
  else .error .uncaught world

end Backend
