/-
# `Oragami.Backend.TravelRuleService` — the register of large deposits

`submit` draws a nonce, builds the `init_travel_rule` instruction for its hash and writes a
row of `TravelRule`.  Then it returns the instruction for the wallet to sign.  It sends nothing,
and nobody tells it what became of the transaction: `getByNonceHash` looks whether the
account is there.

The row says what the account will, but for names longer than the account has
room for: those are cut there.  For a wallet that signs no other `init_travel_rule`
the table is therefore a register of its large deposits: each has a row of its
own, written before it, with its amount (`travel_rule_registered`).
-/
import Oragami.Backend.CredentialsService
import Oragami.Backend.DepositIndex
import Oragami.Chain.Scenario
import Oragami.Lib.SingleUse

namespace Backend

open Idl Lts Anchor OragamiVault

variable {K : Type}

/-! ## The table -/

/-- A row of `TravelRule`; an institution is its wallet, and hashes are their bytes. -/
structure TravelRuleRow (K : Type) where
  pda : K
  institution : K
  originatorName : String
  originatorAccount : String
  beneficiaryName : String
  complianceHash : Vector UInt8 32
  nonceHash : Vector UInt8 32
  usdcAmount : Int
  submittedAt : Int

/-- `nonceHash` as the column has it. -/
def TravelRuleRow.nonceHashHex (row : TravelRuleRow K) : String := hex row.nonceHash.toList

structure TravelRuleDatabase (K : Type) where
  institutions : K → Option (Institution K)
  travelRules : List (TravelRuleRow K)

/-- A row the table takes: its amount fits, and no row has its account or its hash. -/
def TravelRuleDatabase.Takes (db : TravelRuleDatabase K) (row : TravelRuleRow K) : Prop :=
  FitsColumn row.usdcAmount ∧
    ∀ r ∈ db.travelRules, r.pda ≠ row.pda ∧ r.nonceHashHex ≠ row.nonceHashHex

instance [DecidableEq K] (db : TravelRuleDatabase K) (row : TravelRuleRow K) :
    Decidable (db.Takes row) := inferInstanceAs (Decidable (_ ∧ _))

/-! ## `submit` -/

/-- `SubmitTravelRuleDto`, with what its validators ask for. -/
structure SubmitTravelRuleDto (K : Type) where
  wallet : Option K
  /-- A text, -/
  usdcAmount : String
  /-- and the integer it is the text of. -/
  amount : Option Int
  originatorName : String
  originatorAccount : String
  beneficiaryName : String
  originatorName_le : utf16Length originatorName.toList ≤ 64
  originatorAccount_le : utf16Length originatorAccount.toList ≤ 34
  beneficiaryName_le : utf16Length beneficiaryName.toList ≤ 64

deriving instance DecidableEq for InitTravelRule, InitializeTravelRuleParams

/-- `init_travel_rule`, with its accounts, in a transaction nobody has signed. -/
structure UnsignedTravelRule (K : Type) where
  accounts : InitTravelRule K
  params : InitializeTravelRuleParams
deriving DecidableEq

structure TravelRuleResponse (K : Type) where
  nonceHash : String
  /-- `nonceBase58`, as bytes. -/
  nonce : Vector UInt8 32
  travelRulePda : K
  txSignature : Option String
  unsignedTransaction : UnsignedTravelRule K
  lastValidBlockHeight : Nat

/-- What gets through while a record is submitted. -/
structure TravelRuleNetwork where
  institution : Bool
  /-- `lastValidBlockHeight` of the block hash it gets. -/
  blockhash : Option Nat
  travelRule : Bool
  /-- `new Date()`. -/
  submittedAt : Int

def minTravelRuleUsdc : Int := 1000000000

/-- An amount in the eight bytes of a `u64`. -/
def toU64 (n : Int) : Option UInt64 :=
  if 0 ≤ n ∧ n < 2 ^ 64 then some (UInt64.ofNat n.toNat) else none

def strToBytes34 (s : String) : Vector UInt8 34 := copyInto 34 (utf8 s.toList)

section Submit

variable [Platform K]

def complianceHashFromDto (nonce : Vector UInt8 32) (dto : SubmitTravelRuleDto K) :
    Vector UInt8 32 :=
  let compliancePayload := jsonObject [("originatorName", jsonString dto.originatorName),
    ("originatorAccount", jsonString dto.originatorAccount),
    ("beneficiaryName", jsonString dto.beneficiaryName), ("amount", jsonString dto.usdcAmount),
    ("nonce", jsonString (hex nonce.toList))]
  Platform.sha256 K (utf8 compliancePayload.toList)

def travelRuleParams (nonce : Vector UInt8 32) (dto : SubmitTravelRuleDto K) (amount : UInt64) :
    InitializeTravelRuleParams where
  originatorName := strToBytes64 dto.originatorName
  originatorAccount := strToBytes34 dto.originatorAccount
  beneficiaryName := strToBytes64 dto.beneficiaryName
  complianceHash := complianceHashFromDto nonce dto
  amount
  nonceHash := Platform.sha256 K nonce.toList

variable [DecidableEq K] [Addresses K] [Deployment K]

/-- The row of `payer`, -/
def submittedRow (net : TravelRuleNetwork) (nonce : Vector UInt8 32) (dto : SubmitTravelRuleDto K)
    (payer : K) (amount : Int) : TravelRuleRow K where
  pda := travelRuleKey payer (Platform.sha256 K nonce.toList)
  institution := payer
  originatorName := dto.originatorName
  originatorAccount := dto.originatorAccount
  beneficiaryName := dto.beneficiaryName
  complianceHash := complianceHashFromDto nonce dto
  nonceHash := Platform.sha256 K nonce.toList
  usdcAmount := amount
  submittedAt := net.submittedAt

/-- and its transaction. -/
def unsignedTravelRule (nonce : Vector UInt8 32) (dto : SubmitTravelRuleDto K) (payer : K)
    (amount : UInt64) : UnsignedTravelRule K where
  accounts := { travelRuleData := travelRuleKey payer (Platform.sha256 K nonce.toList), payer }
  params := travelRuleParams nonce dto amount

/-- All that `submit` does before it writes. -/
def prepareSubmit (net : TravelRuleNetwork) (nonce : Vector UInt8 32)
    (dto : SubmitTravelRuleDto K) (db : TravelRuleDatabase K) :
    Except (Exception K) (TravelRuleRow K × TravelRuleResponse K) := do
  let amount ← orThrow dto.amount
  if amount < minTravelRuleUsdc then
    .error (.badRequest "usdcAmount must be >= 1000000000 (1000 USDC) for travel rule")
  else
    let institution ← queried net.institution
      (dto.wallet.filter fun wallet => (db.institutions wallet).isSome)
    match institution with
    | some payer =>
        let amountBytes ← orThrow (toU64 amount)
        let lastValidBlockHeight ← orThrow net.blockhash
        let row := submittedRow net nonce dto payer amount
        pure (row, {
          nonceHash := row.nonceHashHex
          nonce
          travelRulePda := row.pda
          txSignature := none
          unsignedTransaction := unsignedTravelRule nonce dto payer amountBytes
          lastValidBlockHeight })
    | none =>
        .error (.badRequest "Institution not found - complete credential onboarding first")

omit [Platform K] [Addresses K] [Deployment K] in
/-- `travelRule.create`. -/
def createTravelRule (net : TravelRuleNetwork) (row : TravelRuleRow K) :
    EStateM (Exception K) (TravelRuleDatabase K) Unit := fun db =>
  if net.travelRule = true ∧ db.Takes row then
    .ok () { db with travelRules := db.travelRules ++ [row] }
  else .error .uncaught db

def submit (net : TravelRuleNetwork) (nonce : Vector UInt8 32) (dto : SubmitTravelRuleDto K) :
    EStateM (Exception K) (TravelRuleDatabase K) (TravelRuleResponse K) := fun db =>
  match prepareSubmit net nonce dto db with
  | .error e => .error e db
  | .ok (row, response) => (do
      createTravelRule net row
      pure response) db

end Submit

/-! ## `getByNonceHash` -/

/-- Fields of `TravelRuleData`, as the client spells them. -/
inductive TravelRuleField where
  | bump | payer | originatorName | originatorAccount | beneficiaryName | complianceHash | amount
  | submittedAt | consumed
deriving DecidableEq

/-- `TravelRuleData` of oragami-vault. -/
def travelRuleStored (tr : TravelRuleData K) : Stored K TravelRuleField :=
  [(.bump, ⟨.u8, tr.bump⟩), (.payer, ⟨.pubkey, tr.payer⟩),
    (.originatorName, ⟨.bytes 64, tr.originatorName⟩),
    (.originatorAccount, ⟨.bytes 34, tr.originatorAccount⟩),
    (.beneficiaryName, ⟨.bytes 64, tr.beneficiaryName⟩),
    (.complianceHash, ⟨.bytes 32, tr.complianceHash⟩), (.amount, ⟨.u64, tr.amount⟩),
    (.submittedAt, ⟨.i64, tr.submittedAt⟩), (.consumed, ⟨.bool, tr.consumed⟩)]

/-- The first eight bytes of the hash of `account:TravelRuleData`. -/
def travelRuleDiscriminator : Vector UInt8 8 := #v[86, 92, 128, 65, 237, 198, 122, 87]

/-- Of `oragami_vault.idl.json`, which does not know of `consumed`. -/
def OragamiVaultIdl.travelRuleData : Account TravelRuleField where
  discriminator := #v[86, 92, 128, 65, 237, 198, 122, 87]
  fields := [(.bump, .u8), (.payer, .pubkey), (.originatorName, .bytes 64),
    (.originatorAccount, .bytes 34), (.beneficiaryName, .bytes 64), (.complianceHash, .bytes 32),
    (.amount, .u64), (.submittedAt, .i64)]

/-- A record is read as it is stored, but for the flag. -/
theorem decode_travelRule (tr : TravelRuleData K) :
    OragamiVaultIdl.travelRuleData.decode (accountData travelRuleDiscriminator (travelRuleStored tr)) =
      some (record (Stored.values ((travelRuleStored tr).take 8))) := by
  have hbytes : (travelRuleStored tr).encode = Stored.encode ((travelRuleStored tr).take 8) ++
      Stored.encode ((travelRuleStored tr).drop 8) := by
    rw [← Stored.encode_append, List.take_append_drop]
  exact decode_accountData rfl hbytes

inductive OnChainStatus where
  | unknown | initialized
deriving DecidableEq

structure TravelRuleAnswer (K : Type) where
  nonceHash : String
  pda : K
  institutionWallet : K
  usdcAmount : Int
  submittedAt : Int
  onChain : OnChainStatus

/-- The chain, the tables, and the transactions wallets were given to sign. -/
structure TravelRuleWorld (K : Type) where
  chain : State K
  db : TravelRuleDatabase K
  unsigned : List (UnsignedTravelRule K)

section Read

variable [DecidableEq K] [Addresses K] [Deployment K]

/-- `readTravelRule`, or nothing where it throws. -/
def readTravelRule (answered : Bool) (s : State K) (payer : K) (nonceHash : Vector UInt8 32) :
    Option (Record K TravelRuleField) :=
  if answered then
    (s.travelRules (travelRuleKey payer nonceHash)).bind fun tr =>
      OragamiVaultIdl.travelRuleData.decode
        (accountData travelRuleDiscriminator (travelRuleStored tr))
  else none

omit [DecidableEq K] in
theorem readTravelRule_isSome {answered : Bool} {s : State K} {payer : K}
    {nonceHash : Vector UInt8 32} :
    (readTravelRule answered s payer nonceHash).isSome = true ↔
      answered = true ∧ s.travelRules (travelRuleKey payer nonceHash) ≠ none := by
  unfold readTravelRule
  cases answered with
  | false => simp
  | true =>
      cases s.travelRules (travelRuleKey payer nonceHash) with
      | none => simp
      | some tr => simp [decode_travelRule]

/-- Two calls to the outside: for the row, and for the account. -/
def getByNonceHash (executed answered : Bool) (nonceHashHex : String) (w : TravelRuleWorld K) :
    Except (Exception K) (TravelRuleAnswer K) := do
  let row ← queried executed
    (w.db.travelRules.find? fun r => r.nonceHashHex = nonceHashHex.toLower)
  match row with
  | some row => pure {
      nonceHash := row.nonceHashHex
      pda := row.pda
      institutionWallet := row.institution
      usdcAmount := row.usdcAmount
      submittedAt := row.submittedAt
      onChain :=
        if (readTravelRule answered w.chain row.institution row.nonceHash).isSome then .initialized
        else .unknown }
  | none => .error (.notFound "Travel rule not found")

end Read

/-! ## Steps -/

/-- What happens: anything on the chain, anything to the institutions, or a submission. -/
inductive TravelRuleEvent (K : Type) where
  | chain (act : Action K)
  | institutions (table : K → Option (Institution K))
  | submit (net : TravelRuleNetwork) (nonce : Vector UInt8 32) (dto : SubmitTravelRuleDto K)

/-- The announcement an event is, if it is one. -/
def TravelRuleEvent.announced : TravelRuleEvent K → Option (UnsignedTravelRule K)
  | .chain (.program _ (.initTravelRule a p)) => some ⟨a, p⟩
  | _ => none

section Steps

variable [DecidableEq K] [Addresses K] [Deployment K] [Platform K]

/-- The tables before any record, and no cluster state. -/
def TravelRuleWorld.genesis (ledger : Ledger K) : TravelRuleWorld K where
  chain := .genesis ledger
  db := { institutions := fun _ => none, travelRules := [] }
  unsigned := []

/-- The client gets the transaction where the request succeeds. -/
def TravelRuleWorld.submit (net : TravelRuleNetwork) (nonce : Vector UInt8 32)
    (dto : SubmitTravelRuleDto K) (w : TravelRuleWorld K) : TravelRuleWorld K :=
  match Backend.submit net nonce dto w.db with
  | .ok response db => { w with db, unsigned := w.unsigned ++ [response.unsignedTransaction] }
  | .error _ db => { w with db }

variable [TokenProgram K]

inductive TravelRuleStep : TravelRuleWorld K → TravelRuleEvent K → TravelRuleWorld K → Prop
  | chain {w : TravelRuleWorld K} {act : Action K} {s : State K} :
      Step w.chain act s → TravelRuleStep w (.chain act) { w with chain := s }
  | institutions {w : TravelRuleWorld K} {table : K → Option (Institution K)} :
      TravelRuleStep w (.institutions table)
        { w with db := { w.db with institutions := table } }
  | submit {w : TravelRuleWorld K} {net : TravelRuleNetwork} {nonce : Vector UInt8 32}
      {dto : SubmitTravelRuleDto K} : TravelRuleStep w (.submit net nonce dto) (w.submit net nonce dto)

end Steps

abbrev TravelRuleTransition (K : Type) := Transition (TravelRuleWorld K) (TravelRuleEvent K)

/-! ## What a submission comes to -/

/-- A transaction that is to make the record a row is about. -/
structure TravelRuleRow.Orders (row : TravelRuleRow K) (tx : UnsignedTravelRule K) : Prop where
  pda : tx.accounts.travelRuleData = row.pda
  payer : tx.accounts.payer = row.institution
  names : tx.params.originatorName = strToBytes64 row.originatorName ∧
    tx.params.originatorAccount = strToBytes34 row.originatorAccount ∧
    tx.params.beneficiaryName = strToBytes64 row.beneficiaryName
  complianceHash : tx.params.complianceHash = row.complianceHash
  amount : (tx.params.amount.toNat : Int) = row.usdcAmount
  nonceHash : tx.params.nonceHash = row.nonceHash

/-- A record that says what a row says. -/
structure TravelRuleRow.Describes (row : TravelRuleRow K) (tr : TravelRuleData K) : Prop where
  payer : tr.payer = row.institution
  names : tr.originatorName = strToBytes64 row.originatorName ∧
    tr.originatorAccount = strToBytes34 row.originatorAccount ∧
    tr.beneficiaryName = strToBytes64 row.beneficiaryName
  complianceHash : tr.complianceHash = row.complianceHash
  amount : (tr.amount.toNat : Int) = row.usdcAmount

/-- The record an announcement makes. -/
structure UnsignedTravelRule.Makes (tx : UnsignedTravelRule K) (tr : TravelRuleData K) : Prop where
  payer : tr.payer = tx.accounts.payer
  names : tr.originatorName = tx.params.originatorName ∧
    tr.originatorAccount = tx.params.originatorAccount ∧
    tr.beneficiaryName = tx.params.beneficiaryName
  complianceHash : tr.complianceHash = tx.params.complianceHash
  amount : tr.amount = tx.params.amount
  fresh : tr.consumed = false

theorem TravelRuleRow.Orders.describes {row : TravelRuleRow K} {tx : UnsignedTravelRule K}
    {tr : TravelRuleData K} (h : row.Orders tx) (hm : tx.Makes tr) : row.Describes tr where
  payer := hm.payer.trans h.payer
  names := ⟨hm.names.1.trans h.names.1, hm.names.2.1.trans h.names.2.1,
    hm.names.2.2.trans h.names.2.2⟩
  complianceHash := hm.complianceHash.trans h.complianceHash
  amount := hm.amount ▸ h.amount

theorem toU64_eq_some {n : Int} {a : UInt64} : toU64 n = some a ↔ (a.toNat : Int) = n := by
  unfold toU64
  constructor
  · intro h
    split at h
    · next hn =>
        cases h
        have hlt : n.toNat < 2 ^ 64 := by omega
        rw [UInt64.toNat_ofNat_of_lt' hlt]
        omega
    · cases h
  · intro h
    have hlt := a.toNat_lt
    rw [if_pos (by omega), ← h, Int.toNat_natCast, UInt64.ofNat_toNat]

section Submitted

variable [DecidableEq K] [Addresses K] [Deployment K] [Platform K] {net : TravelRuleNetwork}
  {nonce : Vector UInt8 32} {dto : SubmitTravelRuleDto K} {row : TravelRuleRow K}
  {response : TravelRuleResponse K}

omit [DecidableEq K] in
theorem prepareSubmit_spec {db : TravelRuleDatabase K}
    (h : prepareSubmit net nonce dto db = .ok (row, response)) :
    row.pda = travelRuleKey row.institution row.nonceHash ∧
      row.Orders response.unsignedTransaction := by
  simp only [prepareSubmit, bind_eq_ok, orThrow_eq_ok] at h
  obtain ⟨amount, -, h⟩ := h
  split at h
  · cases h
  · simp only [bind_eq_ok, queried_eq_ok] at h
    obtain ⟨institution, -, h⟩ := h
    split at h
    · simp only [bind_eq_ok, orThrow_eq_ok, pure_eq_ok, Prod.mk.injEq] at h
      obtain ⟨bytes, hbytes, height, -, rfl, rfl⟩ := h
      exact ⟨rfl, rfl, rfl, ⟨rfl, rfl, rfl⟩, rfl, toU64_eq_some.mp hbytes, rfl⟩
    · cases h

/-- A request adds a row and a transaction for it, or nothing. -/
theorem TravelRuleWorld.submit_cases (w : TravelRuleWorld K) (net : TravelRuleNetwork)
    (nonce : Vector UInt8 32) (dto : SubmitTravelRuleDto K) : w.submit net nonce dto = w ∨
      ∃ row tx, row.pda = travelRuleKey row.institution row.nonceHash ∧ row.Orders tx ∧
        w.db.Takes row ∧ w.submit net nonce dto =
          { w with
            db := { w.db with travelRules := w.db.travelRules ++ [row] }
            unsigned := w.unsigned ++ [tx] } := by
  unfold TravelRuleWorld.submit Backend.submit
  cases hprepared : prepareSubmit net nonce dto w.db with
  | error e => exact .inl rfl
  | ok prepared =>
      obtain ⟨row, response⟩ := prepared
      obtain ⟨haddress, horders⟩ := prepareSubmit_spec hprepared
      by_cases htakes : net.travelRule = true ∧ w.db.Takes row
      · refine .inr ⟨row, response.unsignedTransaction, haddress, horders, htakes.2, ?_⟩
        simp only [bind, EStateM.bind, createTravelRule, if_pos htakes, pure, EStateM.pure]
      · refine .inl ?_
        simp only [bind, EStateM.bind, createTravelRule, if_neg htakes]

end Submitted

/-! ## What an instruction does to the records -/

section Records

variable [DecidableEq K] [Addresses K] [Deployment K] {now : Int64} {s s' : State K} {c : Call K}
  {ev : Option (Event K)}

/-- A record is made, or a large deposit uses one, or all stay as they are. -/
inductive Ruled (s : State K) : Call K → (K → Option (TravelRuleData K)) → Prop
  | same {c : Call K} : (∀ a p, c ≠ .initTravelRule a p) →
      (∀ a amount, c = .deposit a amount → amount < travelRuleThreshold) →
      Ruled s c s.travelRules
  | make {a : InitTravelRule K} {p : InitializeTravelRuleParams} {tr : TravelRuleData K} :
      s.travelRules a.travelRuleData = none → a.travelRuleData = travelRuleKey a.payer p.nonceHash →
      UnsignedTravelRule.Makes ⟨a, p⟩ tr →
      Ruled s (.initTravelRule a p) (Function.update s.travelRules a.travelRuleData (some tr))
  | use {a : Deposit K} {amount : UInt64} {k : K} {tr : TravelRuleData K} :
      travelRuleThreshold ≤ amount → a.travelRuleData = some k → s.travelRules k = some tr →
      tr.payer = a.payer → tr.amount = amount → tr.consumed = false →
      Ruled s (.deposit a amount)
        (Function.update s.travelRules k (some { tr with consumed := true }))

variable [TokenProgram K]

theorem effect_travelRules (h : Effect now s c s') (hinit : ∀ a p, c ≠ .initTravelRule a p)
    (hdeposit : ∀ a amount, c ≠ .deposit a amount) : s'.travelRules = s.travelRules := by
  cases h with
  | quiet hq => exact hq.travelRules
  | init hi => exact hi.travelRules
  | setNav _ => rfl
  | issue hw _ _ _ _ _ =>
      rw [hw.state]
  | revoke hw _ _ =>
      rw [hw.state]
  | record _ _ _ _ _ _ => exact absurd rfl (hinit _ _)
  | deposit _ => exact absurd rfl (hdeposit _ _)
  | redeem _ => rfl
  | convert _ => rfl
  | rewrap _ _ => rfl
  | payOut _ _ => rfl

theorem exec_ruled (h : c.exec now s = .ok (s', ev)) : Ruled s c s'.travelRules := by
  by_cases hinit : ∃ a p, c = .initTravelRule a p
  · obtain ⟨a, p, rfl⟩ := hinit
    simp only [Call.exec, initTravelRule, bind_eq_ok, seeds_eq_ok, init_eq_ok, require_eq_ok,
      Option.isNone_iff_eq_none, pure_eq_ok, Prod.mk.injEq] at h
    obtain ⟨_, hkey, _, hnone, _, -, rfl, -⟩ := h
    exact .make hnone hkey ⟨rfl, ⟨rfl, rfl, rfl⟩, rfl, rfl, rfl⟩
  · rw [not_exists] at hinit
    have hinit' : ∀ a p, c ≠ .initTravelRule a p := fun a p hc => hinit a ⟨p, hc⟩
    by_cases hdeposit : ∃ a amount, c = .deposit a amount
    · obtain ⟨a, amount, rfl⟩ := hdeposit
      obtain ⟨vs, cred, shares, L, hd⟩ := deposit_spec h
      rcases hd.travelRules with
        ⟨hlt, hrules⟩ | ⟨hle, k, tr, hk, htr, hpayer, hamount, hfresh, hrules⟩
      · rw [hrules]
        refine .same hinit' ?_
        rintro _ _ ⟨⟩
        exact hlt
      · rw [hrules]
        exact .use hle hk htr hpayer hamount hfresh
    · have hdeposit' : ∀ a amount, c ≠ .deposit a amount := by
        intro a amount hc
        exact hdeposit ⟨a, amount, hc⟩
      rw [effect_travelRules (exec_effect h) hinit' hdeposit']
      refine .same hinit' ?_
      intro a amount hc
      exact absurd hc (hdeposit' a amount)

end Records

/-! ## The register -/

section Register

variable [Addresses K] [Deployment K] {wallet : K} {w w' : TravelRuleWorld K}

theorem travelRuleKey_inj {payer payer' : K} {nonceHash nonceHash' : Vector UInt8 32}
    (h : travelRuleKey payer nonceHash = travelRuleKey payer' nonceHash') :
    payer = payer' ∧ nonceHash = nonceHash' := by
  have hseeds := (Addresses.find_inj h).2
  simp only [List.cons.injEq, Seed.key.injEq, Seed.digest.injEq, and_true, true_and] at hseeds
  exact hseeds

/-- The table is about the transactions that were returned, and about the records of `wallet`. -/
structure Register (wallet : K) (w : TravelRuleWorld K) : Prop where
  address : ∀ row ∈ w.db.travelRules, row.pda = travelRuleKey row.institution row.nonceHash
  pdas : (w.db.travelRules.map (·.pda)).Nodup
  nonceHashes : (w.db.travelRules.map (·.nonceHashHex)).Nodup
  ordered : ∀ tx ∈ w.unsigned, ∃ row ∈ w.db.travelRules, row.Orders tx
  located : ∀ k tr, w.chain.travelRules k = some tr →
    ∃ nonceHash, k = travelRuleKey tr.payer nonceHash
  recorded : ∀ k tr, w.chain.travelRules k = some tr → tr.payer = wallet →
    ∃ row ∈ w.db.travelRules, row.pda = k ∧ row.Describes tr

theorem register_genesis (wallet : K) (ledger : Ledger K) :
    Register wallet (TravelRuleWorld.genesis ledger) where
  address := by
    intro row hrow
    cases hrow
  pdas := List.nodup_nil
  nonceHashes := List.nodup_nil
  ordered := by
    intro tx htx
    cases htx
  located := by
    intro k tr htr
    cases htr
  recorded := by
    intro k tr htr
    cases htr

/-- What the chain does to the records keeps the register, if the wallet signs what it was
given. -/
theorem Register.ruled [DecidableEq K] (h : Register wallet w) {c : Call K} {s : State K}
    (hr : Ruled w.chain c s.travelRules)
    (hsigned : ∀ a p, c = .initTravelRule a p → a.payer = wallet → ⟨a, p⟩ ∈ w.unsigned) :
    Register wallet { w with chain := s } := by
  -- a record that is there says what one says that was there, or that was ordered
  have horigin : ∀ k tr, s.travelRules k = some tr →
      (∃ old : TravelRuleData K, w.chain.travelRules k = some old ∧ old.payer = tr.payer ∧
        ∀ row : TravelRuleRow K, row.Describes old → row.Describes tr) ∨
      ∃ a p, c = .initTravelRule a p ∧ k = a.travelRuleData ∧
        a.travelRuleData = travelRuleKey a.payer p.nonceHash ∧ UnsignedTravelRule.Makes ⟨a, p⟩ tr := by
    intro k tr htr
    generalize hrules : s.travelRules = rules at hr htr
    cases hr with
    | same _ _ => exact .inl ⟨tr, htr, rfl, fun _ hd => hd⟩
    | @make a p made _ hkey hmakes =>
        by_cases hk : k = a.travelRuleData
        · rw [hk, Function.update_self] at htr
          cases htr
          exact .inr ⟨a, p, rfl, hk, hkey, hmakes⟩
        · rw [Function.update_of_ne hk] at htr
          exact .inl ⟨tr, htr, rfl, fun _ hd => hd⟩
    | @use a amount j old _ _ hold _ _ _ =>
        by_cases hk : k = j
        · rw [hk, Function.update_self] at htr
          cases htr
          refine .inl ⟨old, hk ▸ hold, rfl, ?_⟩
          intro row hd
          exact ⟨hd.payer, hd.names, hd.complianceHash, hd.amount⟩
        · rw [Function.update_of_ne hk] at htr
          exact .inl ⟨tr, htr, rfl, fun _ hd => hd⟩
  refine ⟨h.address, h.pdas, h.nonceHashes, h.ordered, ?_, ?_⟩
  · intro k tr htr
    rcases horigin k tr htr with ⟨old, hold, hpayer, -⟩ | ⟨a, p, -, hk, hkey, hmakes⟩
    · rw [← hpayer]
      exact h.located k old hold
    · rw [hk, hkey, hmakes.payer]
      exact ⟨_, rfl⟩
  · intro k tr htr hwallet
    rcases horigin k tr htr with ⟨old, hold, hpayer, hsame⟩ | ⟨a, p, hc, hk, -, hmakes⟩
    · obtain ⟨row, hrow, hpda, hd⟩ := h.recorded k old hold (hpayer.trans hwallet)
      exact ⟨row, hrow, hpda, hsame row hd⟩
    · have hpayer : a.payer = wallet := hmakes.payer.symm.trans hwallet
      obtain ⟨row, hrow, horders⟩ := h.ordered _ (hsigned a p hc hpayer)
      exact ⟨row, hrow, horders.pda.symm.trans hk.symm, horders.describes hmakes⟩

theorem Register.row (h : Register wallet w) {row : TravelRuleRow K} {tx : UnsignedTravelRule K}
    (haddress : row.pda = travelRuleKey row.institution row.nonceHash) (horders : row.Orders tx)
    (htakes : w.db.Takes row) :
    Register wallet { w with
      db := { w.db with travelRules := w.db.travelRules ++ [row] }
      unsigned := w.unsigned ++ [tx] } where
  address := by
    intro r hr
    rcases List.mem_append.mp hr with hold | hnew
    · exact h.address r hold
    · rw [List.mem_singleton.mp hnew]
      exact haddress
  pdas := nodup_snoc h.pdas fun r hr => (htakes.2 r hr).1
  nonceHashes := nodup_snoc h.nonceHashes fun r hr => (htakes.2 r hr).2
  ordered := by
    intro t ht
    rcases List.mem_append.mp ht with hold | hnew
    · obtain ⟨r, hr, ho⟩ := h.ordered t hold
      exact ⟨r, List.mem_append_left _ hr, ho⟩
    · rw [List.mem_singleton.mp hnew]
      exact ⟨row, List.mem_append_right _ (List.mem_singleton_self row), horders⟩
  located := h.located
  recorded := by
    intro k tr htr hwallet
    obtain ⟨r, hr, hpda, hd⟩ := h.recorded k tr htr hwallet
    exact ⟨r, List.mem_append_left _ hr, hpda, hd⟩

end Register

section Keep

variable [DecidableEq K] [Addresses K] [Deployment K] [Platform K] [TokenProgram K] {wallet : K}
  {ledger : Ledger K} {ts : List (TravelRuleTransition K)} {w w' : TravelRuleWorld K}

/-- Of the announcements, `wallet` signs those it was given. -/
def SignsOnly (wallet : K) (t : TravelRuleTransition K) : Prop :=
  ∀ tx ∈ t.label.announced, tx.accounts.payer = wallet → tx ∈ t.pre.unsigned

instance (wallet : K) (t : TravelRuleTransition K) : Decidable (SignsOnly wallet t) :=
  inferInstanceAs (Decidable (∀ tx ∈ t.label.announced, _))

theorem TravelRuleStep.register {e : TravelRuleEvent K} (h : Register wallet w)
    (hs : TravelRuleStep w e w') (hsigned : SignsOnly wallet ⟨w, e, w'⟩) : Register wallet w' := by
  cases hs with
  | @chain act s hstep =>
      cases hstep with
      | @program _ now c ev _ hexec =>
          refine h.ruled (exec_ruled hexec) ?_
          rintro a p rfl
          exact hsigned ⟨a, p⟩ rfl
      | token _ _ => exact ⟨h.address, h.pdas, h.nonceHashes, h.ordered, h.located, h.recorded⟩
  | institutions => exact ⟨h.address, h.pdas, h.nonceHashes, h.ordered, h.located, h.recorded⟩
  | @submit net nonce dto =>
      rcases w.submit_cases net nonce dto with
        heq | ⟨row, tx, haddress, horders, htakes, heq⟩
      · rw [heq]
        exact h
      · rw [heq]
        exact h.row haddress horders htakes

theorem run_register (h : Run TravelRuleStep (.genesis ledger) ts w)
    (hsigned : ∀ t ∈ ts, SignsOnly wallet t) :
    Register wallet w ∧ ∀ t ∈ ts, Register wallet t.pre ∧ Register wallet t.post :=
  h.kept (register_genesis wallet ledger) TravelRuleStep.register hsigned

end Keep

/-! ## Rows as tickets -/

section Tickets

variable [DecidableEq K] [Addresses K] [Deployment K] {wallet : K} {w : TravelRuleWorld K} {k : K}

/-- A large deposit of `wallet`, with what it passed for the record. -/
def DepositsWith (wallet : K) (t : TravelRuleTransition K) (travelRuleData : Option K) (n : Int) :
    Prop :=
  ∃ now a, ∃ amount : UInt64, t.label = .chain (.program now (.deposit a amount)) ∧
    a.payer = wallet ∧ travelRuleThreshold ≤ amount ∧ n = amount.toNat ∧
    a.travelRuleData = travelRuleData

/-- A large deposit of `wallet`. -/
def DepositsLarge (wallet : K) (t : TravelRuleTransition K) (n : Int) : Prop :=
  ∃ travelRuleData, DepositsWith wallet t travelRuleData n

/-- A row is written for a deposit of `wallet`, with its record to be at `k`. -/
def Registers (wallet : K) (t : TravelRuleTransition K) (k : K) (n : Int) : Prop :=
  ∃ row, t.post.db.travelRules = t.pre.db.travelRules ++ [row] ∧ row.pda = k ∧
    row.institution = wallet ∧ row.usdcAmount = n

def TravelRuleWorld.consumed (w : TravelRuleWorld K) (k : K) : Bool :=
  (w.chain.travelRules k).any (·.consumed)

/-- The row of `wallet` with its record at `k`. -/
def TravelRuleWorld.rowAt (w : TravelRuleWorld K) (wallet k : K) : Option (TravelRuleRow K) :=
  w.db.travelRules.find? fun r => r.pda = k ∧ r.institution = wallet

/-- The row as a ticket, used once its record is consumed. -/
def TravelRuleWorld.ticketAt (w : TravelRuleWorld K) (wallet k : K) : Option (Int × Bool) :=
  (w.rowAt wallet k).map fun row => (row.usdcAmount, w.consumed k)

theorem Register.rowAt_eq (h : Register wallet w) {row : TravelRuleRow K}
    (hrow : row ∈ w.db.travelRules) (hwallet : row.institution = wallet) :
    w.rowAt wallet row.pda = some row := by
  have hsome : (w.rowAt wallet row.pda).isSome = true := by
    rw [TravelRuleWorld.rowAt, List.find?_isSome]
    exact ⟨row, hrow, by simp [hwallet]⟩
  obtain ⟨found, hfound⟩ := Option.isSome_iff_exists.mp hsome
  have hmem : found ∈ w.db.travelRules := List.mem_of_find?_eq_some hfound
  have hpda := List.find?_some hfound
  simp only [Bool.decide_and, Bool.and_eq_true, decide_eq_true_eq] at hpda
  rw [hfound, List.inj_on_of_nodup_map h.pdas hmem hrow hpda.1]

/-- Nothing is consumed at the address of a row before there is one. -/
theorem Register.not_consumed (h : Register wallet w) {row : TravelRuleRow K}
    (haddress : row.pda = travelRuleKey row.institution row.nonceHash)
    (htakes : w.db.Takes row) (hwallet : row.institution = wallet) :
    w.rowAt wallet row.pda = none ∧ w.consumed row.pda = false := by
  constructor
  · refine List.find?_eq_none.mpr ?_
    intro r hr
    simp [(htakes.2 r hr).1]
  · unfold TravelRuleWorld.consumed
    cases htr : w.chain.travelRules row.pda with
    | none => rfl
    | some tr =>
        obtain ⟨nonceHash, hkey⟩ := h.located _ _ htr
        have hpayer : tr.payer = wallet := by
          rw [haddress] at hkey
          exact (travelRuleKey_inj hkey).1.symm.trans hwallet
        obtain ⟨r, hr, hpda, -⟩ := h.recorded _ _ htr hpayer
        exact absurd hpda (htakes.2 r hr).1

/-- A record of `wallet`'s is used: so is its row. -/
theorem Register.use (h : Register wallet w) {s : State K} {tr : TravelRuleData K}
    (htr : w.chain.travelRules k = some tr) (hpayer : tr.payer = wallet)
    (hfresh : tr.consumed = false)
    (hrules : s.travelRules =
      Function.update w.chain.travelRules k (some { tr with consumed := true })) :
    w.ticketAt wallet k = some ((tr.amount.toNat : Int), false) ∧
      ({ w with chain := s } : TravelRuleWorld K).ticketAt wallet =
        Function.update (w.ticketAt wallet) k (some ((tr.amount.toNat : Int), true)) := by
  obtain ⟨row, hrow, hpda, hd⟩ := h.recorded k tr htr hpayer
  have hrowAt : w.rowAt wallet k = some row := by
    rw [← hpda]
    exact h.rowAt_eq hrow (hd.payer.symm.trans hpayer)
  constructor
  · rw [TravelRuleWorld.ticketAt, hrowAt, Option.map_some, TravelRuleWorld.consumed, htr, hd.amount,
      Option.any_some, hfresh]
  · funext j
    by_cases hj : j = k
    · rw [hj, Function.update_self]
      show (w.rowAt wallet k).map _ = _
      rw [hrowAt, Option.map_some, TravelRuleWorld.consumed, hrules, Function.update_self, hd.amount]
      rfl
    · rw [Function.update_of_ne hj]
      show (w.rowAt wallet j).map _ = (w.rowAt wallet j).map _
      simp only [TravelRuleWorld.consumed, hrules, Function.update_of_ne hj]

/-- Another wallet's record has no row of `wallet`'s. -/
theorem Register.rowAt_none (h : Register wallet w) {tr : TravelRuleData K}
    (htr : w.chain.travelRules k = some tr) (hpayer : tr.payer ≠ wallet) :
    w.rowAt wallet k = none := by
  refine List.find?_eq_none.mpr ?_
  intro r hr hfound
  simp only [Bool.decide_and, Bool.and_eq_true, decide_eq_true_eq] at hfound
  obtain ⟨nonceHash, hkey⟩ := h.located k tr htr
  rw [← hfound.1, h.address r hr, hfound.2] at hkey
  exact hpayer (travelRuleKey_inj hkey).1.symm

theorem Register.ruled_change (h : Register wallet w) {now : Int64} {c : Call K} {s : State K}
    (hr : Ruled w.chain c s.travelRules) :
    Change (Registers wallet ⟨w, .chain (.program now c), { w with chain := s }⟩)
      (fun k => DepositsWith wallet ⟨w, .chain (.program now c), { w with chain := s }⟩ (some k))
      (w.ticketAt wallet) (({ w with chain := s } : TravelRuleWorld K).ticketAt wallet) := by
  generalize hrules : s.travelRules = rules at hr
  -- tickets change where a record of one of the rows is consumed
  have hsame : (∀ j, w.rowAt wallet j ≠ none → (rules j).any (·.consumed) = w.consumed j) →
      ({ w with chain := s } : TravelRuleWorld K).ticketAt wallet = w.ticketAt wallet := by
    intro hconsumed
    funext j
    show (w.rowAt wallet j).map _ = (w.rowAt wallet j).map _
    cases hrow : w.rowAt wallet j with
    | none => rfl
    | some row =>
        have hj := hconsumed j (by rw [hrow]; exact Option.some_ne_none row)
        simp only [Option.map_some, TravelRuleWorld.consumed, hrules]
        rw [hj, TravelRuleWorld.consumed]
  cases hr with
  | same _ _ => exact .same (hsame fun _ _ => rfl)
  | @make a p tr hnone _ hmakes =>
      refine .same (hsame ?_)
      intro j _
      by_cases hj : j = a.travelRuleData
      · rw [TravelRuleWorld.consumed, hj, Function.update_self, hnone, Option.any_some, hmakes.fresh]
        rfl
      · rw [TravelRuleWorld.consumed, Function.update_of_ne hj]
  | @use a amount j tr hle hj htr hpayer hamount hfresh =>
      by_cases hwallet : a.payer = wallet
      · obtain ⟨hticket, hpost⟩ := h.use htr (hpayer.trans hwallet) hfresh hrules
        refine .use (k := j) (p := (tr.amount.toNat : Int)) ?_ hticket hpost
        exact ⟨now, a, amount, rfl, hwallet, hle, by rw [hamount], hj⟩
      · refine .same (hsame ?_)
        intro i hrow
        have hi : i ≠ j := by
          rintro rfl
          exact hrow (h.rowAt_none htr fun heq => hwallet (hpayer.symm.trans heq))
        rw [TravelRuleWorld.consumed, Function.update_of_ne hi]

/-- A new row of `wallet` is a new ticket. -/
theorem Register.issue (h : Register wallet w) {row : TravelRuleRow K}
    (tx : UnsignedTravelRule K) (haddress : row.pda = travelRuleKey row.institution row.nonceHash)
    (htakes : w.db.Takes row) :
    Change (fun k n => row.pda = k ∧ row.institution = wallet ∧ row.usdcAmount = n)
      (fun (_ : K) (_ : Int) => False) (w.ticketAt wallet)
      (({ w with
        db := { w.db with travelRules := w.db.travelRules ++ [row] }
        unsigned := w.unsigned ++ [tx] } : TravelRuleWorld K).ticketAt wallet) := by
  have hticket : ∀ j, ({ w with
      db := { w.db with travelRules := w.db.travelRules ++ [row] }
      unsigned := w.unsigned ++ [tx] } : TravelRuleWorld K).ticketAt wallet j =
      ((w.rowAt wallet j).or (if row.pda = j ∧ row.institution = wallet then some row else none)).map
        fun row => (row.usdcAmount, w.consumed j) := by
    intro j
    simp only [TravelRuleWorld.ticketAt, TravelRuleWorld.rowAt, List.find?_append,
      List.find?_singleton, decide_eq_true_eq]
    rfl
  by_cases hwallet : row.institution = wallet
  · obtain ⟨hnone, hconsumed⟩ := h.not_consumed haddress htakes hwallet
    refine .issue (k := row.pda) (p := row.usdcAmount) ⟨rfl, hwallet, rfl⟩ ?_ ?_
    · rw [TravelRuleWorld.ticketAt, hnone, Option.map_none]
    · funext j
      rw [hticket]
      by_cases hj : j = row.pda
      · rw [hj, hnone, if_pos ⟨rfl, hwallet⟩, Function.update_self, hconsumed]
        rfl
      · rw [if_neg fun hrow => hj hrow.1.symm, Option.or_none, Function.update_of_ne hj]
        rfl
  · refine .same ?_
    funext j
    rw [hticket, if_neg fun hrow => hwallet hrow.2, Option.or_none]
    rfl

variable [Platform K] [TokenProgram K]

/-- The rows of `wallet` as tickets, where the register is kept. -/
def rowTickets (wallet : K) :
    Tickets (fun (w : TravelRuleWorld K) e w' => Register wallet w ∧ TravelRuleStep w e w') K Int where
  store w := w.ticketAt wallet
  Issues := Registers wallet
  Uses t k := DepositsWith wallet t (some k)
  issues_unique := by
    rintro t k k' n n' ⟨row, hrows, rfl, -⟩ ⟨row', hrows', rfl, -⟩
    rw [hrows] at hrows'
    rw [List.singleton_inj.mp (List.append_cancel_left hrows')]
  uses_unique := by
    rintro t k k' n n' ⟨_, _, _, hl, -, -, -, hk⟩ ⟨_, _, _, hl', -, -, -, hk'⟩
    cases hl.symm.trans hl'
    exact Option.some.inj (hk.symm.trans hk')
  change := by
    rintro ⟨w, e, w'⟩ ⟨h, hs⟩
    simp only at h hs ⊢
    cases hs with
    | @chain act s hstep =>
        cases hstep with
        | program _ hexec => exact h.ruled_change (exec_ruled hexec)
        | token _ _ => exact .same rfl
    | institutions => exact .same rfl
    | @submit net nonce dto =>
        rcases w.submit_cases net nonce dto with
          heq | ⟨row, tx, haddress, -, htakes, heq⟩
        · rw [heq]
          exact .same rfl
        · rw [heq]
          cases h.issue tx haddress htakes with
          | same hm => exact .same hm
          | issue hi hnone hm => exact .issue ⟨row, rfl, hi.1, hi.2.1, hi.2.2⟩ hnone hm
          | use hfalse _ _ => exact hfalse.elim
  use := by
    rintro ⟨w, e, w'⟩ k n ⟨h, hs⟩ ⟨now, a, amount, hlabel, hwallet, hle, hn, hk⟩
    simp only at h hs hlabel ⊢
    subst hlabel
    cases hs with
    | @chain act s hstep =>
        cases hstep with
        | @program _ _ _ ev _ hexec =>
            have hruled := exec_ruled hexec
            generalize hrules : s.travelRules = rules at hruled
            cases hruled with
            | same _ hsmall => exact absurd hle (UInt64.not_le.mpr (hsmall a amount rfl))
            | @use _ _ j tr _ hj htr hpayer hamount hfresh =>
                cases hk.symm.trans hj
                obtain ⟨hticket, hpost⟩ := h.use htr (hpayer.trans hwallet) hfresh hrules
                rw [hn, ← hamount]
                refine ⟨hticket, ?_⟩
                rw [hpost, Function.update_self]

end Tickets

/-! ## What the table shows -/

section Results

variable [DecidableEq K] [Addresses K] [Deployment K] [Platform K] [TokenProgram K] {wallet : K}
  {ledger : Ledger K} {ts : List (TravelRuleTransition K)} {w w' : TravelRuleWorld K}

/-- The record at `k` is made. -/
def MakesRecord (t : TravelRuleTransition K) (k : K) : Prop :=
  ∃ tx ∈ t.label.announced, tx.accounts.travelRuleData = k

/-- A record is there once it is made. -/
theorem TravelRuleStep.record_iff {e : TravelRuleEvent K} (hs : TravelRuleStep w e w') (k : K) :
    w'.chain.travelRules k ≠ none ↔
      w.chain.travelRules k ≠ none ∨ MakesRecord ⟨w, e, w'⟩ k := by
  have hother : w'.chain.travelRules = w.chain.travelRules → ¬ MakesRecord ⟨w, e, w'⟩ k →
      (w'.chain.travelRules k ≠ none ↔ w.chain.travelRules k ≠ none ∨ MakesRecord ⟨w, e, w'⟩ k) := by
    intro hrules hnot
    rw [hrules, or_iff_left hnot]
  have hnever : e.announced = none → ¬ MakesRecord ⟨w, e, w'⟩ k := by
    rintro hnone ⟨tx, htx, -⟩
    cases hnone.symm.trans htx
  cases hs with
  | institutions => exact hother rfl (hnever rfl)
  | @submit net nonce dto =>
      refine hother ?_ (hnever rfl)
      rcases w.submit_cases net nonce dto with heq | ⟨_, _, _, _, _, heq⟩
      · rw [heq]
      · rw [heq]
  | @chain act s hstep =>
      cases hstep with
      | token _ _ => exact hother rfl (hnever rfl)
      | @program _ now c ev _ hexec =>
          have hruled := exec_ruled hexec
          generalize hrules : s.travelRules = rules at hruled
          cases hruled with
          | same hinit _ =>
              refine (or_iff_left (hnever ?_)).symm
              cases c with
              | initTravelRule a p => exact absurd rfl (hinit a p)
              | _ => rfl
          | @make a p tr hnone _ _ =>
              by_cases hk : k = a.travelRuleData
              · rw [hk, Function.update_self]
                exact iff_of_true (Option.some_ne_none tr) (.inr ⟨⟨a, p⟩, rfl, rfl⟩)
              · rw [Function.update_of_ne hk, or_iff_left]
                rintro ⟨_, ⟨⟩, hat⟩
                exact hk hat.symm
          | @use a amount j tr _ _ htr _ _ _ =>
              rw [or_iff_left (hnever rfl)]
              by_cases hk : k = j
              · rw [hk, Function.update_self, htr]
                simp
              · rw [Function.update_of_ne hk]

theorem run_record_iff (h : Run TravelRuleStep (.genesis ledger) ts w) (k : K) :
    w.chain.travelRules k ≠ none ↔ ∃ t ∈ ts, MakesRecord t k := by
  induction h with
  | nil => simp [TravelRuleWorld.genesis, State.genesis]
  | snoc _ hs ih =>
      rw [hs.record_iff k, ih]
      simp only [List.mem_append, List.mem_singleton, or_and_right, exists_or, exists_eq_left]

omit [DecidableEq K] [Platform K] [TokenProgram K] in
/-- A row is found by its hash, and shows whether its record was made, if the account can be
asked for. -/
theorem Register.found (h : Register wallet w) {row : TravelRuleRow K}
    (hrow : row ∈ w.db.travelRules) {nonceHashHex : String}
    (htext : nonceHashHex.toLower = row.nonceHashHex) (answered : Bool) :
    ∃ answer, getByNonceHash true answered nonceHashHex w = .ok answer ∧ answer.pda = row.pda ∧
      answer.institutionWallet = row.institution ∧ answer.usdcAmount = row.usdcAmount ∧
      (answer.onChain = .initialized ↔
        answered = true ∧ w.chain.travelRules row.pda ≠ none) := by
  have hsome : (w.db.travelRules.find? fun r => r.nonceHashHex = nonceHashHex.toLower).isSome =
      true := by
    rw [List.find?_isSome]
    exact ⟨row, hrow, by simp [htext]⟩
  obtain ⟨found, hfound⟩ := Option.isSome_iff_exists.mp hsome
  have hhash := List.find?_some hfound
  rw [decide_eq_true_eq, htext] at hhash
  cases List.inj_on_of_nodup_map h.nonceHashes (List.mem_of_find?_eq_some hfound) hrow hhash
  unfold getByNonceHash
  rw [hfound]
  refine ⟨_, rfl, rfl, rfl, rfl, ?_⟩
  rw [h.address row hrow, ← readTravelRule_isSome]
  simp only
  split <;> simp_all

/-- A large deposit passes a record. -/
theorem DepositsLarge.passes {e : TravelRuleEvent K} {n : Int}
    (h : DepositsLarge wallet ⟨w, e, w'⟩ n) (hs : TravelRuleStep w e w') :
    ∃ k, DepositsWith wallet ⟨w, e, w'⟩ (some k) n := by
  obtain ⟨o, now, a, amount, hlabel, hwallet, hle, hn, ho⟩ := h
  have hpassed : ∃ k, a.travelRuleData = some k := by
    simp only at hlabel
    subst hlabel
    cases hs with
    | @chain act s hstep =>
        cases hstep with
        | program _ hexec =>
            have hruled := exec_ruled hexec
            generalize s.travelRules = rules at hruled
            cases hruled with
            | same _ hsmall => exact absurd hle (UInt64.not_le.mpr (hsmall a amount rfl))
            | use _ hk _ _ _ _ => exact ⟨_, hk⟩
  obtain ⟨k, hk⟩ := hpassed
  exact ⟨k, now, a, amount, hlabel, hwallet, hle, hn, hk⟩

/-- For a wallet that signs no announcement but those the backend gave it, the table is the
register of its large deposits.  Each of them is matched to an earlier row of its own, of the wallet
and the amount.  Each record of the wallet has a row of the same amount and hash, whose names are
those of the record as the fields of the record can hold them.  And any row, found by its hash,
shows whether its record was made, or does not know where the account cannot be read. -/
theorem travel_rule_registered (h : Run TravelRuleStep (.genesis ledger) ts w)
    (hsigned : ∀ t ∈ ts, SignsOnly wallet t) :
    Matched ts (DepositsLarge wallet) (fun t n => ∃ k, Registers wallet t k n) ∧
      (∀ k tr, w.chain.travelRules k = some tr → tr.payer = wallet →
        ∃ row ∈ w.db.travelRules, row.pda = k ∧ row.Describes tr) ∧
      ∀ row ∈ w.db.travelRules, ∀ nonceHashHex : String, nonceHashHex.toLower = row.nonceHashHex →
        ∀ answered, ∃ answer, getByNonceHash true answered nonceHashHex w = .ok answer ∧
          answer.pda = row.pda ∧ answer.institutionWallet = row.institution ∧
          answer.usdcAmount = row.usdcAmount ∧
          (answer.onChain = .initialized ↔
            answered = true ∧ ∃ t ∈ ts, MakesRecord t row.pda) := by
  obtain ⟨hregister, hall⟩ := run_register h hsigned
  refine ⟨?_, hregister.recorded, ?_⟩
  · have hrestricted := h.restrict (I := Register wallet) fun t ht => (hall t ht).1
    have hmatched := (rowTickets wallet).matched (fun k => rfl) hrestricted
    refine hmatched.mono ?_ fun _ _ hi => hi
    intro t ht n hlarge
    exact hlarge.passes (h.of_mem ht).2
  · intro row hrow nonceHashHex htext answered
    obtain ⟨answer, hanswer, hpda, hinstitution, hamount, hstatus⟩ :=
      hregister.found hrow htext answered
    rw [run_record_iff h row.pda] at hstatus
    exact ⟨answer, hanswer, hpda, hinstitution, hamount, hstatus⟩

end Results

/-! ## A large deposit -/

section Play

variable [DecidableEq K] [Addresses K] [Deployment K] [Platform K] [TokenProgram K]

def TravelRuleEvent.apply (w : TravelRuleWorld K) : TravelRuleEvent K → Option (TravelRuleWorld K)
  | .chain act => (act.apply w.chain).map fun s => { w with chain := s }
  | .institutions table => some { w with db := { w.db with institutions := table } }
  | .submit net nonce dto => some (w.submit net nonce dto)

/-- Nobody signs for an address of the program. -/
def TravelRuleEvent.Signed (e : TravelRuleEvent K) : Prop :=
  ∀ act, e = .chain act → ∀ k ∈ act.signer, ¬ Owned k

theorem TravelRuleStep.of_apply {w w' : TravelRuleWorld K} {e : TravelRuleEvent K}
    (h : e.apply w = some w') (hsigned : e.Signed) : TravelRuleStep w e w' := by
  cases e with
  | chain act =>
      obtain ⟨s, hs, rfl⟩ := Option.map_eq_some_iff.mp h
      exact .chain (.of_apply hs (hsigned act rfl))
  | institutions table =>
      cases h
      exact .institutions
  | submit net nonce dto =>
      cases h
      exact .submit

end Play

namespace Cluster

open OragamiVault.Cluster

def aliceInstitution : Institution FreeKey where
  walletAddress := alice
  name := "Alice"
  jurisdiction := "CH"
  tier := 1
  kycLevel := 1
  amlScore := 10
  credentialPda := none
  credentialStatus := "active"
  credentialIssuedAt := none
  credentialExpiresAt := none
  attestationHash := none

theorem originator_fits : utf16Length "Alice".toList ≤ 64 := by decide

theorem account_fits : utf16Length "CH9300762011623852957".toList ≤ 34 := by decide

theorem beneficiary_fits : utf16Length "Oragami".toList ≤ 64 := by decide

/-- A deposit of 2000 USDC. -/
def announcement : SubmitTravelRuleDto FreeKey where
  wallet := some alice
  usdcAmount := "2000000000"
  amount := some 2000000000
  originatorName := "Alice"
  originatorAccount := "CH9300762011623852957"
  beneficiaryName := "Oragami"
  originatorName_le := originator_fits
  originatorAccount_le := account_fits
  beneficiaryName_le := beneficiary_fits

def drawn : Vector UInt8 32 := .replicate 32 7

/-- What Alice is given. -/
def announced : UnsignedTravelRule FreeKey := unsignedTravelRule drawn announcement alice 2000000000

def largeDeposit : Action FreeKey :=
  .program 0 (.deposit
    { vaultState := vaultStateKey, cvaultMint := cvaultMintKey, vaultTokenAccount := vaultTokenKey,
      payerDepositAccount := aliceUsdc, payerCvaultAccount := aliceCvault,
      investorCredential := credentialKey alice,
      travelRuleData := some announced.accounts.travelRuleData, payer := alice,
      tokenProgram := TokenProgram.id } 2000000000)

def registered : List (TravelRuleEvent FreeKey) :=
  [.chain opening, .chain credential, .chain openCvault,
    .institutions fun k => if k = alice then some aliceInstitution else none,
    .submit ⟨true, some 300000000, true, 0⟩ drawn announcement,
    .chain (.program 0 (.initTravelRule announced.accounts announced.params)), .chain largeDeposit]

/-- The ledger of oragami-vault with enough USDC for it. -/
def registering : TravelRuleWorld FreeKey := .genesis Chain.Cluster.ledger

theorem registered_run : Run TravelRuleStep registering
    (play TravelRuleEvent.apply registering registered)
    (final TravelRuleEvent.apply registering registered) := by
  refine play_run (P := TravelRuleEvent.Signed) TravelRuleStep.of_apply ?_ registering
  intro e he
  simp only [registered, List.mem_cons, List.not_mem_nil, or_false] at he
  rcases he with rfl | rfl | rfl | rfl | rfl | rfl | rfl <;> rintro _ ⟨⟩ _ ⟨⟩ <;>
    exact FreeKey.not_derivedBy_num

end Cluster

/-- Alice asks for a record, signs what she gets and deposits. -/
theorem travel_rule_registered_deposit :
    (∃ t ∈ play TravelRuleEvent.apply Cluster.registering Cluster.registered,
      DepositsLarge OragamiVault.Cluster.alice t 2000000000) ∧
    Matched (play TravelRuleEvent.apply Cluster.registering Cluster.registered)
      (DepositsLarge OragamiVault.Cluster.alice)
      (fun t n => ∃ k, Registers OragamiVault.Cluster.alice t k n) := by
  obtain ⟨t, ht, hlabel⟩ : ∃ t ∈ play TravelRuleEvent.apply Cluster.registering Cluster.registered,
      t.label = .chain Cluster.largeDeposit := by
    have hlast : (play TravelRuleEvent.apply Cluster.registering Cluster.registered)[6]?.map
        (·.label) = some (.chain Cluster.largeDeposit) := rfl
    obtain ⟨t, ht, hlabel⟩ := Option.map_eq_some_iff.mp hlast
    exact ⟨t, List.mem_of_getElem? ht, hlabel⟩
  refine ⟨⟨t, ht, _, 0, _, 2000000000, hlabel, rfl, by decide, rfl, rfl⟩, ?_⟩
  exact (travel_rule_registered Cluster.registered_run (by decide +kernel)).1

end Backend
