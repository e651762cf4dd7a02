/-
# `Oragami.TransferHook.Entry` — which code a transfer reaches

The entry point picks a handler by the first eight bytes of the instruction data,
a prefix of a hash of the handler's name; the hash is a parameter (`Sighash`).
Accounts arrive by position, each with flags that say whether it signed and
whether it may be written; an optional account is left out by passing the
program's own id in its place.

Token-2022 calls the hook with data that begins with the discriminator of the
interface's Execute instruction.  It is the hash of another name than any
handler's, so the dispatcher finds no handler for it and the data goes to
`fallback`, which allows everything (`entry_execute`).

The handler `transferHook` does enforce the whitelist (`transferHook_enforces`);
it is not the code a transfer reaches.  What a transfer the program lets through
has been checked for is therefore what happens to hold of it
(`execute_enforced_iff`).
-/
import Oragami.TransferHook.Program

namespace TransferHook

open Anchor Addresses

/-! ## Dispatch -/

/-- The first eight bytes of the hash of a name. -/
abbrev Sighash := String → Vector UInt8 8

inductive Handler where
  | initializeCompliance
  | initializeExtraAccountMetas
  | addToWhitelist
  | removeFromWhitelist
  | updateWhitelist
  | updateCompliance
  | transferHook
deriving DecidableEq

namespace Handler

def all : List Handler :=
  [initializeCompliance, initializeExtraAccountMetas, addToWhitelist, removeFromWhitelist,
    updateWhitelist, updateCompliance, transferHook]

def name : Handler → String
  | initializeCompliance => "initialize_compliance"
  | initializeExtraAccountMetas => "initialize_extra_account_metas"
  | addToWhitelist => "add_to_whitelist"
  | removeFromWhitelist => "remove_from_whitelist"
  | updateWhitelist => "update_whitelist"
  | updateCompliance => "update_compliance"
  | transferHook => "transfer_hook"

def discriminator (hash : Sighash) (h : Handler) : Vector UInt8 8 := hash ("global:" ++ h.name)

end Handler

section Layouts

variable {K : Type}

instance : Borsh K (InitializeComplianceParams K) :=
  Borsh.via (fun p => (p.authority, p.complianceOracle)) (fun (a, o) => ⟨a, o⟩) fun _ => rfl

instance : Borsh K AddWhitelistParams :=
  Borsh.via (fun p => (p.kycCompliant, p.amlClear, p.travelRuleCompliant, p.expiryDays))
    (fun (k, a, t, d) => ⟨k, a, t, d⟩) fun _ => rfl

instance : Borsh K UpdateWhitelistParams :=
  Borsh.via (fun p => (p.kycCompliant, p.amlClear, p.travelRuleCompliant, p.extendExpiryDays))
    (fun (k, a, t, d) => ⟨k, a, t, d⟩) fun _ => rfl

instance : Borsh K (UpdateComplianceParams K) :=
  Borsh.via (fun p => (p.allowTransfers, p.minKycLevel, p.complianceOracle))
    (fun (t, l, o) => ⟨t, l, o⟩) fun _ => rfl

end Layouts

variable {K : Type} [DecidableEq K] [Addresses K] [Deployment K]

/-- An account of a call, whether it signed, and whether the call may write it. -/
structure AccountInfo (K : Type) where
  key : K
  isSigner : Bool
  isWritable : Bool

namespace AccountInfo

/-- `Signer`. -/
def signed (a : AccountInfo K) : Hx K := do
  ensure a.isSigner (.anchor .accountNotSigner)
  pure a.key

/-- `mut`, which `init` implies. -/
def mutable (a : AccountInfo K) : Hx K := do
  ensure a.isWritable (.anchor .constraintMut)
  pure a.key

/-- A `Signer` that is `mut`: it pays for what is created. -/
def payer (a : AccountInfo K) : Hx K := do
  let _ ← a.signed
  a.mutable

/-- `Program<'info, System>`.  The key of the system program is all zeros. -/
def systemProgram (a : AccountInfo K) : Hx Unit :=
  ensure (a.key = Addresses.default) (.anchor .invalidProgramId)

/-- An optional account: left out when the program's own id stands in its place. -/
def optional (a : AccountInfo K) : Option K :=
  if a.key = programId then none else some a.key

/-- `close`: the rent of the account closed goes to another, which must be writable then. -/
def closes (a authority : AccountInfo K) : Hx Unit := do
  ensure (a.key ≠ authority.key) (.anchor .constraintClose)
  ensure authority.isWritable (.anchor .readonlyLamportChange)

end AccountInfo

/-- The arguments of a handler. -/
def arguments {α : Type} [Borsh K α] (args : List (Cell K)) : Hx α :=
  orFail ((Borsh.decode args).map (·.1)) (.anchor .instructionDidNotDeserialize)

/-- A handler on the accounts and arguments it was called with. -/
def Handler.run (now : Int64) (L : Ledger K) (accounts : List (AccountInfo K))
    (args : List (Cell K)) (st : State K) : Handler → Hx (State K)
  | initializeCompliance => do
      let p : InitializeComplianceParams K ← arguments args
      match accounts with
      | config :: payer :: system :: _ => do
          let payer ← payer.payer
          system.systemProgram
          let config ← config.mutable
          TransferHook.initializeCompliance ⟨config, payer⟩ p st
      | _ => .error (.anchor .accountNotEnoughKeys)
  | initializeExtraAccountMetas =>
      match accounts with
      | metas :: mint :: payer :: system :: _ => do
          let payer ← payer.payer
          system.systemProgram
          let metas ← metas.mutable
          TransferHook.initializeExtraAccountMetas ⟨metas, mint.key, payer⟩ st
      | _ => .error (.anchor .accountNotEnoughKeys)
  | addToWhitelist => do
      let p : AddWhitelistParams ← arguments args
      match accounts with
      | config :: entry :: wallet :: payer :: authority :: system :: _ => do
          let payer ← payer.payer
          let authority ← authority.signed
          system.systemProgram
          let entry ← entry.mutable
          TransferHook.addToWhitelist now ⟨config.key, entry, wallet.key, payer, authority⟩ p st
      | _ => .error (.anchor .accountNotEnoughKeys)
  | removeFromWhitelist =>
      match accounts with
      | config :: entry :: wallet :: authority :: _ => do
          let signer ← authority.signed
          let closed ← entry.mutable
          entry.closes authority
          TransferHook.removeFromWhitelist ⟨config.key, closed, wallet.key, signer⟩ st
      | _ => .error (.anchor .accountNotEnoughKeys)
  | updateWhitelist => do
      let p : UpdateWhitelistParams ← arguments args
      match accounts with
      | config :: entry :: authority :: _ => do
          let authority ← authority.signed
          let entry ← entry.mutable
          TransferHook.updateWhitelist now ⟨config.key, entry, authority⟩ p st
      | _ => .error (.anchor .accountNotEnoughKeys)
  | updateCompliance => do
      let p : UpdateComplianceParams K ← arguments args
      match accounts with
      | config :: authority :: _ => do
          let authority ← authority.signed
          let config ← config.mutable
          TransferHook.updateCompliance ⟨config, authority⟩ p st
      | _ => .error (.anchor .accountNotEnoughKeys)
  | transferHook => do
      let amount : UInt64 ← arguments args
      match accounts with
      | source :: mint :: destination :: owner :: metas :: config :: sourceEntry ::
          destinationEntry :: _ =>
          TransferHook.transferHook now L
            ⟨source.key, mint.key, destination.key, owner.key, metas.key, config.key,
              sourceEntry.optional, destinationEntry.optional⟩ amount st
      | _ => .error (.anchor .accountNotEnoughKeys)

/-- The handler instruction data is for, if any, and its arguments. -/
def selectHandler {K : Type} (hash : Sighash) (data : List (Cell K)) : Option (Handler × List (Cell K)) :=
  match (Borsh.decode data : Option (Vector UInt8 8 × List (Cell K))) with
  | some (d, args) =>
      (Handler.all.find? fun h => h.discriminator hash = d).map fun h => (h, args)
  | none => none

/-- The program's entry point. -/
def entry (hash : Sighash) (now : Int64) (L : Ledger K) (accounts : List (AccountInfo K))
    (data : List (Cell K)) (st : State K) : Hx (State K) :=
  match selectHandler hash data with
  | some (h, args) => h.run now L accounts args st
  | none => fallback data st

/-! ## What Token-2022 sends -/

/-- The name the discriminator of the interface's Execute instruction is the hash of. -/
def executeName : String := "spl-transfer-hook-interface:execute"

/-- The data of the call Token-2022 makes for a transfer of `amount`. -/
def executeData {K : Type} (hash : Sighash) (amount : UInt64) : List (Cell K) :=
  Borsh.encode (hash executeName) ++ Borsh.encode amount

/-- Its accounts: the four of the transfer, then those it was told to add.  None signs, and none
can be written. -/
def executeAccounts {K : Type} (source mint destination authority : K) (extra : List K) :
    List (AccountInfo K) :=
  (source :: mint :: destination :: authority :: extra).map fun k => ⟨k, false, false⟩

/-- No handler answers to Execute. -/
def ExecuteUnclaimed (hash : Sighash) : Prop :=
  ∀ h : Handler, h.discriminator hash ≠ hash executeName

theorem selectHandler_execute {K : Type} {hash : Sighash} (hne : ExecuteUnclaimed hash)
    (amount : UInt64) : selectHandler (K := K) hash (executeData hash amount) = none := by
  unfold selectHandler executeData
  rw [Borsh.decode_encode]
  show Option.map _ (Handler.all.find? fun h => h.discriminator hash = hash executeName) = none
  have hnone : Handler.all.find? (fun h => h.discriminator hash = hash executeName) = none := by
    rw [List.find?_eq_none]
    intro h _ hfound
    exact hne h (of_decide_eq_true hfound)
  rw [hnone]
  rfl

variable {hash : Sighash} {now : Int64} {L : Ledger K} {st st' : State K}

/-- A transfer is always let through. -/
theorem entry_execute (hne : ExecuteUnclaimed hash) (accounts : List (AccountInfo K))
    (amount : UInt64) : entry hash now L accounts (executeData hash amount) st = .ok st := by
  unfold entry
  rw [selectHandler_execute hne]
  rfl

/-! ## Enforcement -/

/-- `owner` is on the whitelist, compliant and not expired. -/
def Whitelisted (now : Int64) (st : State K) (owner : K) : Prop :=
  ∃ entry, st.entries (whitelistKey owner) = some entry ∧ entry.kycCompliant = true ∧
    entry.amlClear = true ∧ entry.travelRuleCompliant = true ∧ now < entry.expiry

/-- What a transfer of `mint` between two owners is to be checked for. -/
structure Enforced (now : Int64) (st : State K) (mint sourceOwner destinationOwner : K) :
    Prop where
  allowed : ∃ config, st.config = some config ∧ config.allowTransfers = true
  source : sourceOwner ≠ mint → Whitelisted now st sourceOwner
  destination : destinationOwner ≠ mint → destinationOwner ≠ Addresses.default →
    Whitelisted now st destinationOwner

omit [DecidableEq K] [Addresses K] [Deployment K] in
theorem validateWhitelistEntry_eq_ok {e : WhitelistEntry K} {u : Unit} :
    validateWhitelistEntry now e = .ok u ↔
      e.kycCompliant = true ∧ e.amlClear = true ∧ e.travelRuleCompliant = true ∧
        now < e.expiry := by
  simp only [validateWhitelistEntry, bind_eq_ok, require_eq_ok]
  constructor
  · rintro ⟨_, hk, _, ha, _, ht, he⟩
    exact ⟨hk, ha, ht, he⟩
  · rintro ⟨hk, ha, ht, he⟩
    exact ⟨(), hk, (), ha, (), ht, he⟩

omit [DecidableEq K] in
/-- One side passes the handler's check on its own entry exactly if it is exempt or
whitelisted. -/
theorem checkSide_eq_ok {owner : K} {isExempt : Bool} {u : Unit} :
    checkSide now isExempt (st.entries (whitelistKey owner)) = .ok u ↔
      (isExempt = false → Whitelisted now st owner) := by
  unfold checkSide
  cases isExempt with
  | true => simp [pure, Except.pure]
  | false =>
      rw [if_neg Bool.false_ne_true]
      constructor
      · intro h _
        split at h
        · next e he => exact ⟨e, he, validateWhitelistEntry_eq_ok.mp h⟩
        · cases h
      · intro h
        obtain ⟨e, he, hvalid⟩ := h rfl
        rw [he]
        exact validateWhitelistEntry_eq_ok.mpr hvalid

/-- An entry the handler was given is the owner's own, if it is one at all. -/
theorem loadEntry_spec {owner : K} {k : Option K} {o : Option (WhitelistEntry K)}
    (h : st.loadEntry owner k = .ok o) : o = none ∨ o = st.entries (whitelistKey owner) := by
  rcases optional_eq_ok.mp h with ⟨-, ho⟩ | ⟨k', e, -, ho, hload⟩
  · exact .inl ho
  · simp only [bind_eq_ok, orFail_eq_ok, seeds_eq_ok, pure_eq_ok] at hload
    obtain ⟨e', he', _, hkey, rfl⟩ := hload
    exact .inr (ho.trans (hkey ▸ he'.symm))

/-- Leaving the entry out exempts nobody. -/
theorem checkSide_loaded {owner : K} {k : Option K} {o : Option (WhitelistEntry K)}
    {isExempt : Bool} {u : Unit} (hload : st.loadEntry owner k = .ok o)
    (h : checkSide now isExempt o = .ok u) (hexempt : isExempt = false) :
    Whitelisted now st owner := by
  rcases loadEntry_spec hload with ho | ho
  · rw [ho, hexempt] at h
    cases h
  · rw [ho] at h
    exact checkSide_eq_ok.mp h hexempt

/-- The checks `transfer_hook` makes, on the entries of the two owners. -/
def HookAccepts (now : Int64) (st : State K) (mint sourceOwner destinationOwner : K) : Prop :=
  (∃ config, st.config = some config ∧ config.allowTransfers = true) ∧
    checkSide now (decide (sourceOwner = mint)) (st.entries (whitelistKey sourceOwner)) = .ok () ∧
    checkSide now (decide (destinationOwner = mint ∨ destinationOwner = Addresses.default))
      (st.entries (whitelistKey destinationOwner)) = .ok ()

theorem hookAccepts_iff {mint sourceOwner destinationOwner : K} :
    HookAccepts now st mint sourceOwner destinationOwner ↔
      Enforced now st mint sourceOwner destinationOwner := by
  unfold HookAccepts
  rw [checkSide_eq_ok, checkSide_eq_ok, decide_eq_false_iff_not, decide_eq_false_iff_not, not_or]
  constructor
  · rintro ⟨hallowed, hsource, hdestination⟩
    exact ⟨hallowed, hsource, fun hm hd => hdestination ⟨hm, hd⟩⟩
  · rintro ⟨hallowed, hsource, hdestination⟩
    exact ⟨hallowed, hsource, fun h => hdestination h.1 h.2⟩

/-- The handler, where it accepts, has enforced the whitelist. -/
theorem transferHook_enforces {a : Transfer K} {amount : UInt64} {source destination : TokenAccount K}
    (hs : L.account a.sourceToken = some source)
    (hd : L.account a.destinationToken = some destination)
    (h : transferHook now L a amount st = .ok st') :
    Enforced now st a.mint source.owner destination.owner := by
  simp only [transferHook, bind_eq_ok, orFail_eq_ok, hs, hd, Option.some.injEq, exists_eq_left',
    State.loadConfig, require_eq_ok, pure_eq_ok] at h
  obtain ⟨_, -, config, ⟨config', hconfig, _, -, rfl⟩, se, hse, de, hde, _, hallow, _, hsource, _,
    hdestination, -⟩ := h
  refine ⟨⟨config', ?_, hallow⟩, ?_, ?_⟩
  · split at hconfig
    · exact hconfig
    · cases hconfig
  · intro hne
    exact checkSide_loaded hse hsource (decide_eq_false hne)
  · intro hne hdef
    exact checkSide_loaded hde hdestination (decide_eq_false (not_or.mpr ⟨hne, hdef⟩))

/-- The program lets a transfer through only if it is enforced exactly for those transfers
whose owners pass `transfer_hook`'s checks of themselves. -/
theorem execute_enforced_iff (hne : ExecuteUnclaimed hash) {source destination : TokenAccount K}
    {src mint dst authority : K} {extra : List K} {amount : UInt64}
    (_hs : L.account src = some source) (_hd : L.account dst = some destination) :
    (∀ st', entry hash now L (executeAccounts src mint dst authority extra)
        (executeData hash amount) st = .ok st' →
      Enforced now st mint source.owner destination.owner) ↔
      HookAccepts now st mint source.owner destination.owner := by
  rw [hookAccepts_iff]
  constructor
  · intro h
    exact h st (entry_execute hne _ _)
  · intro h _ _
    exact h

/-! ## A transfer nobody is whitelisted for -/

/-- The hash on the names it is taken of. -/
def sighash : Sighash
  | "global:initialize_compliance" => #v[77, 93, 116, 221, 108, 121, 232, 145]
  | "global:initialize_extra_account_metas" => #v[22, 213, 130, 114, 1, 174, 121, 36]
  | "global:add_to_whitelist" => #v[157, 211, 52, 54, 144, 81, 5, 55]
  | "global:remove_from_whitelist" => #v[7, 144, 216, 239, 243, 236, 193, 235]
  | "global:update_whitelist" => #v[94, 198, 33, 20, 192, 97, 44, 59]
  | "global:update_compliance" => #v[219, 3, 160, 220, 171, 41, 244, 196]
  | "global:transfer_hook" => #v[220, 57, 220, 152, 126, 125, 97, 168]
  | "spl-transfer-hook-interface:execute" => #v[105, 37, 101, 197, 75, 251, 102, 26]
  | _ => .replicate 8 0

theorem executeUnclaimed_sighash : ExecuteUnclaimed sighash := by
  intro h
  cases h <;> decide

/-- Two token accounts of one Token-2022 mint, at keys 5 and 6, owned by the wallets 7 and 8. -/
def pair : Ledger FreeKey where
  account k :=
    if k = .num 5 then some ⟨.token2022, .num 9, .num 7, 100, none, 0, false⟩
    else if k = .num 6 then some ⟨.token2022, .num 9, .num 8, 0, none, 0, false⟩
    else none
  mint _ := none

theorem pair_source :
    pair.account (.num 5) = some ⟨.token2022, .num 9, .num 7, 100, none, 0, false⟩ := rfl

theorem pair_destination :
    pair.account (.num 6) = some ⟨.token2022, .num 9, .num 8, 0, none, 0, false⟩ := rfl

/-- Transfers are switched off, and the whitelist is empty. -/
def closed : State FreeKey :=
  { State.genesis with config := some ⟨.num 20, .num 20, 1, false, 255⟩ }

/-- Between those two wallets, and with the whitelist closed, neither side of the
equivalence holds. -/
theorem execute_enforced_iff_closed :
    (∀ st', entry sighash 0 pair
        (executeAccounts (.num 5) (.num 9) (.num 6) (.num 7) [complianceKey])
        (executeData sighash 10) closed = .ok st' →
      Enforced 0 closed (.num 9) (.num 7) (.num 8)) ↔
      HookAccepts 0 closed (.num 9) (.num 7) (.num 8) :=
  execute_enforced_iff executeUnclaimed_sighash pair_source pair_destination

/-- Transfers are off and neither owner is listed, yet the program returns `Ok`. -/
theorem execute_bypasses_whitelist :
    pair.account (.num 5) = some ⟨.token2022, .num 9, .num 7, 100, none, 0, false⟩ ∧
    pair.account (.num 6) = some ⟨.token2022, .num 9, .num 8, 0, none, 0, false⟩ ∧
    (∃ st', entry sighash 0 pair
      (executeAccounts (.num 5) (.num 9) (.num 6) (.num 7) [complianceKey])
      (executeData sighash 10) closed = .ok st') ∧
    ¬ Enforced 0 closed (.num 9) (.num 7) (.num 8) := by
  refine ⟨pair_source, pair_destination, ok_of_isOk (by decide), ?_⟩
  intro h
  obtain ⟨config, hconfig, hallow⟩ := h.allowed
  cases hconfig
  cases hallow

end TransferHook
