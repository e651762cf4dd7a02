/-
# `Oragami.TransferHook.Wire` — instructions as a transaction carries them

A transaction carries no instruction of the program, only data and a list of
accounts, each with flags that say whether it signed and whether it may be
written.  `decode` reads an instruction off them; the entry point is `decode` and
then the instruction (`entry_eq`).

A call that succeeds carries the instruction it is read as: every account its
context asks for, signed, writable and the system program where the context says
so, and its parameters (`Sent.carries_of_decode`).  So the authority an
instruction demands has signed (`decode_signed`).  Read the other way, what
carries an instruction does what the instruction does, and what a sender appends
to its data or its accounts makes no difference (`Sent.Carries.exec`).  The
program goes through the same states whether its runs are of instructions or of
bytes (`sent_faithful`).  What creating an account costs is not in the model.
-/
import Oragami.Lib.Bytes
import Oragami.TransferHook.Provenance

namespace TransferHook

open Anchor Addresses Lts

variable {K : Type}

/-! ## Decoding -/

/-- An instruction as it arrives, and the token accounts it meets. -/
structure Sent (K : Type) where
  now : Int64
  ledger : Ledger K
  accounts : List (AccountInfo K)
  data : List (Cell K)

/-- `k` has signed for one of the accounts of a call. -/
def Sent.Signed (m : Sent K) (k : K) : Prop := ∃ a ∈ m.accounts, a.key = k ∧ a.isSigner = true

section Decode

variable [DecidableEq K] [Addresses K] [Deployment K]

/-- The account at a position of a call. -/
def Sent.account (m : Sent K) (i : Nat) : Hx (AccountInfo K) :=
  orFail m.accounts[i]? (.anchor .accountNotEnoughKeys)

/-- The instruction a handler is to execute. -/
def Handler.read (m : Sent K) (args : List (Cell K)) : Handler → Hx (Call K)
  | initializeCompliance => do
      let p : InitializeComplianceParams K ← arguments args
      let config ← m.account 0
      let payer ← m.account 1
      let system ← m.account 2
      let payer ← payer.payer
      system.systemProgram
      let config ← config.mutable
      pure (.initializeCompliance ⟨config, payer⟩ p)
  | initializeExtraAccountMetas => do
      let metas ← m.account 0
      let mint ← m.account 1
      let payer ← m.account 2
      let system ← m.account 3
      let payer ← payer.payer
      system.systemProgram
      let metas ← metas.mutable
      pure (.initializeExtraAccountMetas ⟨metas, mint.key, payer⟩)
  | addToWhitelist => do
      let p : AddWhitelistParams ← arguments args
      let config ← m.account 0
      let entry ← m.account 1
      let wallet ← m.account 2
      let payer ← m.account 3
      let authority ← m.account 4
      let system ← m.account 5
      let payer ← payer.payer
      let authority ← authority.signed
      system.systemProgram
      let entry ← entry.mutable
      pure (.addToWhitelist ⟨config.key, entry, wallet.key, payer, authority⟩ p)
  | removeFromWhitelist => do
      let config ← m.account 0
      let entry ← m.account 1
      let wallet ← m.account 2
      let authority ← m.account 3
      let signer ← authority.signed
      let closed ← entry.mutable
      entry.closes authority
      pure (.removeFromWhitelist ⟨config.key, closed, wallet.key, signer⟩)
  | updateWhitelist => do
      let p : UpdateWhitelistParams ← arguments args
      let config ← m.account 0
      let entry ← m.account 1
      let authority ← m.account 2
      let authority ← authority.signed
      let entry ← entry.mutable
      pure (.updateWhitelist ⟨config.key, entry, authority⟩ p)
  | updateCompliance => do
      let p : UpdateComplianceParams K ← arguments args
      let config ← m.account 0
      let authority ← m.account 1
      let authority ← authority.signed
      let config ← config.mutable
      pure (.updateCompliance ⟨config, authority⟩ p)
  | transferHook => do
      let amount : UInt64 ← arguments args
      let source ← m.account 0
      let mint ← m.account 1
      let destination ← m.account 2
      let owner ← m.account 3
      let metas ← m.account 4
      let config ← m.account 5
      let sourceEntry ← m.account 6
      let destinationEntry ← m.account 7
      pure (.transferHook m.ledger
        ⟨source.key, mint.key, destination.key, owner.key, metas.key, config.key,
          sourceEntry.optional, destinationEntry.optional⟩ amount)

/-- The instruction a call carries. -/
def Sent.decode (hash : Sighash) (m : Sent K) : Hx (Call K) :=
  match selectHandler hash m.data with
  | some (h, args) => h.read m args
  | none => pure (.fallback m.data)

/-- What the program does with a call. -/
def Sent.exec (hash : Sighash) (m : Sent K) (st : State K) : Hx (State K) :=
  entry hash m.now m.ledger m.accounts m.data st

variable {hash : Sighash} {m : Sent K} {st : State K} {args : List (Cell K)} {c : Call K} {k : K}

theorem Handler.run_eq (h : Handler) :
    h.run m.now m.ledger m.accounts args st = h.read m args >>= fun c => c.exec m.now st := by
  obtain ⟨now, L, accounts, data⟩ := m
  -- with the accounts in view both sides compute to the same chain of checks
  cases h with
  | initializeCompliance =>
      simp only [run, read, bind_assoc]
      congr 1
      funext p
      rcases accounts with _ | ⟨_, _ | ⟨_, _ | ⟨_, _⟩⟩⟩ <;> rfl
  | initializeExtraAccountMetas =>
      simp only [run, read, bind_assoc]
      rcases accounts with _ | ⟨_, _ | ⟨_, _ | ⟨_, _ | ⟨_, _⟩⟩⟩⟩ <;> rfl
  | addToWhitelist =>
      simp only [run, read, bind_assoc]
      congr 1
      funext p
      rcases accounts with _ | ⟨_, _ | ⟨_, _ | ⟨_, _ | ⟨_, _ | ⟨_, _ | ⟨_, _⟩⟩⟩⟩⟩⟩ <;> rfl
  | removeFromWhitelist =>
      simp only [run, read, bind_assoc]
      rcases accounts with _ | ⟨_, _ | ⟨_, _ | ⟨_, _ | ⟨_, _⟩⟩⟩⟩ <;> rfl
  | updateWhitelist =>
      simp only [run, read, bind_assoc]
      congr 1
      funext p
      rcases accounts with _ | ⟨_, _ | ⟨_, _ | ⟨_, _⟩⟩⟩ <;> rfl
  | updateCompliance =>
      simp only [run, read, bind_assoc]
      congr 1
      funext p
      rcases accounts with _ | ⟨_, _ | ⟨_, _⟩⟩ <;> rfl
  | transferHook =>
      simp only [run, read, bind_assoc]
      congr 1
      funext amount
      rcases accounts with
        _ | ⟨_, _ | ⟨_, _ | ⟨_, _ | ⟨_, _ | ⟨_, _ | ⟨_, _ | ⟨_, _ | ⟨_, _⟩⟩⟩⟩⟩⟩⟩⟩ <;> rfl

/-- The entry point reads an instruction and executes it. -/
theorem entry_eq : m.exec hash st = (m.decode hash >>= fun c => c.exec m.now st) := by
  unfold Sent.exec entry Sent.decode
  cases selectHandler hash m.data with
  | some found => exact Handler.run_eq found.1
  | none => rfl

end Decode

/-! ## What a call carries -/

/-- An account given where another is asked for: the same one, allowed at least as much. -/
structure AccountInfo.Serves (given asked : AccountInfo K) : Prop where
  key : given.key = asked.key
  signer : asked.isSigner = true → given.isSigner = true
  writable : asked.isWritable = true → given.isWritable = true

/-- From position `i` on a call gives accounts as they are asked for, and may give more. -/
def Sent.Gives (m : Sent K) : Nat → List (AccountInfo K) → Prop
  | _, [] => True
  | i, b :: bs => (∃ a, m.accounts[i]? = some a ∧ AccountInfo.Serves a b) ∧ m.Gives (i + 1) bs

namespace Call

/-- The handler an instruction is for. -/
def handler : Call K → Option Handler
  | initializeCompliance _ _ => some .initializeCompliance
  | initializeExtraAccountMetas _ => some .initializeExtraAccountMetas
  | addToWhitelist _ _ => some .addToWhitelist
  | removeFromWhitelist _ => some .removeFromWhitelist
  | updateWhitelist _ _ => some .updateWhitelist
  | updateCompliance _ _ => some .updateCompliance
  | transferHook _ _ _ => some .transferHook
  | fallback _ => none

/-- The parameters of an instruction. -/
def args : Call K → List (Cell K)
  | initializeCompliance _ p => Borsh.encode p
  | initializeExtraAccountMetas _ => []
  | addToWhitelist _ p => Borsh.encode p
  | removeFromWhitelist _ => []
  | updateWhitelist _ p => Borsh.encode p
  | updateCompliance _ p => Borsh.encode p
  | transferHook _ _ amount => Borsh.encode amount
  | fallback data => data

/-- The token accounts `transfer_hook` is to meet. -/
def Meets (L : Ledger K) : Call K → Prop
  | transferHook L' _ _ => L' = L
  | _ => True

variable [Addresses K] [Deployment K]

/-- The accounts of an instruction, in the order of its context: who is to sign, and what is to be
writable. -/
def accounts : Call K → List (AccountInfo K)
  | initializeCompliance a _ =>
      [⟨a.config, false, true⟩, ⟨a.payer, true, true⟩, ⟨Addresses.default, false, false⟩]
  | initializeExtraAccountMetas a =>
      [⟨a.extraAccountMetas, false, true⟩, ⟨a.mint, false, false⟩, ⟨a.payer, true, true⟩,
        ⟨Addresses.default, false, false⟩]
  | addToWhitelist a _ =>
      [⟨a.config, false, false⟩, ⟨a.entry, false, true⟩, ⟨a.wallet, false, false⟩,
        ⟨a.payer, true, true⟩, ⟨a.authority, true, false⟩, ⟨Addresses.default, false, false⟩]
  -- the context does not ask the authority to be writable, but the rent goes there
  | removeFromWhitelist a =>
      [⟨a.config, false, false⟩, ⟨a.entry, false, true⟩, ⟨a.wallet, false, false⟩,
        ⟨a.authority, true, true⟩]
  | updateWhitelist a _ =>
      [⟨a.config, false, false⟩, ⟨a.entry, false, true⟩, ⟨a.authority, true, false⟩]
  | updateCompliance a _ => [⟨a.config, false, true⟩, ⟨a.authority, true, false⟩]
  -- the program's own id stands for an account that is left out
  | transferHook _ a _ =>
      [⟨a.sourceToken, false, false⟩, ⟨a.mint, false, false⟩, ⟨a.destinationToken, false, false⟩,
        ⟨a.owner, false, false⟩, ⟨a.extraAccountMetas, false, false⟩,
        ⟨a.complianceConfig, false, false⟩, ⟨a.sourceWhitelist.getD programId, false, false⟩,
        ⟨a.destinationWhitelist.getD programId, false, false⟩]
  | fallback _ => []

/-- The accounts of an instruction can be passed: none is the program's own id, which would read
as none, and no entry is closed into itself. -/
def Passable : Call K → Prop
  | removeFromWhitelist a => a.entry ≠ a.authority
  | transferHook _ a _ =>
      a.sourceWhitelist ≠ some programId ∧ a.destinationWhitelist ≠ some programId
  | _ => True

end Call

/-- A call carries an instruction: its accounts and data are the instruction's, with anything
after them. -/
structure Sent.Carries [Addresses K] [Deployment K] (hash : Sighash) (m : Sent K) (c : Call K) :
    Prop where
  passable : c.Passable
  meets : c.Meets m.ledger
  accounts : m.Gives 0 c.accounts
  data : ∃ h rest, c.handler = some h ∧
    m.data = Borsh.encode (h.discriminator hash) ++ (c.args ++ rest)

/-! ## Reading a call -/

instance : Borsh.Strict K (InitializeComplianceParams K) := by
  unfold instBorshInitializeComplianceParams
  exact Borsh.Strict.via fun _ => rfl

instance : Borsh.Strict K AddWhitelistParams := by
  unfold instBorshAddWhitelistParams
  exact Borsh.Strict.via fun _ => rfl

instance : Borsh.Strict K UpdateWhitelistParams := by
  unfold instBorshUpdateWhitelistParams
  exact Borsh.Strict.via fun _ => rfl

instance : Borsh.Strict K (UpdateComplianceParams K) := by
  unfold instBorshUpdateComplianceParams
  exact Borsh.Strict.via fun _ => rfl

section Arguments

variable {α : Type} [Borsh K α] {p : α} {args : List (Cell K)}

theorem arguments_encode (p : α) (rest : List (Cell K)) :
    arguments (Borsh.encode p ++ rest) = .ok p := by
  simp only [arguments, Borsh.decode_encode, Option.map_some, orFail]

theorem encode_of_arguments [Borsh.Strict K α] (h : arguments args = .ok p) :
    ∃ rest, args = Borsh.encode p ++ rest := by
  obtain ⟨⟨_, rest⟩, hread, rfl⟩ := Option.map_eq_some_iff.mp (orFail_eq_ok.mp h)
  exact ⟨rest, Borsh.encode_of_decode hread⟩

end Arguments

section Flags

variable {a : AccountInfo K} {k : K}

theorem serves_self (a : AccountInfo K) : a.Serves ⟨a.key, false, false⟩ := by
  refine ⟨rfl, ?_, ?_⟩ <;> exact fun h => absurd h Bool.false_ne_true

theorem signed_eq_ok : a.signed = .ok k ↔ a.Serves ⟨k, true, false⟩ := by
  simp only [AccountInfo.signed, bind_eq_ok, ensure_eq_ok, pure_eq_ok, exists_const]
  constructor
  · rintro ⟨hsigner, hkey⟩
    exact ⟨hkey, fun _ => hsigner, fun h => absurd h Bool.false_ne_true⟩
  · intro h
    exact ⟨h.signer rfl, h.key⟩

theorem mutable_eq_ok : a.mutable = .ok k ↔ a.Serves ⟨k, false, true⟩ := by
  simp only [AccountInfo.mutable, bind_eq_ok, ensure_eq_ok, pure_eq_ok, exists_const]
  constructor
  · rintro ⟨hwritable, hkey⟩
    exact ⟨hkey, fun h => absurd h Bool.false_ne_true, fun _ => hwritable⟩
  · intro h
    exact ⟨h.writable rfl, h.key⟩

theorem payer_eq_ok : a.payer = .ok k ↔ a.Serves ⟨k, true, true⟩ := by
  simp only [AccountInfo.payer, bind_eq_ok, signed_eq_ok, mutable_eq_ok]
  constructor
  · rintro ⟨_, hsigned, hmutable⟩
    exact ⟨hmutable.key, hsigned.signer, hmutable.writable⟩
  · intro h
    exact ⟨k, ⟨h.key, h.signer, fun hw => absurd hw Bool.false_ne_true⟩, h.key,
      fun hs => absurd hs Bool.false_ne_true, h.writable⟩

theorem systemProgram_eq_ok [DecidableEq K] [Addresses K] {u : Unit} :
    a.systemProgram = .ok u ↔ a.Serves ⟨Addresses.default, false, false⟩ := by
  rw [AccountInfo.systemProgram, ensure_eq_ok]
  constructor
  · intro h
    exact h ▸ serves_self a
  · exact AccountInfo.Serves.key

theorem closes_eq_ok [DecidableEq K] {b : AccountInfo K} {u : Unit} :
    a.closes b = .ok u ↔ a.key ≠ b.key ∧ b.isWritable = true := by
  simp only [AccountInfo.closes, bind_eq_ok, ensure_eq_ok, exists_const]

variable [DecidableEq K] [Deployment K]

/-- What stands for an account, or for none, is read as that, -/
theorem optional_of_serves {o : Option K} (h : a.Serves ⟨o.getD programId, false, false⟩)
    (ho : o ≠ some programId) : a.optional = o := by
  rw [AccountInfo.optional, h.key]
  cases o with
  | none => exact if_pos rfl
  | some k => exact if_neg fun hk => ho (congrArg some hk)

/-- and whatever account is given stands for what is read, -/
theorem serves_optional (a : AccountInfo K) :
    a.Serves ⟨a.optional.getD programId, false, false⟩ := by
  have hkey : a.optional.getD programId = a.key := by
    unfold AccountInfo.optional
    split
    · next h => exact h.symm
    · rfl
  rw [hkey]
  exact serves_self a

/-- which is never the program. -/
theorem optional_ne (a : AccountInfo K) : a.optional ≠ some programId := by
  unfold AccountInfo.optional
  split
  · exact Option.some_ne_none _ ∘ Eq.symm
  · next h => exact fun hk => h (Option.some.inj hk)

end Flags

section Read

variable [DecidableEq K] [Addresses K] [Deployment K]

variable {hash : Sighash} {m : Sent K} {st : State K} {c : Call K} {h : Handler} {k : K}
  {args : List (Cell K)}

omit [DecidableEq K] [Addresses K] [Deployment K] in
theorem account_eq_ok {i : Nat} {a : AccountInfo K} :
    m.account i = .ok a ↔ m.accounts[i]? = some a :=
  orFail_eq_ok

/-- A handler executes an instruction that was sent to it, -/
theorem Handler.carried_of_read (hread : h.read m args = .ok c) :
    c.handler = some h ∧ c.Passable ∧ c.Meets m.ledger ∧ m.Gives 0 c.accounts ∧
      ∃ rest, args = c.args ++ rest := by
  cases h with
  | initializeCompliance =>
      simp only [read, bind_eq_ok, account_eq_ok, payer_eq_ok, systemProgram_eq_ok, mutable_eq_ok,
        pure_eq_ok] at hread
      obtain ⟨p, hp, config, hconfig, payer, hpayer, system, hsystem, _, hpays, _, hid, _, hmut,
        rfl⟩ := hread
      refine ⟨rfl, trivial, trivial, ?_, encode_of_arguments hp⟩
      exact ⟨⟨config, hconfig, hmut⟩, ⟨payer, hpayer, hpays⟩, ⟨system, hsystem, hid⟩, trivial⟩
  | initializeExtraAccountMetas =>
      simp only [read, bind_eq_ok, account_eq_ok, payer_eq_ok, systemProgram_eq_ok, mutable_eq_ok,
        pure_eq_ok] at hread
      obtain ⟨metas, hmetas, mint, hmint, payer, hpayer, system, hsystem, _, hpays, _, hid, _,
        hmut, rfl⟩ := hread
      refine ⟨rfl, trivial, trivial, ?_, args, rfl⟩
      exact ⟨⟨metas, hmetas, hmut⟩, ⟨mint, hmint, serves_self mint⟩, ⟨payer, hpayer, hpays⟩,
        ⟨system, hsystem, hid⟩, trivial⟩
  | addToWhitelist =>
      simp only [read, bind_eq_ok, account_eq_ok, payer_eq_ok, signed_eq_ok, systemProgram_eq_ok,
        mutable_eq_ok, pure_eq_ok] at hread
      obtain ⟨p, hp, config, hconfig, entry, hentry, wallet, hwallet, payer, hpayer, authority,
        hauthority, system, hsystem, _, hpays, _, hsigned, _, hid, _, hmut, rfl⟩ := hread
      refine ⟨rfl, trivial, trivial, ?_, encode_of_arguments hp⟩
      exact ⟨⟨config, hconfig, serves_self config⟩, ⟨entry, hentry, hmut⟩,
        ⟨wallet, hwallet, serves_self wallet⟩, ⟨payer, hpayer, hpays⟩,
        ⟨authority, hauthority, hsigned⟩, ⟨system, hsystem, hid⟩, trivial⟩
  | removeFromWhitelist =>
      simp only [read, bind_eq_ok, account_eq_ok, signed_eq_ok, mutable_eq_ok, closes_eq_ok,
        pure_eq_ok] at hread
      obtain ⟨config, hconfig, entry, hentry, wallet, hwallet, authority, hauthority, signer,
        hsigned, closed, hmut, _, ⟨hne, hwritable⟩, rfl⟩ := hread
      refine ⟨rfl, ?_, trivial, ?_, args, rfl⟩
      · intro heq
        exact hne (hmut.key.trans (Eq.trans heq hsigned.key.symm))
      · exact ⟨⟨config, hconfig, serves_self config⟩, ⟨entry, hentry, hmut⟩,
          ⟨wallet, hwallet, serves_self wallet⟩,
          ⟨authority, hauthority, hsigned.key, hsigned.signer, fun _ => hwritable⟩, trivial⟩
  | updateWhitelist =>
      simp only [read, bind_eq_ok, account_eq_ok, signed_eq_ok, mutable_eq_ok, pure_eq_ok] at hread
      obtain ⟨p, hp, config, hconfig, entry, hentry, authority, hauthority, _, hsigned, _, hmut,
        rfl⟩ := hread
      refine ⟨rfl, trivial, trivial, ?_, encode_of_arguments hp⟩
      exact ⟨⟨config, hconfig, serves_self config⟩, ⟨entry, hentry, hmut⟩,
        ⟨authority, hauthority, hsigned⟩, trivial⟩
  | updateCompliance =>
      simp only [read, bind_eq_ok, account_eq_ok, signed_eq_ok, mutable_eq_ok, pure_eq_ok] at hread
      obtain ⟨p, hp, config, hconfig, authority, hauthority, _, hsigned, _, hmut, rfl⟩ := hread
      refine ⟨rfl, trivial, trivial, ?_, encode_of_arguments hp⟩
      exact ⟨⟨config, hconfig, hmut⟩, ⟨authority, hauthority, hsigned⟩, trivial⟩
  | transferHook =>
      simp only [read, bind_eq_ok, account_eq_ok, pure_eq_ok] at hread
      obtain ⟨amount, hp, source, hsource, mint, hmint, destination, hdestination, owner, howner,
        metas, hmetas, config, hconfig, sourceEntry, hse, destinationEntry, hde, rfl⟩ := hread
      refine ⟨rfl, ⟨optional_ne _, optional_ne _⟩, rfl, ?_, encode_of_arguments hp⟩
      exact ⟨⟨source, hsource, serves_self source⟩, ⟨mint, hmint, serves_self mint⟩,
        ⟨destination, hdestination, serves_self destination⟩, ⟨owner, howner, serves_self owner⟩,
        ⟨metas, hmetas, serves_self metas⟩, ⟨config, hconfig, serves_self config⟩,
        ⟨sourceEntry, hse, serves_optional sourceEntry⟩,
        ⟨destinationEntry, hde, serves_optional destinationEntry⟩, trivial⟩

/-- and every instruction that was, whatever else was. -/
theorem Handler.read_of_carried {rest : List (Cell K)} (hh : c.handler = some h)
    (hpass : c.Passable) (hmeets : c.Meets m.ledger) (hgives : m.Gives 0 c.accounts) :
    h.read m (c.args ++ rest) = .ok c := by
  cases c with
  | initializeCompliance a p =>
      cases hh
      obtain ⟨⟨config, hconfig, hmut⟩, ⟨payer, hpayer, hpays⟩, ⟨system, hsystem, hid⟩, -⟩ := hgives
      simp only [read, bind_eq_ok, account_eq_ok, payer_eq_ok, systemProgram_eq_ok, mutable_eq_ok,
        pure_eq_ok]
      exact ⟨p, arguments_encode p rest, config, hconfig, payer, hpayer, system, hsystem, _, hpays,
        (), hid, _, hmut, rfl⟩
  | initializeExtraAccountMetas a =>
      cases hh
      obtain ⟨⟨metas, hmetas, hmut⟩, ⟨mint, hmint, hminted⟩, ⟨payer, hpayer, hpays⟩,
        ⟨system, hsystem, hid⟩, -⟩ := hgives
      simp only [read, bind_eq_ok, account_eq_ok, payer_eq_ok, systemProgram_eq_ok, mutable_eq_ok,
        pure_eq_ok]
      refine ⟨metas, hmetas, mint, hmint, payer, hpayer, system, hsystem, _, hpays, (), hid, _,
        hmut, ?_⟩
      rw [hminted.key]
  | addToWhitelist a p =>
      cases hh
      obtain ⟨⟨config, hconfig, hc⟩, ⟨entry, hentry, hmut⟩, ⟨wallet, hwallet, hw⟩,
        ⟨payer, hpayer, hpays⟩, ⟨authority, hauthority, hsigned⟩, ⟨system, hsystem, hid⟩,
        -⟩ := hgives
      simp only [read, bind_eq_ok, account_eq_ok, payer_eq_ok, signed_eq_ok, systemProgram_eq_ok,
        mutable_eq_ok, pure_eq_ok]
      refine ⟨p, arguments_encode p rest, config, hconfig, entry, hentry, wallet, hwallet, payer,
        hpayer, authority, hauthority, system, hsystem, _, hpays, _, hsigned, (), hid, _, hmut, ?_⟩
      rw [hc.key, hw.key]
  | removeFromWhitelist a =>
      cases hh
      obtain ⟨⟨config, hconfig, hc⟩, ⟨entry, hentry, hmut⟩, ⟨wallet, hwallet, hw⟩,
        ⟨authority, hauthority, hsigned⟩, -⟩ := hgives
      have hne : entry.key ≠ authority.key := by
        rw [hmut.key, hsigned.key]
        exact hpass
      simp only [read, bind_eq_ok, account_eq_ok, signed_eq_ok, mutable_eq_ok, closes_eq_ok,
        pure_eq_ok]
      refine ⟨config, hconfig, entry, hentry, wallet, hwallet, authority, hauthority, _,
        ⟨hsigned.key, hsigned.signer, fun h => absurd h Bool.false_ne_true⟩, _, hmut, (),
        ⟨hne, hsigned.writable rfl⟩, ?_⟩
      rw [hc.key, hw.key]
  | updateWhitelist a p =>
      cases hh
      obtain ⟨⟨config, hconfig, hc⟩, ⟨entry, hentry, hmut⟩, ⟨authority, hauthority, hsigned⟩,
        -⟩ := hgives
      simp only [read, bind_eq_ok, account_eq_ok, signed_eq_ok, mutable_eq_ok, pure_eq_ok]
      refine ⟨p, arguments_encode p rest, config, hconfig, entry, hentry, authority, hauthority, _,
        hsigned, _, hmut, ?_⟩
      rw [hc.key]
  | updateCompliance a p =>
      cases hh
      obtain ⟨⟨config, hconfig, hmut⟩, ⟨authority, hauthority, hsigned⟩, -⟩ := hgives
      simp only [read, bind_eq_ok, account_eq_ok, signed_eq_ok, mutable_eq_ok, pure_eq_ok]
      exact ⟨p, arguments_encode p rest, config, hconfig, authority, hauthority, _, hsigned, _,
        hmut, rfl⟩
  | transferHook L a amount =>
      cases hh
      cases hmeets
      obtain ⟨hsourced, hdestined⟩ := hpass
      obtain ⟨⟨source, hsource, hs⟩, ⟨mint, hmint, hminted⟩, ⟨destination, hdestination, hd⟩,
        ⟨owner, howner, ho⟩, ⟨metas, hmetas, hlist⟩, ⟨config, hconfig, hc⟩,
        ⟨sourceEntry, hse, hsentry⟩, ⟨destinationEntry, hde, hdentry⟩, -⟩ := hgives
      simp only [read, bind_eq_ok, account_eq_ok, pure_eq_ok]
      refine ⟨amount, arguments_encode amount rest, source, hsource, mint, hmint, destination,
        hdestination, owner, howner, metas, hmetas, config, hconfig, sourceEntry, hse,
        destinationEntry, hde, ?_⟩
      rw [hs.key, hminted.key, hd.key, ho.key, hlist.key, hc.key,
        optional_of_serves hsentry hsourced, optional_of_serves hdentry hdestined]
  | fallback data => cases hh

omit [DecidableEq K] [Addresses K] [Deployment K] in
/-- A discriminator picks its handler, -/
theorem selectHandler_discriminator (hinj : Function.Injective (Handler.discriminator hash))
    (h : Handler) (args : List (Cell K)) :
    selectHandler hash (Borsh.encode (h.discriminator hash) ++ args) = some (h, args) := by
  unfold selectHandler
  rw [Borsh.decode_encode]
  have hfound :
      Handler.all.find? (fun h' => h'.discriminator hash = h.discriminator hash) = some h := by
    simp only [hinj.eq_iff]
    cases h <;> rfl
  show Option.map _ (Handler.all.find? fun h' => h'.discriminator hash = h.discriminator hash) = _
  rw [hfound]
  rfl

omit [DecidableEq K] [Addresses K] [Deployment K] in
/-- and stands before the arguments of whatever picks one. -/
theorem encode_of_selectHandler {data : List (Cell K)}
    (hsel : selectHandler hash data = some (h, args)) :
    data = Borsh.encode (h.discriminator hash) ++ args := by
  unfold selectHandler at hsel
  split at hsel
  · next d rest hd =>
      obtain ⟨_, hfound, heq⟩ := Option.map_eq_some_iff.mp hsel
      cases heq
      have hdisc := List.find?_some hfound
      rw [of_decide_eq_true hdisc]
      exact Borsh.encode_of_decode hd
  · cases hsel

theorem Sent.Carries.decode (hinj : Function.Injective (Handler.discriminator hash))
    (hc : m.Carries hash c) : m.decode hash = .ok c := by
  obtain ⟨h, rest, hh, hdata⟩ := hc.data
  unfold Sent.decode
  rw [hdata, selectHandler_discriminator hinj]
  exact Handler.read_of_carried hh hc.passable hc.meets hc.accounts

/-- A call is executed as the instruction it carries, and one that carries none goes to
`fallback`. -/
theorem Sent.carries_of_decode (hdecode : m.decode hash = .ok c) :
    m.Carries hash c ∨ selectHandler hash m.data = none ∧ c = .fallback m.data := by
  unfold Sent.decode at hdecode
  split at hdecode
  · next h args hsel =>
      obtain ⟨hh, hpass, hmeets, hgives, rest, rfl⟩ := Handler.carried_of_read hdecode
      exact .inl ⟨hpass, hmeets, hgives, h, rest, hh, encode_of_selectHandler hsel⟩
  · next hsel =>
      cases hdecode
      exact .inr ⟨hsel, rfl⟩

theorem Sent.Carries.exec (hinj : Function.Injective (Handler.discriminator hash))
    (hc : m.Carries hash c) : m.exec hash st = c.exec m.now st := by
  rw [entry_eq, hc.decode hinj]
  rfl

omit [DecidableEq K] [Addresses K] [Deployment K] in
theorem Sent.Gives.signed {i : Nat} {asked : List (AccountInfo K)} (h : m.Gives i asked)
    {b : AccountInfo K} (hb : b ∈ asked) (hsigner : b.isSigner = true) : m.Signed b.key := by
  induction asked generalizing i with
  | nil => cases hb
  | cons b' asked ih =>
      obtain ⟨⟨a, ha, hserves⟩, hrest⟩ := h
      rcases List.mem_cons.mp hb with rfl | hb
      · exact ⟨a, List.mem_of_getElem? ha, hserves.key, hserves.signer hsigner⟩
      · exact ih hrest hb

omit [DecidableEq K] in
/-- The authority of an instruction is among its accounts, as one that is to sign. -/
theorem Call.authority_mem (hk : c.authority = some k) :
    ∃ b ∈ c.accounts, b.key = k ∧ b.isSigner = true := by
  cases c with
  | addToWhitelist a p =>
      cases hk
      exact ⟨⟨a.authority, true, false⟩, by simp [accounts], rfl, rfl⟩
  | removeFromWhitelist a =>
      cases hk
      exact ⟨⟨a.authority, true, true⟩, by simp [accounts], rfl, rfl⟩
  | updateWhitelist a p =>
      cases hk
      exact ⟨⟨a.authority, true, false⟩, by simp [accounts], rfl, rfl⟩
  | updateCompliance a p =>
      cases hk
      exact ⟨⟨a.authority, true, false⟩, by simp [accounts], rfl, rfl⟩
  | _ => cases hk

/-- The authority an instruction is to be signed by has signed for the call it came in. -/
theorem decode_signed (hdecode : m.decode hash = .ok c) (hk : c.authority = some k) :
    m.Signed k := by
  rcases Sent.carries_of_decode hdecode with hc | ⟨-, rfl⟩
  · obtain ⟨b, hb, rfl, hsigner⟩ := Call.authority_mem hk
    exact hc.accounts.signed hb hsigner
  · cases hk

end Read

/-! ## Runs of bytes -/

section Runs

variable [DecidableEq K] [Addresses K] [Deployment K]

/-- A successful call. -/
def SentStep (hash : Sighash) (st : State K) (m : Sent K) (st' : State K) : Prop :=
  m.exec hash st = .ok st'

variable {hash : Sighash} {m : Sent K} {st st' : State K} {c : Call K}

/-- Whatever is sent is a step of the program, -/
theorem SentStep.step (h : SentStep hash st m st') :
    ∃ c, m.decode hash = .ok c ∧ Step st ⟨m.now, c⟩ st' := by
  unfold SentStep at h
  rw [entry_eq] at h
  exact bind_eq_ok.mp h

theorem Sent.passable_of_decode (hdecode : m.decode hash = .ok c) : c.Passable := by
  rcases Sent.carries_of_decode hdecode with hc | ⟨-, rfl⟩
  · exact hc.passable
  · trivial

/-- and carries it, or changes nothing. -/
theorem SentStep.carries (h : SentStep hash st m st') :
    (∃ c, m.Carries hash c) ∨ selectHandler hash m.data = none ∧ st' = st := by
  obtain ⟨c, hdecode, hexec⟩ := h.step
  rcases Sent.carries_of_decode hdecode with hc | ⟨hsel, rfl⟩
  · exact .inl ⟨c, hc⟩
  · have hok : TransferHook.fallback m.data st = .ok st' := hexec
    exact .inr ⟨hsel, fallback_state hok⟩

omit [DecidableEq K] [Addresses K] [Deployment K] in
/-- Accounts serve as themselves. -/
theorem Sent.gives_self (before : List (AccountInfo K)) {asked : List (AccountInfo K)}
    (h : m.accounts = before ++ asked) : m.Gives before.length asked := by
  induction asked generalizing before with
  | nil => trivial
  | cons b asked ih =>
      refine ⟨⟨b, by simp [h], rfl, id, id⟩, ?_⟩
      have hrest := ih (before ++ [b]) (by simp [h])
      rwa [List.length_append] at hrest

/-- A step of the program whose accounts can be passed can be sent, or changes nothing. -/
theorem Step.sent (hinj : Function.Injective (Handler.discriminator hash)) {act : Action K}
    (h : Step st act st') (hpass : act.call.Passable) :
    st' = st ∨ ∃ m, SentStep hash st m st' := by
  obtain ⟨now, c⟩ := act
  have send : ∀ L handler, c.handler = some handler → c.Meets L →
      ∃ m, SentStep hash st m st' := by
    intro L handler hh hmeets
    have hcarries : Sent.Carries hash
        ⟨now, L, c.accounts, Borsh.encode (handler.discriminator hash) ++ (c.args ++ [])⟩ c :=
      ⟨hpass, hmeets, Sent.gives_self [] rfl, handler, [], hh, rfl⟩
    exact ⟨_, (hcarries.exec hinj).trans h⟩
  cases c with
  | transferHook L a amount =>
      have hok : TransferHook.transferHook now L a amount st = .ok st' := h
      exact .inl (transferHook_state hok)
  | fallback data =>
      have hok : TransferHook.fallback data st = .ok st' := h
      exact .inl (fallback_state hok)
  | _ => exact .inr (send ⟨fun _ => none, fun _ => none⟩ _ rfl trivial)

/-- The states calls go through are states instructions go through, -/
theorem run_reaches {ts : List (Transition (State K) (Sent K))}
    (h : Run (SentStep hash) State.genesis ts st) :
    ∃ us, Reaches us st ∧ ∀ t ∈ us, t.label.call.Passable := by
  refine Run.invariant
    (I := fun st => ∃ us, Reaches us st ∧ ∀ t ∈ us, t.label.call.Passable)
    ⟨[], .nil, fun _ ht => absurd ht List.not_mem_nil⟩ ?_ h
  rintro s m s' ⟨us, hus, hpass⟩ hstep
  obtain ⟨c, hdecode, hc⟩ := hstep.step
  refine ⟨_, .snoc hus hc, ?_⟩
  intro t ht
  rcases List.mem_append.mp ht with ht | ht
  · exact hpass t ht
  · cases List.mem_singleton.mp ht
    exact Sent.passable_of_decode hdecode

/-- and the other way round. -/
theorem Reaches.sent (hinj : Function.Injective (Handler.discriminator hash))
    {ts : List (Transition (State K) (Action K))} (h : Reaches ts st)
    (hpass : ∀ t ∈ ts, t.label.call.Passable) :
    ∃ us, Run (SentStep hash) State.genesis us st := by
  refine Run.history (I := fun ts st => (∀ t ∈ ts, t.label.call.Passable) →
    ∃ us, Run (SentStep hash) State.genesis us st) (fun _ => ⟨[], .nil⟩) ?_ h hpass
  intro ts s act s' _ ih hstep hpass
  obtain ⟨us, hus⟩ := ih fun t ht => hpass t (List.mem_append_left _ ht)
  rcases hstep.sent hinj (hpass ⟨s, act, s'⟩ (by simp)) with rfl | ⟨m, hm⟩
  · exact ⟨us, hus⟩
  · exact ⟨_, .snoc hus hm⟩

/-- Bytes and instructions are the same program: a call that carries an instruction does what the
instruction does, whatever its sender appended, and fails where it fails; a call that carries none
fails, or its data is for no handler and nothing changes; and the states the program goes through
under calls of any bytes and accounts are those it goes through under its instructions. -/
theorem sent_faithful (hinj : Function.Injective (Handler.discriminator hash)) :
    (∀ (m : Sent K) (c : Call K) (st : State K), m.Carries hash c →
      m.exec hash st = c.exec m.now st) ∧
    (∀ (m : Sent K) (st st' : State K), m.exec hash st = .ok st' →
      (∃ c, m.Carries hash c) ∨ selectHandler hash m.data = none ∧ st' = st) ∧
    ∀ st : State K,
      (∃ ts, Run (SentStep hash) State.genesis ts st) ↔
        ∃ ts, Reaches ts st ∧ ∀ t ∈ ts, t.label.call.Passable := by
  refine ⟨fun m c st hc => hc.exec hinj, fun m st st' h => SentStep.carries h, ?_⟩
  intro st
  constructor
  · rintro ⟨ts, hrun⟩
    exact run_reaches hrun
  · rintro ⟨ts, hreach, hpass⟩
    exact hreach.sent hinj hpass

end Runs

/-! ### The listing of two wallets, in bytes -/

theorem discriminator_injective : Function.Injective (Handler.discriminator sighash) := by
  intro h h' heq
  cases h <;> cases h' <;> first | rfl | exact absurd heq (by decide)

/-- The first listing as it is sent, with an account and a byte too many. -/
def sentListing : Sent FreeKey where
  now := 0
  ledger := pair
  accounts := (listing (.num 7)).call.accounts ++ [⟨.num 9, false, false⟩]
  data := Borsh.encode (Handler.addToWhitelist.discriminator sighash) ++
    ((listing (.num 7)).call.args ++ [.byte 1])

theorem sentListing_carries : sentListing.Carries sighash (listing (.num 7)).call := by
  refine ⟨trivial, trivial, ?_, .addToWhitelist, [.byte 1], rfl, rfl⟩
  exact ⟨⟨_, rfl, rfl, id, id⟩, ⟨_, rfl, rfl, id, id⟩, ⟨_, rfl, rfl, id, id⟩,
    ⟨_, rfl, rfl, id, id⟩, ⟨_, rfl, rfl, id, id⟩, ⟨_, rfl, rfl, id, id⟩, trivial⟩

theorem listings_reaches : Reaches (play Action.apply State.genesis listings)
    (final Action.apply State.genesis listings) := by
  refine play_run (P := fun _ => True) ?_ (fun _ _ => trivial) State.genesis
  intro st act st' hs _
  exact Step.of_apply hs

theorem listings_passable :
    ∀ t ∈ play Action.apply State.genesis listings, t.label.call.Passable := by
  intro t ht
  have hlabel := label_mem_of_play ht
  simp only [listings, List.mem_cons, List.not_mem_nil, or_false] at hlabel
  rcases hlabel with h | h | h <;> exact h ▸ trivial

theorem sent_faithful_listings :
    (sentListing.exec sighash (final Action.apply State.genesis (listings.take 1))).isOk = true ∧
      ∃ ts, Run (SentStep sighash) State.genesis ts
        (final Action.apply State.genesis listings) := by
  obtain ⟨hexec, -, hreach⟩ := sent_faithful (K := FreeKey) discriminator_injective
  constructor
  · rw [hexec _ _ _ sentListing_carries]
    decide
  · exact (hreach _).mpr ⟨_, listings_reaches, listings_passable⟩

end TransferHook
