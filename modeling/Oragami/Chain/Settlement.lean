/-
# `Oragami.Chain.Settlement` — who holds a credential when shares change hands

Shares of multi-asset-vault are meant to move between credentialed wallets only.
`transfer_shares` checks the credential of its signer and that of the owner of the
account it credits; `deposit` checks that of its signer.  A signer need not own the
account debited (a delegate may sign), nor the account credited (any may be
passed).  So what is guaranteed of the owners follows from the checks alone where
signer and owner are the same, and otherwise is left to chance: it holds just when
the owner would have passed the gate it was never sent through (`Accepts`).

That a wallet passes the gate and that it holds a credential of oragami-vault
(`Holds`) is the same in every reachable state (`Reaches.accepts_iff`).
-/
import Oragami.Chain.Credentials

namespace Chain

open Anchor Addresses Lts
open OragamiVault (credentialKey credentialKey_inj credentialStatusActive)

variable {K : Type} [Addresses K] [Deployment K]

/-! ## Holding a credential and passing the gate -/

/-- `w` holds a credential of oragami-vault, active and unexpired at `now`. -/
def Holds (s : Chain K) (now : Int64) (w : K) : Prop :=
  ∃ k cred, s.vault.credentials k = some cred ∧ cred.wallet = w ∧
    cred.status = credentialStatusActive ∧ now < cred.expiresAt

variable [DecidableEq K]

/-- The checks `deposit` and `transfer_shares` make of their signer, made of `w`, pass. -/
def Accepts (s : Chain K) (now : Int64) (w : K) : Prop :=
  ∃ cred, MultiAssetVault.credentialGate now s.view (MultiAssetVault.gateCredentialKey w) w
    .credentialNotActive .credentialExpired = .ok cred ∧ cred.wallet = w

section Gate

variable {ts : List (Transition (Chain K) (Action K))} {s : Chain K} {now : Int64} {w : K}

omit [DecidableEq K] in
/-- Whoever the gate lets through holds a credential. -/
theorem holds_of_credentialed (hist : CredentialHistory ts s) {k : K}
    {cred : MultiAssetVault.ComplianceCredential K}
    (h : MultiAssetVault.Credentialed now s.view k w cred) : Holds s now w := by
  obtain ⟨c, hc, -, hstatus, hexp⟩ := credentialed_stored h
  exact ⟨_, c, hc, (credentialKey_inj (hist.address hc)).symm, hstatus, hexp⟩

omit [DecidableEq K] in
/-- A stored credential passes the gate at its address. -/
theorem credentialed_of_stored {c : OragamiVault.ComplianceCredential K}
    (hc : s.vault.credentials (credentialKey w) = some c)
    (hstatus : c.status = credentialStatusActive) (hexp : now < c.expiresAt) :
    MultiAssetVault.Credentialed now s.view (MultiAssetVault.gateCredentialKey w) w (readAs c) where
  address := rfl
  data := by
    refine ⟨⟨OragamiVault.programId, Borsh.serialize MultiAssetVault.credentialDiscriminator c⟩,
      ?_, rfl, Borsh.tryDeserialize_serialize (encode_readAs c)⟩
    exact Option.map_eq_some_iff.mpr ⟨c, hc, rfl⟩
  status := hstatus
  unexpired := hexp

theorem CredentialHistory.accepts_iff (hist : CredentialHistory ts s) :
    Accepts s now w ↔ Holds s now w := by
  constructor
  · rintro ⟨cred, hgate, -⟩
    exact holds_of_credentialed hist (MultiAssetVault.credentialGate_eq_ok.mp hgate)
  · rintro ⟨k, c, hc, rfl, hstatus, hexp⟩
    rw [hist.address hc] at hc
    exact ⟨readAs c,
      MultiAssetVault.credentialGate_eq_ok.mpr (credentialed_of_stored hc hstatus hexp), rfl⟩

omit [Deployment K] [Addresses K] [DecidableEq K] in
/-- What a stored credential says, read as holding it. -/
theorem holds_of_record {k : K} {expiresAt : Int64}
    (h : (s.vault.credentials k).map (fun c => (c.wallet, c.status, c.expiresAt)) =
      some (w, credentialStatusActive, expiresAt)) (hexp : now < expiresAt) : Holds s now w := by
  obtain ⟨cred, hcred, hfields⟩ := Option.map_eq_some_iff.mp h
  simp only [Prod.mk.injEq] at hfields
  obtain ⟨hwallet, hstatus, rfl⟩ := hfields
  exact ⟨k, cred, hcred, hwallet, hstatus, hexp⟩

end Gate

/-! ## Transfers of shares -/

section Transfer

variable [TokenProgram K] {ledger : Ledger K} {ts : List (Transition (Chain K) (Action K))}
  {s : Chain K} {now : Int64}

/-- In every reachable state and of every transfer of shares that goes through, the owners of
both accounts hold a credential if and only if the owner of the one debited signed itself, or
would have passed the gate its delegate was sent through. -/
theorem transfer_settled {a : MultiAssetVault.TransferShares K} {amount : UInt64}
    {m : MultiAssetVault.State K} {ev : Option (MultiAssetVault.Event K)} (h : Reaches ledger ts s)
    (hok : MultiAssetVault.transferShares now s.view a amount s.multiSide = .ok (m, ev)) :
    ∃ source destination, s.ledger.account a.senderShareAccount = some source ∧
      s.ledger.account a.receiverShareAccount = some destination ∧
      ((Holds s now source.owner ∧ Holds s now destination.owner) ↔
        (source.owner = a.sender ∨ Accepts s now source.owner)) := by
  have hist := Reaches.credentialHistory h
  obtain ⟨v, source, destination, sc, rc, L, ht, -⟩ := MultiAssetVault.transferShares_spec hok
  refine ⟨source, destination, ht.sourceAccount, ht.destinationAccount, ?_⟩
  constructor
  · rintro ⟨hsource, -⟩
    exact .inr (hist.accepts_iff.mpr hsource)
  · intro hcond
    refine ⟨?_, holds_of_credentialed hist ht.receiver⟩
    rcases hcond with howner | haccepts
    · rw [howner]
      exact holds_of_credentialed hist ht.sender
    · exact hist.accepts_iff.mp haccepts

end Transfer

/-- Alice moves shares of hers between two accounts of hers. -/
def spare : List (Action FreeKey) :=
  Cluster.setUp ++ [Cluster.openSpare, Cluster.depositInto Cluster.aliceSpare 1000]

theorem transfer_settled_spare :
    ∃ source destination,
      (final (genesis Cluster.ledger) spare).ledger.account Cluster.aliceSpare = some source ∧
      (final (genesis Cluster.ledger) spare).ledger.account Cluster.aliceShares = some destination ∧
      ((Holds (final (genesis Cluster.ledger) spare) 0 source.owner ∧
          Holds (final (genesis Cluster.ledger) spare) 0 destination.owner) ↔
        (source.owner = OragamiVault.Cluster.alice ∨
          Accepts (final (genesis Cluster.ledger) spare) 0 source.owner)) := by
  obtain ⟨⟨m, ev⟩, hok⟩ := ok_of_isOk (show (MultiAssetVault.transferShares 0
    (final (genesis Cluster.ledger) spare).view (Cluster.toAlice Cluster.aliceSpare) 300
    (final (genesis Cluster.ledger) spare).multiSide).isOk = true from rfl)
  exact transfer_settled (Cluster.reaches_final (by decide)) hok

/-- Bob, who has no credential, lets Alice spend the shares she bought into his account. -/
def delegated : List (Action FreeKey) :=
  Cluster.setUp ++ [Cluster.openBob, Cluster.depositInto Cluster.bobShares 1000,
    .token (.approve Cluster.bobShares (some OragamiVault.Cluster.alice) 500 Cluster.bob)]

/-- Alice, signing as Bob's delegate, moves shares of his to her account. -/
theorem transfer_unsettled :
    ∃ ts s a amount source, Reaches Cluster.ledger ts s ∧
      (MultiAssetVault.transferShares 0 s.view a amount s.multiSide).isOk = true ∧
      s.ledger.account a.senderShareAccount = some source ∧ ¬ Holds s 0 source.owner := by
  have h : Reaches Cluster.ledger _ (final (genesis Cluster.ledger) delegated) :=
    Cluster.reaches_final (by decide)
  obtain ⟨source, hsource, howner⟩ := Option.map_eq_some_iff.mp
    (show ((final (genesis Cluster.ledger) delegated).ledger.account Cluster.bobShares).map
      (·.owner) = some Cluster.bob from rfl)
  refine ⟨_, _, Cluster.toAlice Cluster.bobShares, 300, source, h, rfl, hsource, ?_⟩
  rw [howner]
  intro hholds
  obtain ⟨cred, hgate, -⟩ := (Reaches.credentialHistory h).accepts_iff.mpr hholds
  cases hgate

/-! ## Shares credited by any instruction -/

/-- The time an instruction of either program ran at. -/
def Action.time {K : Type} : Action K → Option Int64
  | .vault now _ => some now
  | .multi now _ => some now
  | .token _ => none

/-- At time `now` an instruction raised the balance of `acc`, which holds shares of a vault. -/
structure Credits {K : Type} (now : Int64) (acc : TokenAccount K)
    (t : Transition (Chain K) (Action K)) : Prop where
  time : t.label.time = some now
  account : ∃ k, t.pre.ledger.account k = some acc ∧ acc.amount.toNat < t.post.ledger.amount k
  shares : ∃ j v, t.pre.multi.vaults j = some v ∧ acc.mint = v.shareMint

/-- The owner of the account was seen to: by the receiver's gate of `transfer_shares`, as the
depositor, or by chance. -/
inductive Vetted (now : Int64) (acc : TokenAccount K) (t : Transition (Chain K) (Action K)) : Prop
  | received {a amount} : t.label = .multi now (.transferShares a amount) → Vetted now acc t
  | own {a amount} : t.label = .multi now (.deposit a amount) → acc.owner = a.depositor →
      Vetted now acc t
  | accepted : Accepts t.pre now acc.owner → Vetted now acc t

section Credits

variable [TokenProgram K] {ledger : Ledger K} {ts : List (Transition (Chain K) (Action K))}
  {s : Chain K} {now : Int64} {acc : TokenAccount K} {t : Transition (Chain K) (Action K)}

/-- A transfer raises only the balance of the account it names as the receiver's. -/
theorem received_owner {m : MultiAssetVault.State K} {a : MultiAssetVault.TransferShares K}
    {amount : UInt64} {v : MultiAssetVault.AssetVault K} {source destination : TokenAccount K}
    {sc rc : MultiAssetVault.ComplianceCredential K} {view : MultiAssetVault.View K} {L : Ledger K}
    {k : K} (h : MultiAssetVault.Transferred now view a amount m v source destination sc rc L)
    (hacc : m.ledger.account k = some acc) (hlt : acc.amount.toNat < L.amount k) :
    acc = destination := by
  have hamount := (TokenProgram.transfer_evolves h.transfer).amount k
  rw [Ledger.amount_of_account hacc] at hamount
  have hk : k = a.receiverShareAccount := by
    by_contra hne
    rw [Pi.single_eq_of_ne hne] at hamount
    omega
  rw [hk] at hacc
  exact Option.some.inj (hacc.symm.trans h.destinationAccount)

/-- Whoever was seen to holds a credential, and nobody else does. -/
theorem Credits.holds_iff (hc : Credits now acc t) (hstep : Step t.pre t.label t.post)
    (hist : CredentialHistory ts t.pre) : Holds t.pre now acc.owner ↔ Vetted now acc t := by
  constructor
  · intro hholds
    exact .accepted (hist.accepts_iff.mpr hholds)
  · intro hvetted
    cases hvetted with
    | received hl =>
        obtain ⟨k, hacc, hlt⟩ := hc.account
        rw [hl] at hstep
        obtain ⟨m, ev, hexec, hpost⟩ := hstep.of_multi
        obtain ⟨v, source, destination, sc, rc, L, ht, rfl⟩ :=
          MultiAssetVault.transferShares_spec hexec
        rw [hpost] at hlt
        rw [received_owner ht hacc hlt]
        exact holds_of_credentialed hist ht.receiver
    | own hl howner =>
        rw [hl] at hstep
        obtain ⟨m, ev, hexec, -⟩ := hstep.of_multi
        obtain ⟨v, cred, shares, L, hd⟩ := MultiAssetVault.deposit_spec hexec
        rw [howner]
        exact holds_of_credentialed hist hd.credential
    | accepted haccepts => exact hist.accepts_iff.mp haccepts

/-- In every run, the owners of all share accounts that instructions credit hold a credential at
that moment if and only if each was seen to: as the receiver of a transfer, as the depositor, or
because it would have passed the gate. -/
theorem shares_to_holders (h : Reaches ledger ts s) :
    (∀ t ∈ ts, ∀ now acc, Credits now acc t → Holds t.pre now acc.owner) ↔
      ∀ t ∈ ts, ∀ now acc, Credits now acc t → Vetted now acc t := by
  have hiff : ∀ t ∈ ts, ∀ now acc, Credits now acc t →
      (Holds t.pre now acc.owner ↔ Vetted now acc t) := by
    intro t ht now acc hc
    obtain ⟨⟨before, hbefore⟩, hstep⟩ := h.of_mem ht
    exact hc.holds_iff hstep (Reaches.credentialHistory hbefore)
  constructor
  · intro hall t ht now acc hc
    exact (hiff t ht now acc hc).mp (hall t ht now acc hc)
  · intro hall t ht now acc hc
    exact (hiff t ht now acc hc).mpr (hall t ht now acc hc)

end Credits

theorem shares_to_holders_spare :
    (∀ t ∈ play (genesis Cluster.ledger) spare, ∀ now acc, Credits now acc t →
        Holds t.pre now acc.owner) ↔
      ∀ t ∈ play (genesis Cluster.ledger) spare, ∀ now acc, Credits now acc t →
        Vetted now acc t :=
  shares_to_holders (Cluster.reaches_final (by decide))

/-- Two vaults, one over the shares of the other, and a credential for Alice; no direct call. -/
def stacked : List (Action FreeKey) :=
  [Cluster.lift OragamiVault.Cluster.opening, Cluster.lift OragamiVault.Cluster.credential,
    Cluster.factory, Cluster.register, Cluster.registerOver]

/-- Alice deposits for shares in the account of the other vault, which no credential is for. -/
def misdirected : Action FreeKey :=
  Cluster.depositInto
    (MultiAssetVault.vaultTokenKey (MultiAssetVault.shareMintKey OragamiVault.Cluster.usdc)) 1000

theorem shares_to_stranger :
    ∃ ts s t acc, Reaches Cluster.ledger ts s ∧ (∀ u ∈ ts, u.label.time.isSome = true) ∧ t ∈ ts ∧
      Credits 0 acc t ∧ ¬ Holds t.pre 0 acc.owner := by
  have hbefore : Reaches Cluster.ledger _ (final (genesis Cluster.ledger) stacked) :=
    Cluster.reaches_final (by decide)
  have h : Reaches Cluster.ledger _ (final (genesis Cluster.ledger) (stacked ++ [misdirected])) :=
    Cluster.reaches_final (by decide)
  have ht : (play (genesis Cluster.ledger) (stacked ++ [misdirected]))[5]? =
      some ⟨final (genesis Cluster.ledger) stacked, misdirected,
        final (genesis Cluster.ledger) (stacked ++ [misdirected])⟩ := rfl
  obtain ⟨acc, hacc, hfields⟩ := Option.map_eq_some_iff.mp
    (show ((final (genesis Cluster.ledger) stacked).ledger.account
      (MultiAssetVault.vaultTokenKey (MultiAssetVault.shareMintKey OragamiVault.Cluster.usdc))).map
        (fun a => (a.owner, a.mint, a.amount)) =
      some (MultiAssetVault.assetVaultKey (MultiAssetVault.shareMintKey OragamiVault.Cluster.usdc),
        MultiAssetVault.shareMintKey OragamiVault.Cluster.usdc, 0) from rfl)
  simp only [Prod.mk.injEq] at hfields
  obtain ⟨howner, hmint, hzero⟩ := hfields
  obtain ⟨v, hv, hshare⟩ := Option.map_eq_some_iff.mp
    (show ((final (genesis Cluster.ledger) stacked).multi.vaults
      (MultiAssetVault.assetVaultKey OragamiVault.Cluster.usdc)).map (·.shareMint) =
      some (MultiAssetVault.shareMintKey OragamiVault.Cluster.usdc) from rfl)
  refine ⟨_, _, _, acc, h, ?_, List.mem_of_getElem? ht, ?_, ?_⟩
  · intro u hu
    have htimes : (stacked ++ [misdirected]).all (·.time.isSome) = true := by decide
    exact List.all_eq_true.mp htimes _ (label_mem_of_play hu)
  · refine ⟨rfl, ⟨_, hacc, ?_⟩, ⟨_, v, hv, hmint.trans hshare.symm⟩⟩
    rw [hzero]
    decide
  · rw [howner]
    intro hholds
    obtain ⟨cred, hgate, -⟩ := (Reaches.credentialHistory hbefore).accepts_iff.mpr hholds
    cases hgate

end Chain
