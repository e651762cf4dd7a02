/-
# `Oragami.OragamiVault.Reserve` — what a proof of reserve proves

`verify_proof_of_reserve` adds up the balances of the vault's USDC account and of
the two strategy accounts `register_usx_accounts` stored.

* What it adds up is the vault's own, and each account once, exactly where the
  stored accounts are (`proof_counts_own`).  The instruction that stores them does
  not look at them, and neither does the proof: any account's balance can be
  counted, the USDC account's a second time.  Accounts that were in order when
  they were registered stay so, since the vault hands none of them over
  (`StrategyHeld.step`).
* The attestation it accepts is the operator's last post (`Attested`), no older
  than a day and of the hash the registry has at both times (`proof_attested`).
-/
import Oragami.OragamiVault.Accounting
import Oragami.OragamiVault.Configuration

namespace OragamiVault

open Anchor Addresses Lts Ledger

variable {K : Type}

/-! ## Whose balances are counted -/

section Counted

variable [DecidableEq K] [Addresses K]

/-- The accounts whose balances a proof of reserve adds up: those not registered are left out. -/
def VaultState.counted (vs : VaultState K) : List K :=
  vs.vaultTokenAccount ::
    [vs.vaultUsxAccount, vs.vaultEusxAccount].filter (· ≠ Addresses.default)

/-- Leaving an account out counts nothing for it. -/
theorem VaultState.sum_counted (vs : VaultState K) (L : Ledger K) :
    (vs.counted.map L.amount).sum = L.amount vs.vaultTokenAccount +
      registeredBalance L vs.vaultUsxAccount + registeredBalance L vs.vaultEusxAccount := by
  unfold VaultState.counted registeredBalance
  by_cases hx : vs.vaultUsxAccount = Addresses.default <;>
    by_cases he : vs.vaultEusxAccount = Addresses.default <;>
      simp [hx, he, Nat.add_assoc]

end Counted

section Own

variable [DecidableEq K] [Addresses K] [Deployment K]

/-- `total` is made of the balances of the counted accounts, which are different ones, all the
vault's, and of the registered mints. -/
structure CountsOwn (L : Ledger K) (vs : VaultState K) (total : UInt64) : Prop where
  total : total.toNat = (vs.counted.map L.amount).sum
  distinct : vs.counted.Nodup
  owned : ∀ k ∈ vs.counted, ∃ acc, L.account k = some acc ∧ acc.owner = vaultStateKey
  usx : vs.vaultUsxAccount ≠ Addresses.default →
    ∃ acc, L.account vs.vaultUsxAccount = some acc ∧ acc.mint = vs.usxMint
  eusx : vs.vaultEusxAccount ≠ Addresses.default →
    ∃ acc, L.account vs.vaultEusxAccount = some acc ∧ acc.mint = vs.eusxMint

/-- A strategy account is not registered, or is another account of the vault's, of its mint. -/
def AccountHeld (L : Ledger K) (k mint : K) : Prop :=
  k ≠ Addresses.default → k ≠ vaultTokenKey ∧ L.Holds k vaultStateKey mint

/-- What `register_usx_accounts` would have to ask of the accounts it stores. -/
structure StrategyHeld (L : Ledger K) (p : RegisterUsxAccountsParams K) : Prop where
  usx : AccountHeld L p.vaultUsxAccount p.usxMint
  eusx : AccountHeld L p.vaultEusxAccount p.eusxMint
  distinct : p.vaultUsxAccount ≠ Addresses.default → p.vaultUsxAccount ≠ p.vaultEusxAccount

variable {L : Ledger K} {vs : VaultState K} {total : UInt64}

omit [Deployment K] in
theorem mem_counted {k : K} : k ∈ vs.counted ↔ k = vs.vaultTokenAccount ∨
    (k = vs.vaultUsxAccount ∧ vs.vaultUsxAccount ≠ Addresses.default) ∨
      (k = vs.vaultEusxAccount ∧ vs.vaultEusxAccount ≠ Addresses.default) := by
  simp only [VaultState.counted, List.mem_cons, List.mem_filter, List.not_mem_nil, or_false,
    decide_eq_true_eq]
  constructor
  · rintro (h | ⟨rfl | rfl, hne⟩)
    · exact .inl h
    · exact .inr (.inl ⟨rfl, hne⟩)
    · exact .inr (.inr ⟨rfl, hne⟩)
  · rintro (h | ⟨rfl, hne⟩ | ⟨rfl, hne⟩)
    · exact .inl h
    · exact .inr ⟨.inl rfl, hne⟩
    · exact .inr ⟨.inr rfl, hne⟩

omit [Deployment K] in
theorem nodup_counted : vs.counted.Nodup ↔
    (vs.vaultUsxAccount ≠ Addresses.default → vs.vaultUsxAccount ≠ vs.vaultTokenAccount) ∧
      (vs.vaultEusxAccount ≠ Addresses.default → vs.vaultEusxAccount ≠ vs.vaultTokenAccount) ∧
      (vs.vaultUsxAccount ≠ Addresses.default → vs.vaultUsxAccount ≠ vs.vaultEusxAccount) := by
  unfold VaultState.counted
  by_cases hx : vs.vaultUsxAccount = Addresses.default <;>
    by_cases he : vs.vaultEusxAccount = Addresses.default <;>
      (simp only [hx, he, List.filter_cons, List.filter_nil, List.nodup_cons]; grind)

omit [DecidableEq K] in
/-- A registered account that is counted for the vault is held by it. -/
theorem holds_of_counted {k mint : K} (howned : ∃ acc, L.account k = some acc ∧ acc.owner = vaultStateKey)
    (hmint : ∃ acc, L.account k = some acc ∧ acc.mint = mint) : L.Holds k vaultStateKey mint := by
  obtain ⟨acc, hacc, howner⟩ := howned
  obtain ⟨acc', hacc', hm⟩ := hmint
  cases hacc.symm.trans hacc'
  exact ⟨acc, hacc, howner, hm⟩

/-- The sum is of the vault's own accounts exactly where the stored ones are. -/
theorem countsOwn_iff (hc : Custody L vs)
    (ht : total.toNat = L.amount vs.vaultTokenAccount + registeredBalance L vs.vaultUsxAccount +
      registeredBalance L vs.vaultEusxAccount) :
    CountsOwn L vs total ↔ StrategyHeld L vs.strategy := by
  constructor
  · rintro ⟨-, hdistinct, howned, husx, heusx⟩
    obtain ⟨hx, he, hxe⟩ := nodup_counted.mp hdistinct
    rw [hc.vaultTokenAccount] at hx he
    refine ⟨?_, ?_, hxe⟩
    · intro hne
      have hmem := howned _ (mem_counted.mpr (.inr (.inl ⟨rfl, hne⟩)))
      exact ⟨hx hne, holds_of_counted hmem (husx hne)⟩
    · intro hne
      have hmem := howned _ (mem_counted.mpr (.inr (.inr ⟨rfl, hne⟩)))
      exact ⟨he hne, holds_of_counted hmem (heusx hne)⟩
  · rintro ⟨hx, he, hxe⟩
    refine ⟨ht.trans (vs.sum_counted L).symm, nodup_counted.mpr ⟨?_, ?_, hxe⟩, ?_, ?_, ?_⟩
    · intro hne
      rw [hc.vaultTokenAccount]
      exact (hx hne).1
    · intro hne
      rw [hc.vaultTokenAccount]
      exact (he hne).1
    · intro k hk
      rcases mem_counted.mp hk with rfl | ⟨rfl, hne⟩ | ⟨rfl, hne⟩
      · obtain ⟨acc, hacc, howner, -⟩ := hc.account
        exact ⟨acc, hc.vaultTokenAccount ▸ hacc, howner⟩
      · obtain ⟨acc, hacc, howner, -⟩ := (hx hne).2
        exact ⟨acc, hacc, howner⟩
      · obtain ⟨acc, hacc, howner, -⟩ := (he hne).2
        exact ⟨acc, hacc, howner⟩
    · intro hne
      obtain ⟨acc, hacc, -, hmint⟩ := (hx hne).2
      exact ⟨acc, hacc, hmint⟩
    · intro hne
      obtain ⟨acc, hacc, -, hmint⟩ := (he hne).2
      exact ⟨acc, hacc, hmint⟩

end Own

/-! ## Accounts in order stay in order -/

/-- What a call has to keep to for the strategy accounts to be in order: those it registers are. -/
def Call.RegistersHeld [Addresses K] [Deployment K] (L : Ledger K) : Call K → Prop
  | .registerUsxAccounts _ p => StrategyHeld L p
  | _ => True

def Action.RegistersHeld [Addresses K] [Deployment K] (L : Ledger K) : Action K → Prop
  | .program _ c => c.RegistersHeld L
  | .token _ => True

/-- The strategy accounts the vault stores, if there is a vault, are in order. -/
def StrategyKept [Addresses K] [Deployment K] (s : State K) : Prop :=
  ∀ p, s.strategy = some p → StrategyHeld s.ledger p

section Kept

variable [DecidableEq K] [Addresses K] [Deployment K] [TokenProgram K] {s s' : State K}
  {ledger : Ledger K} {ts : List (Transition (State K) (Action K))}

omit [DecidableEq K] [TokenProgram K] in
/-- Where what the vault holds stays, so does the order of its accounts. -/
theorem StrategyHeld.mono {L L' : Ledger K} {p : RegisterUsxAccountsParams K}
    (hL : ∀ {k mint}, L.Holds k vaultStateKey mint → L'.Holds k vaultStateKey mint)
    (h : StrategyHeld L p) : StrategyHeld L' p where
  usx hne := ⟨(h.usx hne).1, hL (h.usx hne).2⟩
  eusx hne := ⟨(h.eusx hne).1, hL (h.eusx hne).2⟩
  distinct := h.distinct

/-- No step takes an account out of the vault's hands: no instruction hands one over, and nobody
else signs for the vault. -/
theorem Step.holds {act : Action K} {k mint : K} (h : Step s act s')
    (hk : s.ledger.Holds k vaultStateKey mint) : s'.ledger.Holds k vaultStateKey mint := by
  cases h with
  | program _ hexec =>
      rcases (exec_effect hexec).moves with ⟨_, _, _, _, he⟩ | ⟨_, -, hvacant, hopen⟩
      · exact hk.evolves he
      · rw [hopen]
        refine Holds.setAccount hk ?_
        rintro rfl
        obtain ⟨acc, hacc, -⟩ := hk
        cases hacc.symm.trans hvacant.1
  | @token c L hsig hrun =>
      refine TokenCall.run_holds hrun hk ?_
      rintro heq
      exact hsig (heq ▸ owned_vaultStateKey)

omit [DecidableEq K] [TokenProgram K] in
theorem unregistered_held {L : Ledger K} : StrategyHeld L (unregistered : RegisterUsxAccountsParams K) where
  usx hne := absurd rfl hne
  eusx hne := absurd rfl hne
  distinct hne := absurd rfl hne

theorem StrategyKept.step {act : Action K} (hs : StrategyKept s) (h : Step s act s')
    (hreg : act.RegistersHeld s.ledger) : StrategyKept s' := by
  have hL : ∀ {k mint}, s.ledger.Holds k vaultStateKey mint →
      s'.ledger.Holds k vaultStateKey mint := fun hk => h.holds hk
  cases h with
  | @program _ now c ev _ hexec =>
      intro p hp
      rw [(exec_written hexec).strategy] at hp
      cases c with
      | initializeVault a q =>
          cases hp
          exact unregistered_held
      | registerUsxAccounts a q =>
          cases hp
          exact StrategyHeld.mono hL hreg
      | _ => exact (hs p hp).mono hL
  | token _ _ =>
      intro p hp
      exact (hs p hp).mono hL

/-- In a run that registers accounts in order, they are in order. -/
theorem Reaches.strategyKept (h : Reaches ledger ts s)
    (hreg : ∀ t ∈ ts, t.label.RegistersHeld t.pre.ledger) : StrategyKept s := by
  refine (Run.kept (I := StrategyKept) (G := fun t => t.label.RegistersHeld t.pre.ledger) ?_ ?_ h hreg).1
  · intro p hp
    cases hp
  · intro s act s' hs hstep hG
    exact hs.step hstep hG

/-- A proof of reserve adds up the vault's own accounts, each once, exactly where the strategy
accounts registered are two other accounts of the vault's, of the registered mints; and it does
all along a run that registers only such, as no account is closed in a run. -/
theorem proof_counts_own {now : Int64} {a : VerifyProofOfReserve K} {ev : Option (Event K)}
    (h : Reaches ledger ts s) (hv : verifyProofOfReserve now a s = .ok (s', ev)) :
    ∃ vs total ratio gold attestedAt, s.vaultState = some vs ∧
      ev = some (.proofOfReserveOk vaultStateKey total vs.totalDeposits ratio gold attestedAt) ∧
      (CountsOwn s.ledger vs total ↔ StrategyHeld s.ledger vs.strategy) ∧
      ((∀ t ∈ ts, t.label.RegistersHeld t.pre.ledger) → CountsOwn s.ledger vs total) := by
  obtain ⟨-, vs, m, reg, att, total, hverified, rfl⟩ := verifyProofOfReserve_verified hv
  have hiff := countsOwn_iff (h.guarded vs hverified.vaultState) hverified.counted
  refine ⟨vs, total, _, _, _, hverified.vaultState, by rw [hverified.vaultStateKey], hiff, ?_⟩
  intro hreg
  exact hiff.mpr (h.strategyKept hreg _ (strategy_of_some hverified.vaultState))

end Kept

/-! ### Two registrations -/

namespace Cluster

def register (p : RegisterUsxAccountsParams FreeKey) : Action FreeKey :=
  .program 0 (.registerUsxAccounts { vaultState := vaultStateKey, operator := admin } p)

def vaultUsx : FreeKey := .num 40

/-- An account of the vault's, opened for the purpose. -/
def held : RegisterUsxAccountsParams FreeKey where
  usxMint := usdc
  eusxMint := Addresses.default
  vaultUsxAccount := vaultUsx
  vaultEusxAccount := Addresses.default

/-- The vault's USDC account over again. -/
def aliasing : RegisterUsxAccountsParams FreeKey where
  usxMint := usdc
  eusxMint := Addresses.default
  vaultUsxAccount := vaultTokenKey
  vaultEusxAccount := Addresses.default

def withStrategy : List (Action FreeKey) :=
  setUp ++ [deposit 1000, .token (.openAccount usdc vaultStateKey vaultUsx), register held]

def aliased : List (Action FreeKey) := setUp ++ [deposit 1000, register aliasing]

end Cluster

open Cluster in
theorem proof_counts_own_held : ∃ vs total,
    CountsOwn (final (.genesis ledger) withStrategy).ledger vs total := by
  obtain ⟨vs, total, _, _, _, hvs, -, hiff, -⟩ := proof_counts_own
    (reaches_final (show withStrategy.all _ = true by decide))
    (ok_of_isOk (show (verifyProofOfReserve 0
      { reserveAccounts with vaultUsxTokenAccount := some vaultUsx }
      (final (.genesis ledger) withStrategy)).isOk = true from rfl)).choose_spec
  have hheld : some vs.strategy = some held := (strategy_of_some hvs).symm
  refine ⟨vs, total, hiff.mpr ?_⟩
  rw [Option.some.inj hheld]
  refine ⟨?_, ?_, ?_⟩
  · intro _
    exact ⟨by decide, _, rfl, rfl, rfl⟩
  · intro hne
    exact absurd rfl hne
  · intro _
    show vaultUsx ≠ Addresses.default
    decide

namespace Cluster

/-- The vault owns one token account. -/
theorem aliased_owned {k : FreeKey} {acc : TokenAccount FreeKey}
    (hacc : (final (.genesis ledger) aliased).ledger.account k = some acc)
    (howner : acc.owner = vaultStateKey) : k = vaultTokenKey := by
  by_contra hk
  obtain ⟨_, _, a, _, c, hledger, ha, hc⟩ : ∃ v w a v' c,
      (final (.genesis ledger) aliased).ledger.account =
        Function.update (Function.update (Function.update (Function.update (Function.update
          ledger.account vaultTokenKey v) aliceCvault w) aliceUsdc a) vaultTokenKey v') aliceCvault c ∧
        a.map (·.owner) = some alice ∧ c.map (·.owner) = some alice := ⟨_, _, _, _, _, rfl, rfl, rfl⟩
  have hother : acc.owner ≠ alice := by
    rw [howner]
    decide
  rw [hledger] at hacc
  by_cases hcvault : k = aliceCvault
  · rw [hcvault, Function.update_self] at hacc
    rw [hacc] at hc
    exact hother (Option.some.inj hc)
  rw [Function.update_of_ne hcvault, Function.update_of_ne hk] at hacc
  by_cases husdc : k = aliceUsdc
  · rw [husdc, Function.update_self] at hacc
    rw [hacc] at ha
    exact hother (Option.some.inj ha)
  rw [Function.update_of_ne husdc, Function.update_of_ne hcvault, Function.update_of_ne hk] at hacc
  simp only [ledger, if_neg husdc] at hacc
  split at hacc
  · cases hacc
    exact hother rfl
  · cases hacc

end Cluster

open Cluster in
/-- A thousand deposited, and two thousand counted: no sum of distinct accounts of the vault's. -/
theorem proof_counts_twice :
    ∃ ts s a s' total deposits ratio gold attestedAt, Reaches ledger ts s ∧
      verifyProofOfReserve 0 a s =
        .ok (s', some (.proofOfReserveOk vaultStateKey total deposits ratio gold attestedAt)) ∧
      ∀ ks : List FreeKey, ks.Nodup →
        (∀ k ∈ ks, ∃ acc, s.ledger.account k = some acc ∧ acc.owner = vaultStateKey) →
        total.toNat ≠ (ks.map s.ledger.amount).sum := by
  refine ⟨_, _, { reserveAccounts with vaultUsxTokenAccount := some vaultTokenKey }, _, 2000, 1000,
    10000, 0, 0, reaches_final (show aliased.all _ = true by decide), rfl, ?_⟩
  intro ks hnodup howned
  have honly : ∀ k ∈ ks, k = vaultTokenKey := by
    intro k hk
    obtain ⟨acc, hacc, howner⟩ := howned k hk
    exact aliased_owned hacc howner
  have hamount : (final (.genesis ledger) aliased).ledger.amount vaultTokenKey = 1000 := rfl
  cases ks with
  | nil => decide
  | cons k rest =>
      simp only [List.forall_mem_cons] at honly
      obtain ⟨rfl, hrest⟩ := honly
      cases rest with
      | nil =>
          rw [List.map_singleton, List.sum_singleton, hamount]
          decide
      | cons k' rest =>
          have hk' := hrest k' List.mem_cons_self
          rw [hk'] at hnodup
          exact absurd List.mem_cons_self (List.nodup_cons.mp hnodup).1

/-! ## Which attestation is accepted -/

/-- The clock's time at an instruction; direct calls to the token program read none. -/
def Action.now : Action K → Option Int64
  | .program now _ => some now
  | .token _ => none

/-- The times of a run, in order. -/
def times (ts : List (Transition (State K) (Action K))) : List Int64 :=
  ts.filterMap fun t => t.label.now

/-- The attestation is posted. -/
def Action.Posts : Action K → Prop
  | .program _ (.postReserveAttestation _ _) => True
  | _ => False

section Attested

variable [DecidableEq K] [Addresses K]

/-- The operator posted `p` at `u`, of the hash then in the registry. -/
def Posted (u : Int64) (p : PostReserveAttestationParams) (t : Transition (State K) (Action K)) :
    Prop :=
  ∃ a vs reg, t.label = .program u (.postReserveAttestation a p) ∧ t.pre.vaultState = some vs ∧
    a.operator = operatorPubkey vs ∧ t.pre.rwaAssetRegistry = some reg ∧
    p.attestationHash = reg.linkHash

/-- The attestation stored, if there is one, is the operator's last post. -/
def Attested (ts : List (Transition (State K) (Action K))) (s : State K) : Prop :=
  ∀ att, s.reserveAttestation = some att → ∃ p, att.attestationHash = p.attestationHash ∧
    att.goldUnitsHeld = p.goldUnitsHeld ∧
    Since ts (Posted att.attestedAt p) fun t => t.label.Posts

variable [Deployment K] [TokenProgram K] {ledger : Ledger K} {s s' : State K}
  {ts : List (Transition (State K) (Action K))}

/-- A step that posts nothing leaves the attestation. -/
theorem Step.attestation {act : Action K} (h : Step s act s') (hposts : ¬ act.Posts) :
    s'.reserveAttestation = s.reserveAttestation := by
  cases h with
  | @program _ now c ev _ hexec =>
      rw [(exec_written hexec).attestation]
      cases c with
      | postReserveAttestation a p => exact absurd trivial hposts
      | _ => rfl
  | token _ _ => rfl

theorem Attested.step {act : Action K} (hs : Attested ts s) (h : Step s act s') :
    Attested (ts ++ [⟨s, act, s'⟩]) s' := by
  intro att hatt
  by_cases hposts : act.Posts
  · cases h with
    | @program _ now c ev _ hexec =>
        cases c with
        | postReserveAttestation a p =>
            obtain ⟨vs, reg, hvs, hop, hreg, hhash, rfl⟩ := postReserveAttestation_posted hexec
            cases hatt
            refine ⟨p, rfl, rfl, since_snoc_iff.mpr (.inl ?_)⟩
            exact ⟨a, vs, reg, rfl, hvs, hop.symm, hreg, hhash⟩
        | _ => cases hposts
    | token _ _ => cases hposts
  · rw [h.attestation hposts] at hatt
    obtain ⟨p, hhash, hgold, hsince⟩ := hs att hatt
    exact ⟨p, hhash, hgold, since_snoc_iff.mpr (.inr ⟨hsince, hposts⟩)⟩

theorem Reaches.attested (h : Reaches ledger ts s) : Attested ts s := by
  refine Run.history (I := Attested) ?_ ?_ h
  · intro att hatt
    cases hatt
  · intro _ _ _ _ _ hs hstep
    exact hs.step hstep

/-- A proof of reserve rests on the operator's last post: at most a day old, of the hash the
registry had then and has now, and it is that post's gold and time the proof announces. -/
theorem proof_attested {now : Int64} {a : VerifyProofOfReserve K} {ev : Option (Event K)}
    (h : Reaches ledger ts s) (hclock : (times ts ++ [now]).Pairwise (· ≤ ·))
    (hv : verifyProofOfReserve now a s = .ok (s', ev)) :
    ∃ u p reg, Since ts (Posted u p) (fun t => t.label.Posts) ∧
      now.toInt - 86400 ≤ u.toInt ∧ u ≤ now ∧
      s.rwaAssetRegistry = some reg ∧ p.attestationHash = reg.linkHash ∧
      ∃ total deposits ratio, ev = some
        (.proofOfReserveOk vaultStateKey total deposits ratio p.goldUnitsHeld u) := by
  obtain ⟨-, vs, m, reg, att, total, hverified, rfl⟩ := verifyProofOfReserve_verified hv
  obtain ⟨p, hhash, hgold, hsince⟩ := h.attested att hverified.attestation
  have hfresh := hverified.fresh
  refine ⟨att.attestedAt, p, reg, hsince, by omega, ?_, hverified.registry, ?_, total,
    vs.totalDeposits, m.minCollateralRatioBps, ?_⟩
  · -- the post is in the run, and the run is over
    obtain ⟨before, t, after, rfl, ⟨b, _, _, hlabel, -⟩, -⟩ := hsince
    refine (List.pairwise_append.mp hclock).2.2 _ ?_ now List.mem_cons_self
    refine List.mem_filterMap.mpr ⟨t, List.mem_append_right _ List.mem_cons_self, ?_⟩
    rw [hlabel]
    rfl
  · rw [← hhash]
    exact hverified.hash
  · rw [hverified.vaultStateKey, hgold]

end Attested

open Cluster in
/-- Posted at the start, still good ten seconds later. -/
theorem proof_attested_setUp : ∃ u p reg ev,
    Since (play (.genesis ledger) setUp) (Posted u p) (fun t => t.label.Posts) ∧ u ≤ 10 ∧
      (final (.genesis ledger) setUp).rwaAssetRegistry = some reg ∧
      p.attestationHash = reg.linkHash ∧
      verifyProofOfReserve 10 reserveAccounts (final (.genesis ledger) setUp) =
        .ok (final (.genesis ledger) setUp, ev) := by
  obtain ⟨⟨s', ev⟩, hv⟩ := ok_of_isOk (show (verifyProofOfReserve 10 reserveAccounts
    (final (.genesis ledger) setUp)).isOk = true from rfl)
  have hclock : (times (play (.genesis ledger) setUp) ++ [10]).Pairwise (· ≤ ·) := by
    show ([0, 0, 0, 0, 0, 10] : List Int64).Pairwise (· ≤ ·)
    decide
  obtain ⟨u, p, reg, hsince, -, hle, hreg, hhash, -⟩ :=
    proof_attested (reaches_final (show setUp.all _ = true by decide)) hclock hv
  have hsame := verifyProofOfReserve_state hv
  exact ⟨u, p, reg, ev, hsince, hle, hreg, hhash, hsame ▸ hv⟩

end OragamiVault
