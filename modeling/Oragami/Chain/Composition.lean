/-
# `Oragami.Chain.Composition` — each program on the chain, as if it were alone

The two programs share the ledger: one may hold the shares of the other, and
anybody may trade with both.  What is proved of runs of one program alone carries
over to the chain because the other never touches its accounts and reaches the
ledger by calls to the token program only, none of which an address of the first
signs.  So a run of the chain, seen from a program, is a run of that program in
which every instruction of the other is a few direct calls
(`refines_both`).
-/
import Oragami.Chain.Scenario
import Oragami.Lib.TokenRun

open Lts TokenCall

/-! ## Instructions as token calls -/

namespace OragamiVault

open Anchor Addresses

variable {K : Type} [DecidableEq K] [Addresses K] [Deployment K] [TokenProgram K] {now : Int64}
  {s s' : State K} {c : Call K}

/-- What an instruction of oragami-vault does to the ledger. -/
theorem Effect.issues (h : Effect now s c s') :
    ∃ cs, Issues Owned c.signer s.ledger cs s'.ledger := by
  have still : ∀ {signer : Option K} {L L' : Ledger K}, L' = L → ∃ cs, Issues Owned signer L cs L' := by
    rintro signer L _ rfl
    exact ⟨[], .none _⟩
  -- the vault state signs where its address was checked
  have vault : ∀ {k : K} {vs : VaultState K}, s.loadVaultState k = .ok vs → Owned k := by
    intro k vs hload
    rw [(loadVaultState_eq_ok.mp hload).1]
    exact owned_vaultStateKey
  cases h with
  | quiet hq => exact still hq.ledger
  | init hi =>
      rw [hi.ledger]
      exact ⟨_, .opening hi.cvaultVacant hi.depositMint hi.tokenVacant (derivedBy_find _ _)
        (derivedBy_find _ _)⟩
  | setNav _ => exact still rfl
  | issue hw _ _ _ _ _ => exact still (hw.state ▸ rfl)
  | revoke hw _ _ => exact still (hw.state ▸ rfl)
  | record _ _ _ _ _ _ => exact still rfl
  | deposit hd =>
      exact ⟨[.transfer _ _ _ _, .mintTo _ _ _ _],
        .two hd.transfer hd.mint (.inl rfl) (.inr (vault hd.vaultState))⟩
  | redeem hr =>
      exact ⟨[.burn _ _ _ _, .transfer _ _ _ _],
        .two hr.burn hr.transfer (.inl rfl) (.inr (vault hr.vaultState))⟩
  | convert hx =>
      exact ⟨[.burn _ _ _ _, .mintTo _ _ _ _],
        .two hx.burn hx.mint (.inl rfl) (.inr (vault hx.vaultState))⟩
  | rewrap hu hm =>
      exact ⟨[.burn _ _ _ _, .mintTo _ _ _ _],
        .two hu.burn hm (.inl rfl) (.inr (vault hu.vaultState))⟩
  | payOut hu hp =>
      exact ⟨[.burn _ _ _ _, .transfer _ _ _ _],
        .two hu.burn hp.transfer (.inl rfl) (.inr (vault hu.vaultState))⟩

end OragamiVault

namespace MultiAssetVault

open Anchor Addresses

variable {K : Type} [DecidableEq K] [Addresses K] [Deployment K] [TokenProgram K] {now : Int64}
  {view : View K} {s s' : State K} {c : Call K}

/-- What an instruction of multi-asset-vault does to the ledger. -/
theorem Effect.issues (h : Effect now view s c s') :
    ∃ cs, Issues Owned (some c.signer) s.ledger cs s'.ledger := by
  have still : ∀ {signer : Option K} (L : Ledger K), ∃ cs, Issues Owned signer L cs L :=
    fun L => ⟨[], .none L⟩
  have vault : ∀ {k : K} {v : AssetVault K}, s.loadVault k = .ok v → Owned k := by
    intro k v hload
    exact ⟨_, _, (loadVault_eq_ok.mp hload).2⟩
  cases h with
  | openFactory _ _ => exact still _
  | register hr =>
      rw [hr.state]
      exact ⟨_, .opening hr.shareVacant hr.assetMint hr.tokenVacant
        (hr.shareMint ▸ derivedBy_find _ _) (hr.vaultTokenAccount ▸ derivedBy_find _ _)⟩
  | setNav _ _ _ => exact still _
  | pause _ _ => exact still _
  | issue _ _ _ _ _ _ _ => exact still _
  | revoke _ _ _ => exact still _
  | record _ _ _ _ _ _ => exact still _
  | deposit hd =>
      exact ⟨[.transfer _ _ _ _, .mintTo _ _ _ _],
        .two hd.transfer hd.mint (.inl rfl) (.inr (vault hd.vault))⟩
  | redeem hr =>
      exact ⟨[.burn _ _ _ _, .transfer _ _ _ _],
        .two hr.burn hr.transfer (.inl rfl) (.inr (vault hr.vault))⟩
  | transfer ht => exact ⟨[.transfer _ _ _ _], .one ht.transfer (.inl rfl)⟩

end MultiAssetVault

namespace Chain

open Addresses

variable {K : Type} [DecidableEq K] [Addresses K] [Deployment K] [TokenProgram K]

omit [DecidableEq K] [TokenProgram K] in
/-- No address belongs to both programs. -/
theorem not_owned_both {k : K} (h : OragamiVault.Owned k) : ¬ MultiAssetVault.Owned k := by
  rintro ⟨ss', b', h'⟩
  obtain ⟨ss, b, rfl⟩ := h
  exact Deployment.vault_ne_multi (derive_inj h').1

/-! ## One program seen alone -/

theorem vault_hosts : Hosts (K := K) OragamiVault.Step OragamiVault.State.ledger
    (fun s L => { s with ledger := L }) OragamiVault.Action.token OragamiVault.Owned where
  get_put _ _ := rfl
  put_get _ := rfl
  put_put _ _ _ := rfl
  call hsig hrun := .token hsig hrun

theorem multi_hosts : Hosts (K := K) MultiAssetVault.Step MultiAssetVault.State.ledger
    (fun s L => { s with ledger := L }) MultiAssetVault.Action.token MultiAssetVault.Owned where
  get_put _ _ := rfl
  put_get _ := rfl
  put_put _ _ _ := rfl
  call hsig hrun := .token hsig hrun

omit [DecidableEq K] [TokenProgram K] in
/-- The calls another program makes are signed by who signed its instruction, or by an address
of that program. -/
def Forwards (P : K → Prop) (signer : Option K) (cs : List (TokenCall K)) : Prop :=
  ∀ c ∈ cs, c.signer ∈ signer ∨ P c.signer

/-- A transition of the chain as oragami-vault sees it. -/
def VaultView (t : Transition (Chain K) (Action K))
    (us : List (Transition (OragamiVault.State K) (OragamiVault.Action K))) : Prop :=
  match t.label with
  | .vault now c => us = [⟨t.pre.vaultSide, .program now c, t.post.vaultSide⟩]
  | .token c => us = [⟨t.pre.vaultSide, .token c, t.post.vaultSide⟩]
  | .multi _ c => ∃ cs, us.map (·.label) = cs.map .token ∧
      Forwards MultiAssetVault.Owned (some c.signer) cs

/-- A transition of the chain as multi-asset-vault sees it. -/
def MultiView (t : Transition (Chain K) (Action K))
    (us : List (Transition (MultiAssetVault.State K) (MultiAssetVault.Action K))) : Prop :=
  match t.label with
  | .multi now c => us = [⟨t.pre.multiSide, .program now t.pre.view c, t.post.multiSide⟩]
  | .token c => us = [⟨t.pre.multiSide, .token c, t.post.multiSide⟩]
  | .vault _ c => ∃ cs, us.map (·.label) = cs.map .token ∧
      Forwards OragamiVault.Owned c.signer cs

section Steps

variable {s s' : Chain K} {act : Action K}

theorem Step.vaultView (h : Step s act s') :
    ∃ us, VaultView ⟨s, act, s'⟩ us ∧ Run OragamiVault.Step s.vaultSide us s'.vaultSide := by
  cases h with
  | @vault now c v ev hsig hexec =>
      refine ⟨_, rfl, Run.cons (.program ?_ hexec) .nil⟩
      intro k hk hown
      exact hsig k hk (.inl hown)
  | @multi now c m ev hsig hexec =>
      obtain ⟨cs, hcs⟩ := (MultiAssetVault.exec_effect hexec).issues
      have hsigner : ∀ k ∈ some c.signer, ¬ OragamiVault.Owned k := by
        intro k hk hown
        exact hsig (Option.some.inj hk ▸ .inl hown)
      obtain ⟨us, hlabels, hrun⟩ := vault_hosts.run_of_issues (s := s.vaultSide) hcs hsigner
        fun k hmulti hvault => not_owned_both hvault hmulti
      exact ⟨us, ⟨cs, hlabels, hcs.signed⟩, hrun⟩
  | token hsig hrun =>
      exact ⟨_, rfl, Run.cons (.token (fun hown => hsig (.inl hown)) hrun) .nil⟩

theorem Step.multiView (h : Step s act s') :
    ∃ us, MultiView ⟨s, act, s'⟩ us ∧ Run MultiAssetVault.Step s.multiSide us s'.multiSide := by
  cases h with
  | @vault now c v ev hsig hexec =>
      obtain ⟨cs, hcs⟩ := (OragamiVault.exec_effect hexec).issues
      have hsigner : ∀ k ∈ c.signer, ¬ MultiAssetVault.Owned k := by
        intro k hk hown
        exact hsig k hk (.inr hown)
      obtain ⟨us, hlabels, hrun⟩ := multi_hosts.run_of_issues (s := s.multiSide) hcs hsigner
        fun k hvault => not_owned_both hvault
      exact ⟨us, ⟨cs, hlabels, hcs.signed⟩, hrun⟩
  | @multi now c m ev hsig hexec =>
      exact ⟨_, rfl, Run.cons (.program (fun hown => hsig (.inr hown)) hexec) .nil⟩
  | token hsig hrun =>
      exact ⟨_, rfl, Run.cons (.token (fun hown => hsig (.inr hown)) hrun) .nil⟩

end Steps

/-! ## Runs -/

section Runs

variable {ledger : Ledger K} {ts : List (Transition (Chain K) (Action K))} {s : Chain K}

theorem Reaches.vaultRun (h : Reaches ledger ts s) :
    ∃ uss, List.Forall₂ VaultView ts uss ∧ OragamiVault.Reaches ledger uss.flatten s.vaultSide :=
  Run.expand (f := vaultSide) (fun _ hs => hs.vaultView) h

theorem Reaches.multiRun (h : Reaches ledger ts s) :
    ∃ uss, List.Forall₂ MultiView ts uss ∧ MultiAssetVault.Reaches ledger uss.flatten s.multiSide :=
  Run.expand (f := multiSide) (fun _ hs => hs.multiView) h

/-- Every run of the chain is, seen from either program, a run of that program alone, from the
same ledger to its side of the chain's state: its own instructions and the direct calls are
the same transitions, and an instruction of the other program is a few direct calls, each
signed by who signed the instruction or by an address of that program. -/
theorem programs_compose (h : Reaches ledger ts s) :
    (∃ uss, List.Forall₂ VaultView ts uss ∧
      OragamiVault.Reaches ledger uss.flatten s.vaultSide) ∧
    ∃ uss, List.Forall₂ MultiView ts uss ∧
      MultiAssetVault.Reaches ledger uss.flatten s.multiSide :=
  ⟨h.vaultRun, h.multiRun⟩

theorem programs_compose_twoDeposits :
    (∃ uss, List.Forall₂ VaultView (play (genesis Cluster.ledger) Cluster.twoDeposits) uss ∧
      OragamiVault.Reaches Cluster.ledger uss.flatten
        (final (genesis Cluster.ledger) Cluster.twoDeposits).vaultSide) ∧
    ∃ uss, List.Forall₂ MultiView (play (genesis Cluster.ledger) Cluster.twoDeposits) uss ∧
      MultiAssetVault.Reaches Cluster.ledger uss.flatten
        (final (genesis Cluster.ledger) Cluster.twoDeposits).multiSide :=
  programs_compose Cluster.twoDeposits_reaches

end Runs

end Chain
