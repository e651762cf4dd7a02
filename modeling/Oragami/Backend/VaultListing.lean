/-
# `Oragami.Backend.VaultListing` — the list of vaults the custody backend shows

`getAllVaults` reads the factory, then the vault of each asset it lists, and leaves out
those that cannot be read.  The chain goes on meanwhile, so every account may be from
another moment.

A vault registered is never removed, and its asset never changes.  So the list has each
asset that was registered when the factory was read, once and in the order of
registration, unless a read fails, and no other (`getAllVaults_complete`).  What it says
of a vault is what the vault was like at some moment since, but for two flags: the IDL is
older than the program, so what is shown as paused is whether Travel Rule records are
asked for, and these never seem to be (`AssetVaultInfo.Shows`).
-/
import Oragami.Backend.Faithful
import Oragami.MultiAssetVault.Registry

namespace Backend

open Lts MultiAssetVault

variable {K : Type}

/-! ## The factory -/

/-- The data of the factory's account: the space paid for is zero where nothing is stored. -/
def factoryData (f : Factory K) : List (Cell K) :=
  f.serialize ++ .replicate (Factory.size - Borsh.width f.serialize) (.byte 0)

/-- The discriminator of `Factory` in `multi_asset_vault.idl.json`. -/
def factoryDiscriminator : Vector UInt8 8 := #[159, 68, 192, 61, 48, 249, 216, 202].toVector

/-- `factory.fetch`: the IDL has the factory as it is. -/
def decodeFactory (data : List (Cell K)) : Option (Factory K) := do
  let discriminator ← (Borsh.decode data : Option (Vector UInt8 8 × List (Cell K)))
  if discriminator.1 = factoryDiscriminator then
    let bump ← (Borsh.decode discriminator.2 : Option (UInt8 × List (Cell K)))
    let authority ← (Borsh.decode bump.2 : Option (K × List (Cell K)))
    let feeBps ← (Borsh.decode authority.2 : Option (UInt16 × List (Cell K)))
    let registeredAssets ← (Borsh.decodeVec feeBps.2 : Option (List K × List (Cell K)))
    pure {
      bump := bump.1
      authority := authority.1
      feeBps := feeBps.1
      registeredAssets := registeredAssets.1 }
  else none

theorem decodeFactory_data {f : Factory K} (h : f.registeredAssets.length < 256 ^ 4) :
    decodeFactory (factoryData f) = some f := by
  have hsame : MultiAssetVault.factoryDiscriminator = factoryDiscriminator := by decide
  simp only [decodeFactory, factoryData, Factory.serialize, List.append_assoc, Borsh.decode_encode,
    Borsh.decodeVec_encodeVec h, hsame, Option.bind_eq_bind, Option.bind_some, if_true,
    Option.pure_def]

structure FactoryInfo (K : Type) where
  pda : K
  authority : K
  feeBps : Int
  registeredAssets : List K

variable [Addresses K] [Deployment K]

/-- The chain as it is when the factory is read, if it is. -/
def getFactory (read : Option (Chain K)) : Except (Exception K) (FactoryInfo K) :=
  match read.bind fun s => s.multi.factory.bind fun f => decodeFactory (factoryData f) with
  | some raw => .ok {
      pda := factoryKey
      authority := raw.authority
      feeBps := raw.feeBps.toNat
      registeredAssets := raw.registeredAssets }
  | none => .error (.notFound "Factory not initialized")

/-- The vault of an asset, on the chain as it is when that vault is read; a failure is left
out. -/
def shown [BpsText] (readVault : K → Option (Chain K)) (mint : K) : Option (AssetVaultInfo K) :=
  (readVault mint).bind fun s => (getVaultByMint (.ofChain s) (some mint)).toOption

def getAllVaults [BpsText] (read : Option (Chain K)) (readVault : K → Option (Chain K)) :
    Except (Exception K) (List (AssetVaultInfo K)) := do
  let factory ← getFactory read
  pure (factory.registeredAssets.filterMap (shown readVault))

/-! ## Registered for good -/

variable [DecidableEq K] [TokenProgram K]

/-- The registry of the chain: list and vaults agree, and each vault is where its asset says. -/
structure Filed (s : Chain K) : Prop where
  registry : Registry s.multiSide
  located : ∀ k v, s.multi.vaults k = some v → k = assetVaultKey v.assetMint

omit [DecidableEq K] [TokenProgram K] in
theorem filed_genesis (ledger : Ledger K) : Filed (Chain.genesis ledger) where
  registry := registry_genesis ledger
  located := by
    intro k v hv
    cases hv

omit [TokenProgram K] in
/-- An instruction keeps the vaults where they are, and what is listed listed. -/
theorem filing_kept {s s' : State K} (h : Filing s s')
    (hlocated : ∀ k v, s.vaults k = some v → k = assetVaultKey v.assetMint) :
    (∀ k v, s'.vaults k = some v → k = assetVaultKey v.assetMint) ∧
      ∀ m ∈ s.registered, m ∈ s'.registered := by
  cases h with
  | idle hlist hvaults =>
      rw [hlist, hvaults]
      exact ⟨hlocated, fun _ hm => hm⟩
  | @list a p f hl =>
      rw [hl.state]
      constructor
      · intro k v hv
        rcases Anchor.update_some hv with ⟨rfl, rfl⟩ | ⟨-, hold⟩
        · exact hl.assetVault
        · exact hlocated k v hold
      · intro m hm
        rw [State.registered_of hl.factory] at hm
        exact List.mem_append_left _ hm
  | @rewrite j v v' hlist hv hvaults hkept =>
      rw [hlist, hvaults]
      refine ⟨?_, fun _ hm => hm⟩
      intro k w hw
      rcases Anchor.update_some hw with ⟨rfl, rfl⟩ | ⟨-, hold⟩
      · rw [hkept.assetMint]
        exact hlocated _ v hv
      · exact hlocated k w hold

theorem Filed.step {s s' : Chain K} {act : Chain.Action K} (h : Filed s)
    (hs : Chain.Step s act s') :
    Filed s' ∧ ∀ m ∈ s.multiSide.registered, m ∈ s'.multiSide.registered := by
  cases hs with
  | vault _ _ => exact ⟨⟨h.registry.idle rfl rfl, h.located⟩, fun _ hm => hm⟩
  | token _ _ => exact ⟨⟨h.registry.idle rfl rfl, h.located⟩, fun _ hm => hm⟩
  | @multi now c m ev _ hexec =>
      have hfiling := exec_filing hexec
      obtain ⟨hlocated, hlisted⟩ := filing_kept hfiling h.located
      refine ⟨⟨?_, hlocated⟩, hlisted⟩
      show Registry m
      cases hfiling with
      | idle hlist hvaults => exact h.registry.idle hlist hvaults
      | list hl => exact h.registry.list hl
      | rewrite hlist hv hvaults hkept => exact h.registry.rewrite hlist hv hvaults hkept

variable {ledger : Ledger K} {ts us : List (Transition (Chain K) (Chain.Action K))}
  {s s' : Chain K}

theorem reaches_filed (h : Chain.Reaches ledger ts s) : Filed s :=
  h.invariant (filed_genesis ledger) fun hs hstep => (hs.step hstep).1

/-- The vault of an asset once registered is there ever after. -/
theorem Filed.later (h : Filed s) (hrun : Run Chain.Step s us s') {m : K}
    (hm : m ∈ s.multiSide.registered) :
    ∃ v, s'.multi.vaults (assetVaultKey m) = some v ∧ v.assetMint = m := by
  have hkept : Filed s' ∧ m ∈ s'.multiSide.registered := by
    refine hrun.invariant (I := fun s => Filed s ∧ m ∈ s.multiSide.registered) ⟨h, hm⟩ ?_
    rintro s e s' ⟨hs, hin⟩ hstep
    obtain ⟨hs', hlisted⟩ := hs.step hstep
    exact ⟨hs', hlisted m hin⟩
  obtain ⟨v, hv⟩ := (hkept.1.registry.filed m).mpr hkept.2
  exact ⟨v, hv, (assetVaultKey_inj (hkept.1.located _ v hv)).symm⟩

/-! ## The list -/

section List

variable [BpsText] {f : Factory K} {readVault : K → Option (Chain K)}

omit [DecidableEq K] [TokenProgram K] in
theorem shown_eq_some {m : K} {v : AssetVault K} (hread : readVault m = some s)
    (hv : s.multi.vaults (assetVaultKey m) = some v) :
    shown readVault m = some (formatVault (Idl.record (assetVaultSeen v).values)) := by
  rw [shown, hread, Option.bind_some, getVaultByMint_ofChain hv]
  rfl

omit [DecidableEq K] [TokenProgram K] in
/-- One entry for each asset that can be read, in the order of the list. -/
theorem map_assetMint {mints : List K}
    (h : ∀ m ∈ mints, ∀ s ∈ readVault m, ∃ v, s.multi.vaults (assetVaultKey m) = some v ∧
      v.assetMint = m) :
    (mints.filterMap (shown readVault)).map (·.assetMint) =
      (mints.filter fun m => (readVault m).isSome).map some := by
  induction mints with
  | nil => rfl
  | cons m mints ih =>
      simp only [List.forall_mem_cons] at h
      cases hread : readVault m with
      | none =>
          have hout : shown readVault m = none := by rw [shown, hread, Option.bind_none]
          rw [List.filterMap_cons_none hout, List.filter_cons_of_neg (by simp [hread])]
          exact ih h.2
      | some s =>
          obtain ⟨v, hv, hmint⟩ := h.1 s hread
          rw [List.filterMap_cons_some (shown_eq_some hread hv),
            List.filter_cons_of_pos (by simp [hread]), List.map_cons, List.map_cons, ih h.2]
          congr 1
          exact congrArg some hmint

/-- Whatever happens between the reads: the list has each asset that was registered when the
factory was read and whose vault could be read, once and in that order, and no other; and it
shows each vault as it was at the moment it was read. -/
theorem getAllVaults_complete (h : Chain.Reaches ledger ts s)
    (hlater : ∀ m, ∀ s' ∈ readVault m, ∃ us, Run Chain.Step s us s') :
    (s.multi.factory = none →
      getAllVaults (some s) readVault = .error (.notFound "Factory not initialized")) ∧
    ∀ f, s.multi.factory = some f → ∃ infos, getAllVaults (some s) readVault = .ok infos ∧
      infos.map (·.assetMint) =
        (f.registeredAssets.filter fun m => (readVault m).isSome).map some ∧
      (infos.map (·.assetMint)).Nodup ∧
      (∀ m, some m ∈ infos.map (·.assetMint) ↔
        (∃ v, s.multi.vaults (assetVaultKey m) = some v) ∧ (readVault m).isSome = true) ∧
      ∀ info ∈ infos, ∃ m s' v, readVault m = some s' ∧
        s'.multi.vaults (assetVaultKey m) = some v ∧ info.Shows v := by
  have hr := reaches_filed h
  constructor
  · intro hnone
    simp only [getAllVaults, getFactory, Option.bind_some, hnone, Option.bind_none]
    rfl
  · intro f hf
    have hlist : s.multiSide.registered = f.registeredAssets := State.registered_of hf
    have hthere : ∀ m ∈ f.registeredAssets, ∀ s' ∈ readVault m,
        ∃ v, s'.multi.vaults (assetVaultKey m) = some v ∧ v.assetMint = m := by
      intro m hm s' hs'
      obtain ⟨us, hrun⟩ := hlater m s' hs'
      exact hr.later hrun (hlist ▸ hm)
    have hroom : f.registeredAssets.length < 256 ^ 4 := by
      have hle : f.registeredAssets.length ≤ 16 := hlist ▸ hr.registry.room
      omega
    have hmints := map_assetMint hthere
    refine ⟨_, ?_, hmints, ?_, ?_, ?_⟩
    · simp only [getAllVaults, getFactory, Option.bind_some, hf, decodeFactory_data hroom]
      rfl
    · rw [hmints]
      refine List.Nodup.map (fun _ _ heq => Option.some.inj heq) (List.Nodup.filter _ ?_)
      exact hlist ▸ hr.registry.distinct
    · intro m
      rw [hmints]
      simp only [List.mem_map, List.mem_filter, Option.some.injEq, exists_eq_right]
      rw [← hlist, ← hr.registry.filed m]
      rfl
    · intro info hinfo
      obtain ⟨m, hm, hentry⟩ := List.mem_filterMap.mp hinfo
      obtain ⟨s', hs', -⟩ := Option.bind_eq_some_iff.mp hentry
      obtain ⟨v, hv, -⟩ := hthere m hm s' hs'
      rw [shown_eq_some hs' hv] at hentry
      exact ⟨m, s', v, hs', hv, Option.some.inj hentry ▸ formatVault_shows v⟩

end List

/-! The factory lists one asset when it is read.  A second is registered before the vault of
the first is read: the list has the first alone. -/

namespace Listing

open Chain.Cluster

def before : Chain FreeKey := Chain.final (Chain.genesis Chain.Cluster.ledger) setUp

def after : Chain FreeKey := Chain.final before [registerOver]

theorem after_reached : Run Chain.Step before (Chain.play before [registerOver]) after := by
  refine Lts.play_run (P := fun act => ∀ k ∈ act.signer, ¬ Chain.Owned k) Chain.Step.of_apply ?_ _
  intro act hact k hk
  cases List.mem_singleton.mp hact
  cases hk
  exact not_owned_num

theorem before_factory :
    before.multi.factory = some
      { bump := 255, authority := OragamiVault.Cluster.admin, feeBps := 0,
        registeredAssets := [OragamiVault.Cluster.usdc] } := by
  rfl

end Listing

theorem getAllVaults_complete_overlapping :
    Listing.after.multiSide.registered.length = 2 ∧
      ∃ infos, getAllVaults (some Listing.before) (fun _ => some Listing.after) = .ok infos ∧
        infos.map (·.assetMint) = [some OragamiVault.Cluster.usdc] := by
  refine ⟨by decide +kernel, ?_⟩
  have hlater : ∀ m : FreeKey, ∀ s' ∈ (fun _ => some Listing.after : FreeKey → Option _) m,
      ∃ us, Run Chain.Step Listing.before us s' := by
    intro m s' hs
    cases hs
    exact ⟨_, Listing.after_reached⟩
  obtain ⟨infos, hinfos, hmints, -⟩ :=
    (getAllVaults_complete (Chain.Cluster.reaches_final (by decide)) hlater).2 _
      Listing.before_factory
  exact ⟨infos, hinfos, hmints⟩

end Backend
