/-
# `Oragami.MultiAssetVault.Registry` — the registered assets and their vaults

The factory lists the assets, `init` opens a vault for each, and neither is ever
removed: in every run the list and the vaults name the same assets, each once.

`Filing` says what an instruction can do to either.  Only `register_asset` files an
asset; whatever rewrites a vault leaves its asset and its limits as they are, and
its NAV positive.
-/
import Mathlib.Data.List.Nodup
import Oragami.MultiAssetVault.Accounting
import Oragami.MultiAssetVault.Scenario

namespace MultiAssetVault

open Anchor Addresses Lts

variable {K : Type}

/-! ## The factory account -/

/-- The first eight bytes of the hash of `account:Factory`. -/
def factoryDiscriminator : Vector UInt8 8 := #v[159, 68, 192, 61, 48, 249, 216, 202]

/-- `Factory::SIZE`, the space `initialize_factory` pays for. -/
def Factory.size : Nat := 8 + 1 + 32 + 2 + 4 + 32 * maxAssets

/-- The data of the factory's account. -/
def Factory.serialize (f : Factory K) : List (Cell K) :=
  Borsh.encode factoryDiscriminator ++ (Borsh.encode f.bump ++ (Borsh.encode f.authority ++
    (Borsh.encode f.feeBps ++ Borsh.encodeVec f.registeredAssets)))

theorem Factory.width_serialize (f : Factory K) :
    Borsh.width f.serialize = 8 + 1 + 32 + 2 + 4 + 32 * f.registeredAssets.length := by
  have hassets : Borsh.width (Borsh.encodeVec f.registeredAssets : List (Cell K)) =
      4 + f.registeredAssets.length * 32 := Borsh.width_encodeVec fun _ => rfl
  simp only [Factory.serialize, Borsh.width_append, Borsh.width_encode_vector,
    Borsh.width_encode_byte, Borsh.width_encode_key, Borsh.width_encode_uint16, hassets]
  omega

/-! ## The registry -/

/-- The assets registered: none before there is a factory. -/
def State.registered (s : State K) : List K := (s.factory.map (·.registeredAssets)).getD []

theorem State.registered_of {s : State K} {f : Factory K} (h : s.factory = some f) :
    s.registered = f.registeredAssets := by
  rw [State.registered, h]
  rfl

theorem State.mem_registered {s : State K} {m : K} :
    m ∈ s.registered ↔ ∃ f, s.factory = some f ∧ m ∈ f.registeredAssets := by
  constructor
  · intro hm
    rcases hf : s.factory with _ | f
    · rw [State.registered, hf] at hm
      cases hm
    · rw [State.registered_of hf] at hm
      exact ⟨f, rfl, hm⟩
  · rintro ⟨f, hf, hm⟩
    rwa [State.registered_of hf]

/-- A vault that prices its shares and admits some deposit amounts. -/
structure Sane (v : AssetVault K) : Prop where
  navPriceBps : 0 < v.navPriceBps
  limits : v.minDeposit ≤ v.maxDeposit

variable [Addresses K] [Deployment K]

theorem assetVaultKey_inj {m m' : K} (h : assetVaultKey m = assetVaultKey m') : m = m' := by
  have hs := (find_inj h).2
  simp only [List.cons.injEq, Seed.key.injEq, and_true, true_and] at hs
  exact hs

/-- The list and the vaults agree. -/
structure Registry (s : State K) : Prop where
  distinct : s.registered.Nodup
  room : s.registered.length ≤ maxAssets
  filed : ∀ m, (∃ v, s.vaults (assetVaultKey m) = some v) ↔ m ∈ s.registered
  sane : ∀ k v, s.vaults k = some v → Sane v

theorem registry_genesis (ledger : Ledger K) : Registry (State.genesis ledger) where
  distinct := List.nodup_nil
  room := Nat.zero_le _
  filed m := by
    constructor
    · rintro ⟨v, hv⟩
      cases hv
    · intro hm
      cases hm
  sane k v hv := by cases hv

theorem Registry.idle {s s' : State K} (hr : Registry s)
    (hlist : s'.registered = s.registered) (hvaults : s'.vaults = s.vaults) : Registry s' where
  distinct := hlist ▸ hr.distinct
  room := hlist ▸ hr.room
  filed m := by
    rw [hlist, hvaults]
    exact hr.filed m
  sane k v hv := hr.sane k v (hvaults ▸ hv)

/-! ## What an instruction files -/

variable [DecidableEq K]

/-- `register_asset`, with what it checked of the limits and the list. -/
structure Listed (a : RegisterAsset K) (p : RegisterAssetParams) (s s' : State K)
    (f : Factory K) : Prop extends Registered a p s s' f where
  limits : p.minDeposit ≤ p.maxDeposit
  unlisted : a.assetMint ∉ f.registeredAssets
  room : f.registeredAssets.length < maxAssets

/-- A vault rewritten with its asset and its limits kept. -/
structure Kept (v v' : AssetVault K) : Prop where
  assetMint : v'.assetMint = v.assetMint
  sane : Sane v → Sane v'

/-- What becomes of the list and the vaults. -/
inductive Filing (s s' : State K) : Prop
  | idle : s'.registered = s.registered → s'.vaults = s.vaults → Filing s s'
  | list {a p f} : Listed a p s s' f → Filing s s'
  | rewrite {k v v'} : s'.registered = s.registered → s.vaults k = some v →
      s'.vaults = Function.update s.vaults k (some v') → Kept v v' → Filing s s'

variable [TokenProgram K]

theorem registerAsset_listed {a : RegisterAsset K} {p : RegisterAssetParams} {s s' : State K}
    {ev : Option (Event K)} (h : registerAsset a p s = .ok (s', ev)) :
    ∃ f, Listed a p s s' f := by
  obtain ⟨f, hr⟩ := registerAsset_spec h
  simp only [registerAsset, bind_eq_ok, loadFactory_eq_ok, require_eq_ok] at h
  obtain ⟨f', ⟨-, hf, -⟩, _, -, _, -, _, -, _, -, _, -, _, -, _, -, _, -, _, -, _, -, _, hlimits,
    _, hunlisted, _, hroom, -⟩ := h
  cases hr.factory.symm.trans hf
  exact ⟨f, hr, hlimits, hunlisted, hroom⟩

/-- An instruction files one asset, rewrites one vault, or leaves list and vaults alone. -/
theorem exec_filing {c : Call K} {now : Int64} {view : View K} {s s' : State K}
    {ev : Option (Event K)} (h : c.exec now view s = .ok (s', ev)) : Filing s s' := by
  cases c with
  | initializeFactory a feeBps =>
      simp only [Call.exec, initializeFactory, bind_eq_ok, init_eq_ok, Option.isNone_iff_eq_none,
        pure_eq_ok, Prod.mk.injEq] at h
      obtain ⟨_, -, _, hnone, rfl, -⟩ := h
      refine .idle ?_ rfl
      rw [State.registered, State.registered, hnone]
      rfl
  | registerAsset a p =>
      obtain ⟨f, hl⟩ := registerAsset_listed h
      exact .list hl
  | setNav a nav =>
      cases exec_effect h with
      | setNav _ hload hpos =>
          exact .rewrite rfl (loadVault_eq_ok.mp hload).1 rfl ⟨rfl, fun hv => ⟨hpos, hv.limits⟩⟩
  | pauseVault a paused =>
      cases exec_effect h with
      | pause _ hload =>
          exact .rewrite rfl (loadVault_eq_ok.mp hload).1 rfl
            ⟨rfl, fun hv => ⟨hv.navPriceBps, hv.limits⟩⟩
  | issueCredential a p =>
      cases exec_effect h with
      | issue _ _ _ _ _ _ _ => exact .idle rfl rfl
  | revokeCredential a =>
      cases exec_effect h with
      | revoke _ _ _ => exact .idle rfl rfl
  | deposit a amount =>
      cases exec_effect h with
      | deposit hd =>
          obtain ⟨_, _, -, -, hvaults⟩ := hd.totals
          refine .rewrite ?_ (loadVault_eq_ok.mp hd.vault).1 hvaults
            ⟨rfl, fun hv => ⟨hv.navPriceBps, hv.limits⟩⟩
          rw [State.registered, hd.factory, State.registered]
  | redeem a amount =>
      cases exec_effect h with
      | redeem hr =>
          rw [hr.state]
          exact .rewrite rfl (loadVault_eq_ok.mp hr.vault).1 rfl
            ⟨rfl, fun hv => ⟨hv.navPriceBps, hv.limits⟩⟩
  | initTravelRule a amount nonceHash =>
      cases exec_effect h with
      | record _ _ _ _ _ _ => exact .idle rfl rfl
  | transferShares a amount =>
      cases exec_effect h with
      | transfer _ => exact .idle rfl rfl

/-! ## The registry over a step -/

section Filed

variable {s s' : State K}

omit [TokenProgram K] in
theorem Registry.rewrite {k : K} {v v' : AssetVault K} (hr : Registry s)
    (hlist : s'.registered = s.registered) (hv : s.vaults k = some v)
    (hvaults : s'.vaults = Function.update s.vaults k (some v')) (hkept : Kept v v') :
    Registry s' where
  distinct := hlist ▸ hr.distinct
  room := hlist ▸ hr.room
  filed m := by
    rw [hlist, hvaults]
    by_cases hm : assetVaultKey m = k
    · -- the vault rewritten was there before
      subst hm
      rw [Function.update_self]
      exact ⟨fun _ => (hr.filed m).mp ⟨v, hv⟩, fun _ => ⟨v', rfl⟩⟩
    · rw [Function.update_of_ne hm]
      exact hr.filed m
  sane j w hw := by
    rw [hvaults] at hw
    rcases update_some hw with ⟨-, rfl⟩ | ⟨-, hj⟩
    · exact hkept.sane (hr.sane k v hv)
    · exact hr.sane j w hj

omit [TokenProgram K] in
theorem Registry.list {a : RegisterAsset K} {p : RegisterAssetParams} {f : Factory K}
    (hr : Registry s) (h : Listed a p s s' f) : Registry s' := by
  have hbefore : s.registered = f.registeredAssets := State.registered_of h.factory
  have hafter : s'.registered = s.registered ++ [a.assetMint] := by
    rw [h.state, hbefore]
    rfl
  have hvaults : s'.vaults = Function.update s.vaults a.assetVault (some (newVault a p)) := by
    rw [h.state]
  refine ⟨?_, ?_, ?_, ?_⟩
  · rw [hafter, hbefore]
    rw [← List.concat_eq_append]
    exact List.Nodup.concat h.unlisted (hbefore ▸ hr.distinct)
  · rw [hafter, List.length_append, hbefore]
    exact h.room
  · intro m
    rw [hafter, hvaults, List.mem_append, List.mem_singleton, ← hr.filed m]
    by_cases hm : m = a.assetMint
    · subst hm
      rw [← h.assetVault, Function.update_self]
      exact ⟨fun _ => .inr rfl, fun _ => ⟨_, rfl⟩⟩
    · have hkey : assetVaultKey m ≠ a.assetVault := fun heq =>
        hm (assetVaultKey_inj (heq.trans h.assetVault))
      rw [Function.update_of_ne hkey]
      exact ⟨.inl, fun hor => hor.resolve_right hm⟩
  · intro k v hv
    rw [hvaults] at hv
    rcases update_some hv with ⟨-, rfl⟩ | ⟨-, hk⟩
    · exact ⟨h.navPriceBps, h.limits⟩
    · exact hr.sane k v hk

theorem step_registry {act : Action K} (hr : Registry s) (h : Step s act s') : Registry s' := by
  cases h with
  | program _ hexec =>
      cases exec_filing hexec with
      | idle hlist hvaults => exact hr.idle hlist hvaults
      | list hl => exact hr.list hl
      | rewrite hlist hv hvaults hkept => exact hr.rewrite hlist hv hvaults hkept
  | token _ _ => exact hr.idle rfl rfl

end Filed

/-! ## Runs -/

variable {ledger : Ledger K} {ts : List (Transition (State K) (Action K))} {s : State K}

theorem Reaches.registry (h : Reaches ledger ts s) : Registry s :=
  h.invariant (registry_genesis ledger) step_registry

/-- The factory lists each asset once and always fits its account.  The vaults are those of
the assets listed, each with the accounts derived from its asset, limits that admit some
amount, and a NAV one can divide by. -/
theorem registry_integrity (h : Reaches ledger ts s) :
    (∀ f, s.factory = some f →
      f.registeredAssets.Nodup ∧ f.registeredAssets.length ≤ maxAssets ∧
        Borsh.width f.serialize ≤ Factory.size) ∧
    (∀ m, (∃ v, s.vaults (assetVaultKey m) = some v) ↔
      ∃ f, s.factory = some f ∧ m ∈ f.registeredAssets) ∧
    (∀ k v, s.vaults k = some v → ∃ m, k = assetVaultKey m) ∧
    (∀ m v, s.vaults (assetVaultKey m) = some v →
      v.assetMint = m ∧ v.shareMint = shareMintKey m ∧ v.vaultTokenAccount = vaultTokenKey m ∧
        0 < v.navPriceBps ∧ v.minDeposit ≤ v.maxDeposit) ∧
    ∀ k v, s.loadVault k = .ok v → ∀ x, (Checked.div x v.navPriceBps).isSome := by
  have hr := h.registry
  refine ⟨?_, ?_, ?_, ?_, ?_⟩
  · intro f hf
    have hlist := State.registered_of hf
    have hroom : f.registeredAssets.length ≤ 16 := hlist ▸ hr.room
    refine ⟨hlist ▸ hr.distinct, hroom, ?_⟩
    rw [f.width_serialize, Factory.size, maxAssets]
    omega
  · intro m
    rw [← State.mem_registered]
    exact hr.filed m
  · intro k v hv
    exact ⟨v.assetMint, (h.guarded k v hv).key⟩
  · intro m v hv
    have hrec := h.guarded _ v hv
    have hmint : v.assetMint = m := (assetVaultKey_inj hrec.key).symm
    have hsane := hr.sane _ v hv
    refine ⟨hmint, ?_, ?_, hsane.navPriceBps, hsane.limits⟩
    · rw [hrec.shareMint, hmint]
    · rw [hrec.vaultTokenAccount, hmint]
  · intro k v hload x
    have hnav := (hr.sane k v (loadVault_eq_ok.mp hload).1).navPriceBps
    rw [Option.isSome_iff_ne_none]
    intro hnone
    rw [Checked.div_eq_none.mp hnone] at hnav
    exact absurd hnav (by decide)

set_option maxRecDepth 2000 in
/-- The vault over the shares of the other one, after everything a holder can do. -/
theorem registry_integrity_nested :
    ∃ f v, (final (.genesis Cluster.ledger) Cluster.nested).factory = some f ∧
      (final (.genesis Cluster.ledger) Cluster.nested).vaults (assetVaultKey Cluster.shares) = some v ∧
      Borsh.width f.serialize ≤ Factory.size ∧ Cluster.shares ∈ f.registeredAssets ∧
      v.vaultTokenAccount = vaultTokenKey Cluster.shares := by
  obtain ⟨v, hv⟩ := Option.isSome_iff_exists.mp
    (show ((final (.genesis Cluster.ledger) Cluster.nested).vaults
      (assetVaultKey Cluster.shares)).isSome = true from rfl)
  have hrun : Reaches Cluster.ledger (play (.genesis Cluster.ledger) Cluster.nested)
      (final (.genesis Cluster.ledger) Cluster.nested) := Cluster.reaches_final (by decide)
  obtain ⟨hfactory, hfiled, -, hvault, -⟩ := registry_integrity hrun
  obtain ⟨f, hf, hlisted⟩ := (hfiled Cluster.shares).mp ⟨v, hv⟩
  exact ⟨f, v, hf, hv, (hfactory f hf).2.2, hlisted, (hvault _ v hv).2.2.1⟩

end MultiAssetVault
