/-
# `Oragami.MultiAssetVault.Authority` — what the factory's authority decides, and what nobody does

The terms of a vault are fixed when its asset is registered: the program has no
instruction to change them, nor to close a vault, to take an asset off the list or
to hand the factory to another key.  What changes under the authority's signature
is the rest of what is not a holder's (`Policy`): the list, which grows, the NAV and
the pause of each vault, and the program's own credentials.

What a vault holds is not among it.  It falls only where shares of that vault are
redeemed (`Step.outflow`).
-/
import Oragami.MultiAssetVault.Accounting
import Oragami.MultiAssetVault.Registry

namespace MultiAssetVault

open Anchor Addresses Lts

variable {K : Type}

/-! ## Terms and policy -/

/-- What is fixed when an asset is registered. -/
structure Terms (K : Type) where
  bump : UInt8
  assetMint : K
  shareMint : K
  vaultTokenAccount : K
  minDeposit : UInt64
  maxDeposit : UInt64
  ticker : Vector UInt8 8
  travelRuleRequired : Bool

def AssetVault.terms (v : AssetVault K) : Terms K where
  bump := v.bump
  assetMint := v.assetMint
  shareMint := v.shareMint
  vaultTokenAccount := v.vaultTokenAccount
  minDeposit := v.minDeposit
  maxDeposit := v.maxDeposit
  ticker := v.ticker
  travelRuleRequired := v.travelRuleRequired

/-- What the authority decides of a vault. -/
structure Control where
  navPriceBps : UInt64
  paused : Bool

def AssetVault.control (v : AssetVault K) : Control where
  navPriceBps := v.navPriceBps
  paused := v.paused

/-- What the authority decides. -/
structure Policy (K : Type) where
  registered : List K
  controls : K → Option Control
  credentials : K → Option (ComplianceCredential K)

def State.policy (s : State K) : Policy K where
  registered := s.registered
  controls k := (s.vaults k).map (·.control)
  credentials := s.credentials

/-- The factory keeps its key, its fee and every asset it lists. -/
structure Factory.Grows (f f' : Factory K) : Prop where
  authority : f'.authority = f.authority
  feeBps : f'.feeBps = f.feeBps
  registered : f.registeredAssets <+: f'.registeredAssets

theorem Factory.Grows.refl (f : Factory K) : f.Grows f := ⟨rfl, rfl, List.prefix_rfl⟩

theorem Factory.Grows.trans {f f' f'' : Factory K} (h : f.Grows f') (h' : f'.Grows f'') :
    f.Grows f'' where
  authority := h'.authority.trans h.authority
  feeBps := h'.feeBps.trans h.feeBps
  registered := h.registered.trans h'.registered

/-- Every vault is still there, on the same terms. -/
def SameTerms (s s' : State K) : Prop :=
  ∀ k v, s.vaults k = some v → ∃ v', s'.vaults k = some v' ∧ v'.terms = v.terms

theorem SameTerms.of_eq {s s' : State K} (h : s'.vaults = s.vaults) : SameTerms s s' := by
  intro k v hv
  exact ⟨v, h ▸ hv, rfl⟩

section Rewrite

variable [DecidableEq K] {s s' : State K} {k : K} {v v' : AssetVault K}

theorem SameTerms.rewrite (hv : s.vaults k = some v)
    (hvaults : s'.vaults = Function.update s.vaults k (some v')) (hterms : v'.terms = v.terms) :
    SameTerms s s' := by
  intro j w hw
  rw [hvaults]
  by_cases hj : j = k
  · subst hj
    cases hv.symm.trans hw
    exact ⟨v', Function.update_self .., hterms⟩
  · exact ⟨w, (Function.update_of_ne hj ..).trans hw, rfl⟩

/-- A vault rewritten under the same control leaves the policy. -/
theorem policy_rewrite (hv : s.vaults k = some v)
    (hvaults : s'.vaults = Function.update s.vaults k (some v'))
    (hcontrol : v'.control = v.control) (hregistered : s'.registered = s.registered)
    (hcreds : s'.credentials = s.credentials) : s'.policy = s.policy := by
  have hcontrols : (fun j => (s'.vaults j).map (·.control)) =
      fun j => (s.vaults j).map (·.control) := by
    funext j
    rw [hvaults]
    by_cases hj : j = k
    · subst hj
      rw [Function.update_self, hv, Option.map_some, Option.map_some, hcontrol]
    · rw [Function.update_of_ne hj]
  simp only [State.policy, hcontrols, hregistered, hcreds]

end Rewrite

/-! ## Steps -/

variable [DecidableEq K] [Addresses K] [Deployment K] [TokenProgram K]

/-- What a step may change of what is not a holder's, and who has to have signed it. -/
structure Authorised (authority : K) (t : Transition (State K) (Action K)) : Prop where
  factory : ∃ f f', t.pre.factory = some f ∧ t.post.factory = some f' ∧ f.Grows f'
  terms : SameTerms t.pre t.post
  policy : t.post.policy ≠ t.pre.policy →
    ∃ now view c, t.label = .program now view c ∧ c.signer = authority

section Steps

variable {s s' : State K} {act : Action K} {now : Int64} {view : View K} {c : Call K}
  {f : Factory K} {k : K} {v : AssetVault K}

omit [DecidableEq K] [Addresses K] [Deployment K] [TokenProgram K] in
theorem Administers.of_factory {authority : K} (h : Administers s authority)
    (hf : s.factory = some f) : authority = f.authority := by
  obtain ⟨f', hf', hauth⟩ := h
  cases hf.symm.trans hf'
  exact hauth.symm

/-- No instruction changes the terms of a vault, or closes one. -/
theorem effect_terms (h : Effect now view s c s') : SameTerms s s' := by
  cases h with
  | openFactory _ _ => exact .of_eq rfl
  | register hr =>
      intro j w hw
      have hne : j ≠ _ := fun heq => by
        rw [heq, hr.fresh] at hw
        cases hw
      rw [hr.state]
      exact ⟨w, (Function.update_of_ne hne ..).trans hw, rfl⟩
  | setNav _ hload _ => exact .rewrite (loadVault_eq_ok.mp hload).1 rfl rfl
  | pause _ hload => exact .rewrite (loadVault_eq_ok.mp hload).1 rfl rfl
  | issue _ _ _ _ _ _ _ => exact .of_eq rfl
  | revoke _ _ _ => exact .of_eq rfl
  | record _ _ _ _ _ _ => exact .of_eq rfl
  | deposit hd =>
      obtain ⟨_, _, -, -, hvaults⟩ := hd.totals
      exact .rewrite (loadVault_eq_ok.mp hd.vault).1 hvaults rfl
  | redeem hr =>
      have hvaults := congrArg (fun s : State K => s.vaults) hr.state
      exact .rewrite (loadVault_eq_ok.mp hr.vault).1 hvaults rfl
  | transfer _ => exact .of_eq rfl

theorem effect_authorised (hf : s.factory = some f) (h : Effect now view s c s') :
    Authorised f.authority ⟨s, .program now view c, s'⟩ := by
  have hterms := effect_terms h
  have signed : c.signer = f.authority → s'.policy ≠ s.policy →
      ∃ now' view' c', Action.program now view c = .program now' view' c' ∧
        c'.signer = f.authority := by
    intro hsig _
    exact ⟨now, view, c, rfl, hsig⟩
  have unsigned : s'.policy = s.policy → s'.policy ≠ s.policy →
      ∃ now' view' c', Action.program now view c = .program now' view' c' ∧
        c'.signer = f.authority := by
    intro hsame hne
    exact absurd hsame hne
  have kept : s'.factory = s.factory → ∃ f₁ f₂, s.factory = some f₁ ∧ s'.factory = some f₂ ∧
      f₁.Grows f₂ := by
    intro heq
    exact ⟨f, f, hf, heq.trans hf, .refl f⟩
  cases h with
  | openFactory hnone _ => cases hf.symm.trans hnone
  | register hr =>
      cases hf.symm.trans hr.factory
      have hfactory := congrArg (fun s : State K => s.factory) hr.state
      exact ⟨⟨f, _, hf, hfactory, rfl, rfl, List.prefix_append ..⟩, hterms, signed hr.authority.symm⟩
  | setNav ha _ _ => exact ⟨kept rfl, hterms, signed (ha.of_factory hf)⟩
  | pause ha _ => exact ⟨kept rfl, hterms, signed (ha.of_factory hf)⟩
  | issue ha _ _ _ _ _ _ => exact ⟨kept rfl, hterms, signed (ha.of_factory hf)⟩
  | revoke ha _ _ => exact ⟨kept rfl, hterms, signed (ha.of_factory hf)⟩
  | record _ _ _ _ _ _ => exact ⟨kept rfl, hterms, unsigned rfl⟩
  | deposit hd =>
      obtain ⟨_, _, -, -, hvaults⟩ := hd.totals
      obtain ⟨hv, -⟩ := loadVault_eq_ok.mp hd.vault
      have hregistered : s'.registered = s.registered := by
        rw [State.registered, hd.factory, State.registered]
      exact ⟨kept hd.factory, hterms,
        unsigned (policy_rewrite hv hvaults rfl hregistered hd.credentials)⟩
  | redeem hr =>
      obtain ⟨hv, -⟩ := loadVault_eq_ok.mp hr.vault
      have hfactory : s'.factory = s.factory := by rw [hr.state]
      have hcreds : s'.credentials = s.credentials := by rw [hr.state]
      have hvaults := congrArg (fun s : State K => s.vaults) hr.state
      have hregistered : s'.registered = s.registered := by
        rw [State.registered, hfactory, State.registered]
      exact ⟨kept hfactory, hterms, unsigned (policy_rewrite hv hvaults rfl hregistered hcreds)⟩
  | transfer _ => exact ⟨kept rfl, hterms, unsigned rfl⟩

theorem Step.authorised (hf : s.factory = some f) (h : Step s act s') :
    Authorised f.authority ⟨s, act, s'⟩ := by
  cases h with
  | program _ hexec => exact effect_authorised hf (exec_effect hexec)
  | token _ _ => exact ⟨⟨f, f, hf, hf, .refl f⟩, .of_eq rfl, fun hne => absurd rfl hne⟩

/-- Tokens leave a vault only for shares in it, and no more of them than the shares are worth. -/
theorem Step.outflow (hg : Guarded s) (hv : s.vaults k = some v) (h : Step s act s')
    (hlt : s'.ledger.amount v.vaultTokenAccount < s.ledger.amount v.vaultTokenAccount) :
    ∃ now view a x, act = .program now view (.redeem a x) ∧ a.assetVault = k ∧
      (s.ledger.amount v.vaultTokenAccount - s'.ledger.amount v.vaultTokenAccount) * 10000 ≤
        x.toNat * v.navPriceBps.toNat := by
  cases h with
  | @program _ now view c _ hsig hexec =>
      have heff := exec_effect hexec
      by_cases hk : c.target = some k
      · have hr := hg k v hv
        cases heff with
        | openFactory _ _ => cases hk
        | register hreg =>
            cases hk
            cases hreg.fresh.symm.trans hv
        | setNav _ _ _ => exact absurd hlt (Nat.lt_irrefl _)
        | pause _ _ => exact absurd hlt (Nat.lt_irrefl _)
        | issue _ _ _ _ _ _ _ => cases hk
        | revoke _ _ _ => cases hk
        | record _ _ _ _ _ _ => cases hk
        | deposit hd =>
            cases hk
            cases hv.symm.trans (loadVault_eq_ok.mp hd.vault).1
            obtain ⟨-, hin⟩ := hr.held.paidIn hr.owned hsig (hd.vaultTokenAccount ▸ hd.transfer)
              (hd.shareMint ▸ hd.mint)
            omega
        | @redeem a x _ _ paid supply L hred =>
            cases hk
            cases hv.symm.trans (loadVault_eq_ok.mp hred.vault).1
            obtain ⟨-, -, out, hle, hout⟩ := hr.held.paidOut hr.owned hsig
              (hred.shareMint ▸ hred.burn) (hred.vaultTokenAccount ▸ hred.transfer)
            obtain ⟨-, hfloor⟩ := payoutFor_eq_ok.mp hred.payout
            have hpaid : s.ledger.amount v.vaultTokenAccount -
                s'.ledger.amount v.vaultTokenAccount ≤ paid.toNat := by
              omega
            rw [hfloor] at hpaid
            exact ⟨now, view, a, x, rfl, rfl,
              (Nat.mul_le_mul_right 10000 hpaid).trans (Nat.div_mul_le_self _ _)⟩
        | transfer ht => exact absurd hlt (Nat.not_lt.mpr (ht.undisturbed hr hsig).custody)
      · obtain ⟨-, hu⟩ := effect_undisturbed hg hsig heff hv hk
        exact absurd hlt (Nat.not_lt.mpr hu.custody)
  | token hsig hrun =>
      have hr := hg k v hv
      obtain ⟨-, hle⟩ := hr.held.kept hr.owned (TokenCall.run_kept hrun hsig)
      exact absurd hlt (Nat.not_lt.mpr hle)

end Steps

/-! ## Runs -/

variable {ledger : Ledger K} {ts us : List (Transition (State K) (Action K))} {s₀ s : State K}
  {f : Factory K}

/-- A factory keeps its authority for good. -/
theorem factory_kept (hf : s₀.factory = some f) (hrun : Run Step s₀ us s) :
    ∃ f', s.factory = some f' ∧ f.Grows f' := by
  refine Run.invariant (I := fun s : State K => ∃ f', s.factory = some f' ∧ f.Grows f')
    ⟨f, hf, .refl f⟩ ?_ hrun
  rintro s act s' ⟨f', hf', hgrows⟩ hstep
  obtain ⟨f₁, f₂, hf₁, hf₂, hstep'⟩ := (hstep.authorised hf').factory
  cases hf'.symm.trans hf₁
  exact ⟨f₂, hf₂, hgrows.trans hstep'⟩

/-- From the moment there is a factory, whatever happens: its key and its fee never change and
no asset leaves its list; every vault keeps its terms; list, NAVs, pauses and the program's own
credentials change only under the signature of the key the factory was opened with; and tokens
leave a vault only for shares of that vault, no more of them than the shares are worth. -/
theorem factory_governed (h : Reaches ledger ts s₀) (hf : s₀.factory = some f)
    (hrun : Run Step s₀ us s) :
    ∀ t ∈ us, Authorised f.authority t ∧
      ∀ k v, t.pre.vaults k = some v →
        t.post.ledger.amount v.vaultTokenAccount < t.pre.ledger.amount v.vaultTokenAccount →
        ∃ now view a x, t.label = .program now view (.redeem a x) ∧ a.assetVault = k ∧
          (t.pre.ledger.amount v.vaultTokenAccount - t.post.ledger.amount v.vaultTokenAccount) *
            10000 ≤ x.toNat * v.navPriceBps.toNat := by
  intro t ht
  obtain ⟨⟨before, hbefore⟩, hstep⟩ := hrun.of_mem ht
  obtain ⟨f', hf', hgrows⟩ := factory_kept hf hbefore
  have hreach : Reaches ledger (ts ++ before) t.pre := Run.append_iff.mpr ⟨s₀, h, hbefore⟩
  refine ⟨hgrows.authority ▸ hstep.authorised hf', ?_⟩
  intro k v hv hlt
  exact hstep.outflow hreach.guarded hv hlt

theorem factory_governed_nested :
    ∃ f, (final (.genesis Cluster.ledger) [Cluster.factory]).factory = some f ∧
      ∀ t ∈ play (final (.genesis Cluster.ledger) [Cluster.factory]) Cluster.nested.tail,
        Authorised f.authority t := by
  obtain ⟨f, hf⟩ := Option.isSome_iff_exists.mp
    (show (final (.genesis Cluster.ledger) [Cluster.factory]).factory.isSome by decide)
  refine ⟨f, hf, ?_⟩
  intro t ht
  exact (factory_governed (Cluster.reaches_final (by decide)) hf
    (Cluster.run_final (by decide) _) t ht).1

end MultiAssetVault
