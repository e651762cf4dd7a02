/-
# `Oragami.Chain.TravelRule` — a Travel Rule record serves one deposit

Both programs keep Travel Rule records as tickets in the sense of
`Oragami.Lib.SingleUse`: `init_travel_rule` issues one, whose payload is who
announced how much, and a large deposit uses the one passed to it.  The deposits
do not derive the record's address again; that a record belongs to the depositor
is read off its contents, which nobody but the two instructions writes.

In multi-asset-vault a record is asked for by vaults that opted in, and all vaults
share the records.
-/
import Oragami.Chain.Scenario
import Oragami.Lib.SingleUse

namespace Chain

open Lts

variable {K : Type}

/-! ## Deposits and records of oragami-vault -/

/-- A deposit by `p.1` of the large amount `p.2`. -/
def VaultLarge (t : Transition (Chain K) (Action K)) (p : K × UInt64) : Prop :=
  ∃ now a, t.label = .vault now (.deposit a p.2) ∧ a.payer = p.1 ∧
    OragamiVault.travelRuleThreshold ≤ p.2

/-- The record at `k` was passed to a large deposit. -/
def VaultServes (t : Transition (Chain K) (Action K)) (k : K) : Prop :=
  ∃ now a amount, t.label = .vault now (.deposit a amount) ∧
    OragamiVault.travelRuleThreshold ≤ amount ∧ a.travelRuleData = some k

/-- `p.1` announced a deposit of `p.2`, at the address `k`. -/
def VaultAnnounced (t : Transition (Chain K) (Action K)) (k : K) (p : K × UInt64) : Prop :=
  ∃ now a prm, t.label = .vault now (.initTravelRule a prm) ∧ a.travelRuleData = k ∧
    a.payer = p.1 ∧ prm.amount = p.2

def VaultConsumed (s : Chain K) (k : K) : Prop :=
  ∃ tr, s.vault.travelRules k = some tr ∧ tr.consumed = true

/-! ## Deposits and records of multi-asset-vault -/

/-- A deposit by `p.1` of the large amount `p.2` with a vault that asks for records. -/
def MultiLarge (t : Transition (Chain K) (Action K)) (p : K × UInt64) : Prop :=
  ∃ now a v, t.label = .multi now (.deposit a p.2) ∧ a.depositor = p.1 ∧
    t.pre.multi.vaults a.assetVault = some v ∧ v.travelRuleRequired = true ∧
    MultiAssetVault.travelRuleThreshold ≤ p.2

/-- The record at `k` was passed to such a deposit. -/
def MultiServes (t : Transition (Chain K) (Action K)) (k : K) : Prop :=
  ∃ now a amount v, t.label = .multi now (.deposit a amount) ∧
    t.pre.multi.vaults a.assetVault = some v ∧ v.travelRuleRequired = true ∧
    MultiAssetVault.travelRuleThreshold ≤ amount ∧ a.travelRuleData = some k

def MultiAnnounced (t : Transition (Chain K) (Action K)) (k : K) (p : K × UInt64) : Prop :=
  ∃ now a amount nonceHash, t.label = .multi now (.initTravelRule a amount nonceHash) ∧
    a.travelRuleData = k ∧ a.payer = p.1 ∧ amount = p.2

def MultiConsumed (s : Chain K) (k : K) : Prop :=
  ∃ tr, s.multi.travelRules k = some tr ∧ tr.consumed = true

/-! ## The records as tickets -/

def vaultTicket (tr : OragamiVault.TravelRuleData K) : (K × UInt64) × Bool :=
  ((tr.payer, tr.amount), tr.consumed)

def multiTicket (tr : MultiAssetVault.TravelRuleData K) : (K × UInt64) × Bool :=
  ((tr.payer, tr.amount), tr.consumed)

variable [DecidableEq K] [Addresses K] [Deployment K] [TokenProgram K] {s s' : Chain K}

/-- Only the announcement and the deposit touch the records of oragami-vault. -/
theorem Step.vault_change {act : Action K} (h : Step s act s') :
    Change (VaultAnnounced ⟨s, act, s'⟩)
      (fun k p => VaultLarge ⟨s, act, s'⟩ p ∧ VaultServes ⟨s, act, s'⟩ k)
      (Option.map vaultTicket ∘ s.vault.travelRules)
      (Option.map vaultTicket ∘ s'.vault.travelRules) := by
  cases h with
  | @vault now c v ev _ hexec =>
      have hsame : v.travelRules = s.vault.travelRules →
          Option.map vaultTicket ∘ (s.setVaultSide v).vault.travelRules =
            Option.map vaultTicket ∘ s.vault.travelRules :=
        fun hv => congrArg (Option.map vaultTicket ∘ ·) hv
      cases OragamiVault.exec_effect hexec with
      | quiet hq => exact .same (hsame hq.travelRules)
      | init hi => exact .same (hsame hi.travelRules)
      | issue hw _ _ _ _ _ => exact .same (hsame (by rw [hw.state]; rfl))
      | revoke hw _ _ => exact .same (hsame (by rw [hw.state]; rfl))
      | setNav _ => exact .same rfl
      | redeem _ => exact .same rfl
      | convert _ => exact .same rfl
      | rewrap _ _ => exact .same rfl
      | payOut _ _ => exact .same rfl
      | @record a p tr hnone _ _ hpayer hamount hfresh =>
          refine .issue_record (p := (a.payer, p.amount)) ⟨now, a, p, rfl, rfl, rfl, rfl⟩ hnone ?_ rfl
          rw [vaultTicket, hpayer, hamount, hfresh]
      | @deposit a amount _ vs cred shares L hd =>
          rcases hd.travelRules with ⟨-, hrules⟩ | ⟨hle, k, tr, hk, htr, hpayer, hamount, hfresh, hrules⟩
          · exact .same (hsame hrules)
          · refine .use_record (p := (a.payer, amount))
              ⟨⟨now, a, rfl, rfl, hle⟩, now, a, amount, rfl, hle, hk⟩ htr ?_ ?_ hrules
            · rw [vaultTicket, hpayer, hamount, hfresh]
            · rw [vaultTicket, hpayer, hamount]
  | multi _ _ => exact .same rfl
  | token _ _ => exact .same rfl

theorem Step.multi_change {act : Action K} (h : Step s act s') :
    Change (MultiAnnounced ⟨s, act, s'⟩)
      (fun k p => MultiLarge ⟨s, act, s'⟩ p ∧ MultiServes ⟨s, act, s'⟩ k)
      (Option.map multiTicket ∘ s.multi.travelRules)
      (Option.map multiTicket ∘ s'.multi.travelRules) := by
  cases h with
  | @multi now c m ev _ hexec =>
      have hsame : m.travelRules = s.multi.travelRules →
          Option.map multiTicket ∘ (s.setMultiSide m).multi.travelRules =
            Option.map multiTicket ∘ s.multi.travelRules :=
        fun hm => congrArg (Option.map multiTicket ∘ ·) hm
      cases MultiAssetVault.exec_effect hexec with
      | openFactory _ _ => exact .same rfl
      | register hr => exact .same (hsame (by rw [hr.state]; rfl))
      | setNav _ _ _ => exact .same rfl
      | pause _ _ => exact .same rfl
      | issue _ _ _ _ _ _ _ => exact .same rfl
      | revoke _ _ _ => exact .same rfl
      | redeem hr => exact .same (hsame (by rw [hr.state]; rfl))
      | transfer _ => exact .same rfl
      | @record a amount nonceHash tr hnone _ _ hpayer hamount hfresh =>
          refine .issue_record (p := (a.payer, amount))
            ⟨now, a, amount, nonceHash, rfl, rfl, rfl, rfl⟩ hnone ?_ rfl
          rw [multiTicket, hpayer, hamount, hfresh]
      | @deposit a amount _ v cred shares L hd =>
          rcases hd.travelRules with
            ⟨-, hrules⟩ | ⟨⟨hreq, hle⟩, k, tr, hk, htr, hpayer, hamount, hfresh, hrules⟩
          · exact .same (hsame hrules)
          · have hv := (MultiAssetVault.loadVault_eq_ok.mp hd.vault).1
            refine .use_record (p := (a.depositor, amount))
              ⟨⟨now, a, v, rfl, rfl, hv, hreq, hle⟩, now, a, amount, v, rfl, hv, hreq, hle, hk⟩ htr
              ?_ ?_ hrules
            · rw [multiTicket, hpayer, hamount, hfresh]
            · rw [multiTicket, hpayer, hamount]
  | vault _ _ => exact .same rfl
  | token _ _ => exact .same rfl

variable {t : Transition (Chain K) (Action K)} {p : K × UInt64}

/-- A large deposit was passed a record of its own payer and amount, unused until then. -/
theorem VaultLarge.record (h : VaultLarge t p) (hstep : Step t.pre t.label t.post) :
    ∃ k tr tr', VaultServes t k ∧ t.pre.vault.travelRules k = some tr ∧
      vaultTicket tr = (p, false) ∧ vaultTicket tr' = (p, true) ∧
      t.post.vault.travelRules = Function.update t.pre.vault.travelRules k (some tr') := by
  obtain ⟨now, a, hlabel, hp, hle⟩ := h
  have hpost := hstep
  rw [hlabel] at hpost
  obtain ⟨v, ev, hexec, hpost⟩ := hpost.of_vault
  obtain ⟨vs, cred, shares, L, hd⟩ := OragamiVault.deposit_spec hexec
  rcases hd.travelRules with ⟨hlt, -⟩ | ⟨-, k, tr, hk, htr, hpayer, hamount, hfresh, hrules⟩
  · exact absurd hle (UInt64.not_le.mpr hlt)
  · refine ⟨k, tr, { tr with consumed := true }, ⟨now, a, p.2, hlabel, hle, hk⟩, htr, ?_, ?_, ?_⟩
    · rw [vaultTicket, hpayer, hamount, hfresh, hp]
    · rw [vaultTicket, hpayer, hamount, hp]
    · rw [hpost]
      exact hrules

theorem MultiLarge.record (h : MultiLarge t p) (hstep : Step t.pre t.label t.post) :
    ∃ k tr tr', MultiServes t k ∧ t.pre.multi.travelRules k = some tr ∧
      multiTicket tr = (p, false) ∧ multiTicket tr' = (p, true) ∧
      t.post.multi.travelRules = Function.update t.pre.multi.travelRules k (some tr') := by
  obtain ⟨now, a, v, hlabel, hp, hv, hreq, hle⟩ := h
  have hpost := hstep
  rw [hlabel] at hpost
  obtain ⟨m, ev, hexec, hpost⟩ := hpost.of_multi
  obtain ⟨v', cred, shares, L, hd⟩ := MultiAssetVault.deposit_spec hexec
  have hv' : t.pre.multi.vaults a.assetVault = some v' :=
    (MultiAssetVault.loadVault_eq_ok.mp hd.vault).1
  cases hv.symm.trans hv'
  rcases hd.travelRules with ⟨hno, -⟩ | ⟨-, k, tr, hk, htr, hpayer, hamount, hfresh, hrules⟩
  · exact absurd ⟨hreq, hle⟩ hno
  · refine ⟨k, tr, { tr with consumed := true }, ⟨now, a, p.2, v, hlabel, hv, hreq, hle, hk⟩, htr, ?_, ?_, ?_⟩
    · rw [multiTicket, hpayer, hamount, hfresh, hp]
    · rw [multiTicket, hpayer, hamount, hp]
    · rw [hpost]
      exact hrules

omit [DecidableEq K] [Addresses K] [Deployment K] [TokenProgram K] in
theorem VaultServes.unique {k k' : K} (h : VaultServes t k) (h' : VaultServes t k') : k = k' := by
  obtain ⟨_, _, _, hl, -, hk⟩ := h
  obtain ⟨_, _, _, hl', -, hk'⟩ := h'
  cases hl.symm.trans hl'
  exact Option.some.inj (hk.symm.trans hk')

omit [DecidableEq K] [Addresses K] [Deployment K] [TokenProgram K] in
theorem MultiServes.unique {k k' : K} (h : MultiServes t k) (h' : MultiServes t k') : k = k' := by
  obtain ⟨_, _, _, _, hl, -, -, -, hk⟩ := h
  obtain ⟨_, _, _, _, hl', -, -, -, hk'⟩ := h'
  cases hl.symm.trans hl'
  exact Option.some.inj (hk.symm.trans hk')

/-- The Travel Rule records of oragami-vault. -/
def vaultTickets : Tickets (Step (K := K)) K (K × UInt64) where
  store s := Option.map vaultTicket ∘ s.vault.travelRules
  Issues := VaultAnnounced
  Uses t k p := VaultLarge t p ∧ VaultServes t k
  issues_unique := by
    rintro t k k' p p' ⟨_, _, _, hl, rfl, -⟩ ⟨_, _, _, hl', rfl, -⟩
    cases hl.symm.trans hl'
    rfl
  uses_unique h h' := h.2.unique h'.2
  change := Step.vault_change
  use := by
    rintro t k p hstep ⟨hlarge, hserves⟩
    obtain ⟨k', tr, tr', hserves', htr, hticket, hused, hpost⟩ := hlarge.record hstep
    cases hserves.unique hserves'
    exact used_record htr hticket hused hpost

/-- Those of multi-asset-vault. -/
def multiTickets : Tickets (Step (K := K)) K (K × UInt64) where
  store s := Option.map multiTicket ∘ s.multi.travelRules
  Issues := MultiAnnounced
  Uses t k p := MultiLarge t p ∧ MultiServes t k
  issues_unique := by
    rintro t k k' p p' ⟨_, _, _, _, hl, rfl, -⟩ ⟨_, _, _, _, hl', rfl, -⟩
    cases hl.symm.trans hl'
    rfl
  uses_unique h h' := h.2.unique h'.2
  change := Step.multi_change
  use := by
    rintro t k p hstep ⟨hlarge, hserves⟩
    obtain ⟨k', tr, tr', hserves', htr, hticket, hused, hpost⟩ := hlarge.record hstep
    cases hserves.unique hserves'
    exact used_record htr hticket hused hpost

/-! ## Single use -/

variable {ledger : Ledger K} {ts : List (Transition (Chain K) (Action K))}

/-- In every run, each large deposit with oragami-vault, and each with a vault of
multi-asset-vault that asks for records, is matched to an earlier announcement of its own: by
the same wallet, of the same amount.  Consumed records stay consumed, and none serves two
deposits. -/
theorem travel_rule_single_use (h : Reaches ledger ts s) :
    SingleUse ts VaultLarge VaultAnnounced VaultServes VaultConsumed ∧
      SingleUse ts MultiLarge MultiAnnounced MultiServes MultiConsumed := by
  constructor
  · refine vaultTickets.singleUse (fun k => rfl) h ?_ ?_
      (used_iff vaultTicket).symm
    · intro t p hstep hlarge
      obtain ⟨k, tr, tr', hserves, -⟩ := hlarge.record hstep
      exact ⟨k, hlarge, hserves⟩
    · intro t k hserves
      obtain ⟨now, a, amount, hlabel, hle, hk⟩ := hserves
      exact ⟨(a.payer, amount), ⟨now, a, hlabel, rfl, hle⟩, now, a, amount, hlabel, hle, hk⟩
  · refine multiTickets.singleUse (fun k => rfl) h ?_ ?_
      (used_iff multiTicket).symm
    · intro t p hstep hlarge
      obtain ⟨k, tr, tr', hserves, -⟩ := hlarge.record hstep
      exact ⟨k, hlarge, hserves⟩
    · intro t k hserves
      obtain ⟨now, a, amount, v, hlabel, hv, hreq, hle, hk⟩ := hserves
      exact ⟨(a.depositor, amount), ⟨now, a, v, hlabel, rfl, hv, hreq, hle⟩, now, a, amount, v,
        hlabel, hv, hreq, hle, hk⟩

/-- Alice announced and made a large deposit with each program. -/
theorem travel_rule_single_use_twoDeposits :
    (∃ t ∈ play (genesis Cluster.ledger) Cluster.twoDeposits,
      VaultLarge t (OragamiVault.Cluster.alice, 2000000000)) ∧
    SingleUse (play (genesis Cluster.ledger) Cluster.twoDeposits)
        VaultLarge VaultAnnounced VaultServes VaultConsumed ∧
      SingleUse (play (genesis Cluster.ledger) Cluster.twoDeposits)
        MultiLarge MultiAnnounced MultiServes MultiConsumed := by
  obtain ⟨t, ht, hlabel⟩ := Option.map_eq_some_iff.mp Cluster.twoDeposits_played.2
  exact ⟨⟨t, List.mem_of_getElem? ht, 0, _, hlabel, rfl, by decide⟩,
    travel_rule_single_use Cluster.twoDeposits_reaches⟩

end Chain
