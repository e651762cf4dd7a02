/-
# `Oragami.OragamiVault.Tradeable` — which token program the tradeable token is of

The account types of `convert_to_tradeable` are those of the legacy token program.
So the mint a conversion issues from is a legacy mint (`Converted.isMint`), and it
stays one for the rest of the run, since no mint changes its program
(`Step.isMint`).  Transfer hooks are an extension of the other token program: on no
tradeable token that was ever put in circulation can one be invoked
(`converted_never_hooked`).
-/
import Oragami.OragamiVault.Scenario

namespace OragamiVault

open Anchor Addresses Lts

section Tradeable

variable {K : Type} {m : K}

/-- A mint of the legacy program takes no hook, where only mints of the other do. -/
theorem not_hooked {hooked : Ledger K → K → Prop}
    (hooked_only : ∀ L k, hooked L k → ∃ M, L.mint k = some M ∧ M.program = .token2022)
    {L : Ledger K} (h : L.IsMint m) : ¬ hooked L m := by
  intro hk
  obtain ⟨M, hM, hp⟩ := h
  obtain ⟨M', hM', hp'⟩ := hooked_only L m hk
  cases hM.symm.trans hM'
  cases hp.symm.trans hp'

variable [DecidableEq K] [Addresses K] [Deployment K] [TokenProgram K] {s s' : State K}

/-! ## Mints stay with their program -/

/-- No instruction closes a mint or hands it to another token program. -/
theorem Effect.isMint {now : Int64} {c : Call K} (h : Effect now s c s')
    (hm : s.ledger.IsMint m) : s'.ledger.IsMint m := by
  rcases h.moves with ⟨_, _, _, _, he⟩ | ⟨_, hvac, -, hopen⟩
  · exact he.isMint_iff.mpr hm
  · rw [hopen]
    exact hm.setMint hvac.2

theorem Step.isMint {act : Action K} (h : Step s act s') (hm : s.ledger.IsMint m) :
    s'.ledger.IsMint m := by
  cases h with
  | program _ h => exact (exec_effect h).isMint hm
  | token _ h => exact TokenCall.run_isMint h hm

theorem isMint_run {ts : List (Transition (State K) (Action K))} (h : Run Step s ts s')
    (hm : s.ledger.IsMint m) : s'.ledger.IsMint m := by
  have hstep : ∀ {s act s'}, s.ledger.IsMint m → Step s act s' → s'.ledger.IsMint m :=
    fun hm hs => hs.isMint hm
  exact Run.invariant (I := fun s => s.ledger.IsMint m) hm hstep h

/-! ## The tradeable mint -/

/-- Tradeable tokens are issued from a mint of the legacy program. -/
theorem Converted.isMint {a : ConvertToTradeable K} {x : UInt64} {vs : VaultState K}
    {L L' : Ledger K} (h : Converted a x s vs L L') : L'.IsMint a.cvaultTradeMint := by
  obtain ⟨M, b, hM, -, hp, -⟩ := TokenProgram.mintTo_ok h.mint
  exact (TokenProgram.mintTo_evolves h.mint).isMint_iff.mpr ⟨M, hM, hp⟩

variable {ledger : Ledger K} {ts : List (Transition (State K) (Action K))}

/-- However `hooked` tells the mints a transfer hook can be invoked on, so long as they are
mints of the other token program: every conversion of a run mints from a mint that is not
one of them, neither then nor later. -/
theorem converted_never_hooked {hooked : Ledger K → K → Prop}
    (hooked_only : ∀ L k, hooked L k → ∃ M, L.mint k = some M ∧ M.program = .token2022)
    (h : Reaches ledger ts s) {t : Transition (State K) (Action K)} (ht : t ∈ ts)
    {now : Int64} {a : ConvertToTradeable K} {x : UInt64}
    (hlabel : t.label = .program now (.convertToTradeable a x)) :
    (∃ L, TokenProgram.mintTo L a.cvaultTradeMint a.userCvaultTradeAccount a.vaultState x =
      some t.post.ledger) ∧
    ¬ hooked t.post.ledger a.cvaultTradeMint ∧ ¬ hooked s.ledger a.cvaultTradeMint := by
  obtain ⟨before, after, rfl⟩ := List.append_of_mem ht
  obtain ⟨-, hstep, hafter⟩ := h.split
  rw [hlabel] at hstep
  generalize t.post = s₁ at hstep hafter ⊢
  cases hstep with
  | program _ hexec =>
      obtain ⟨vs, L, L', hc, hs⟩ := convertToTradeable_eq_ok.mp hexec
      cases hs
      exact ⟨⟨L, hc.mint⟩, not_hooked hooked_only hc.isMint,
        not_hooked hooked_only (isMint_run hafter hc.isMint)⟩

end Tradeable

/-! ## Tradeable tokens in the hands of someone not listed -/

/-- A mint a transfer hook may be installed on. -/
def Hookable {K : Type} (L : Ledger K) (k : K) : Prop :=
  ∃ M, L.mint k = some M ∧ M.program = .token2022

namespace Cluster

def bob : FreeKey := .num 22
def bobTrade : FreeKey := .num 34

/-- Alice converts half her shares, and sends some to Bob. -/
def handOver : List (Action FreeKey) :=
  setUp ++ [deposit 1000, convert 500, .token (.openAccount tradeMint bob bobTrade),
    .token (.transfer aliceTrade bobTrade alice 200)]

theorem handOver_reaches :
    Reaches ledger (play (.genesis ledger) handOver) (final (.genesis ledger) handOver) :=
  reaches_final (by decide)

theorem handOver_converts :
    ∃ t ∈ play (.genesis ledger) handOver, t.label = convert 500 := by
  obtain ⟨t, ht, hlabel⟩ := Option.map_eq_some_iff.mp
    (show (play (.genesis ledger) handOver)[7]?.map (·.label) = some (convert 500) from rfl)
  exact ⟨t, List.mem_of_getElem? ht, hlabel⟩

end Cluster

open Cluster

theorem converted_never_hooked_handOver :
    ∃ t ∈ play (.genesis Cluster.ledger) handOver, t.label = convert 500 ∧
      ¬ Hookable t.post.ledger tradeMint ∧
      ¬ Hookable (final (.genesis Cluster.ledger) handOver).ledger tradeMint := by
  obtain ⟨t, ht, hlabel⟩ := handOver_converts
  exact ⟨t, ht, hlabel,
    (converted_never_hooked (fun _ _ hk => hk) handOver_reaches ht hlabel).2⟩

/-- The conversion creates 500 tokens no hook can be invoked for, and 200 of them move on to
a wallet that has no credential and is on no list. -/
theorem conversion_unhooked :
    ∃ ts s, Reaches Cluster.ledger ts s ∧ (∃ t ∈ ts, t.label = convert 500) ∧
      s.ledger.supply tradeMint = 500 ∧ s.ledger.amount bobTrade = 200 ∧
      ¬ Hookable s.ledger tradeMint := by
  refine ⟨_, _, handOver_reaches, handOver_converts, by decide, by decide, ?_⟩
  have hmint : (final (.genesis Cluster.ledger) handOver).ledger.IsMint tradeMint :=
    ⟨⟨.token, some vaultStateKey, 500⟩, rfl, rfl⟩
  exact not_hooked (fun _ _ hk => hk) hmint

end OragamiVault
