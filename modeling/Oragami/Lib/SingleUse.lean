/-
# `Oragami.Lib.SingleUse` — tickets issued before they are used, and used once

A system that keeps tickets: each is issued once, with a payload, and marked when
it is used.  `Tickets` says what a step may do to them (`Change`) and what a step
that uses one needs (`use`); nothing is asked of how the system decides.

In a run that began without tickets, a use goes back to the issue of the same
ticket, and a ticket is used at most once.  So the uses are matched one to one to
earlier issues with the same payload (`Tickets.matched`).
-/
import Oragami.Lib.Run
import Mathlib.Data.Set.Function
import Mathlib.Logic.Function.Basic

namespace Lts

variable {σ ε κ π : Type}

/-! ## Matching -/

/-- Each transition of `ts` that `D` describes is matched to an earlier one that `I`
describes, with the same payload, and no two to the same. -/
def Matched (ts : List (Transition σ ε)) (D I : Transition σ ε → π → Prop) : Prop :=
  ∃ f : Nat → Nat, Set.InjOn f {i | ∃ t p, ts[i]? = some t ∧ D t p} ∧
    ∀ i t p, ts[i]? = some t → D t p → f i < i ∧ ∃ u, ts[f i]? = some u ∧ I u p

theorem Matched.mono {ts : List (Transition σ ε)} {D D' I I' : Transition σ ε → π → Prop}
    (h : Matched ts D' I') (hD : ∀ t ∈ ts, ∀ p, D t p → D' t p) (hI : ∀ t p, I' t p → I t p) :
    Matched ts D I := by
  obtain ⟨f, hinj, hf⟩ := h
  refine ⟨f, hinj.mono ?_, ?_⟩
  · rintro i ⟨t, p, ht, hd⟩
    exact ⟨t, p, ht, hD t (List.mem_of_getElem? ht) p hd⟩
  · intro i t p ht hd
    obtain ⟨hlt, u, hu, hi⟩ := hf i t p ht (hD t (List.mem_of_getElem? ht) p hd)
    exact ⟨hlt, u, hu, hI u p hi⟩

/-- Demands are met by single-use tickets: each is matched to an issue of its own, what is
consumed stays so, and no ticket serves twice. -/
structure SingleUse (ts : List (Transition σ ε))
    (Demands : Transition σ ε → π → Prop) (Issues : Transition σ ε → κ → π → Prop)
    (Serves : Transition σ ε → κ → Prop) (Consumed : σ → κ → Prop) : Prop where
  matched : Matched ts Demands fun t p => ∃ k, Issues t k p
  stays : ∀ t ∈ ts, ∀ k, Consumed t.pre k → Consumed t.post k
  once : ∀ (i j : Nat) (t u : Transition σ ε) (k : κ), ts[i]? = some t → ts[j]? = some u →
    Serves t k → Serves u k → i = j

/-! ## Tickets -/

variable [DecidableEq κ]

/-- What may happen to the tickets at once: nothing, one is issued, one is used. -/
inductive Change (I U : κ → π → Prop) (m m' : κ → Option (π × Bool)) : Prop
  | same : m' = m → Change I U m m'
  | issue {k : κ} {p : π} : I k p → m k = none → m' = Function.update m k (some (p, false)) →
      Change I U m m'
  | use {k : κ} {p : π} : U k p → m k = some (p, false) →
      m' = Function.update m k (some (p, true)) → Change I U m m'

section Change

variable {I U : κ → π → Prop} {m m' : κ → Option (π × Bool)} {k : κ} {p : π} {u : Bool}

/-- A ticket that is there was there before, or was just issued. -/
theorem Change.origin (h : Change I U m m') (hk : m' k = some (p, u)) :
    (∃ u', m k = some (p, u')) ∨ I k p := by
  cases h with
  | same hm => exact .inl ⟨u, by rw [← hm, hk]⟩
  | @issue j q hi hnone hm =>
      rw [hm] at hk
      by_cases hj : k = j
      · rw [hj, Function.update_self] at hk
        cases hk
        exact .inr (hj ▸ hi)
      · rw [Function.update_of_ne hj] at hk
        exact .inl ⟨u, hk⟩
  | @use j q hu hsome hm =>
      rw [hm] at hk
      by_cases hj : k = j
      · rw [hj, Function.update_self] at hk
        cases hk
        exact .inl ⟨false, hj ▸ hsome⟩
      · rw [Function.update_of_ne hj] at hk
        exact .inl ⟨u, hk⟩

/-- A used ticket stays used. -/
theorem Change.stays (h : Change I U m m') (hk : m k = some (p, true)) :
    m' k = some (p, true) := by
  cases h with
  | same hm => rw [hm, hk]
  | @issue j q hi hnone hm =>
      have hj : k ≠ j := by
        rintro rfl
        cases hk.symm.trans hnone
      rw [hm, Function.update_of_ne hj, hk]
  | @use j q hu hsome hm =>
      have hj : k ≠ j := by
        rintro rfl
        cases hk.symm.trans hsome
      rw [hm, Function.update_of_ne hj, hk]

/-- A ticket not used stays as it is. -/
theorem Change.unused (h : Change I U m m') (hk : m k = some (p, false)) (hU : ∀ q, ¬ U k q) :
    m' k = some (p, false) := by
  cases h with
  | same hm => rw [hm, hk]
  | @issue j q hi hnone hm =>
      have hj : k ≠ j := by
        rintro rfl
        cases hk.symm.trans hnone
      rw [hm, Function.update_of_ne hj, hk]
  | @use j q hu hsome hm =>
      have hj : k ≠ j := by
        rintro rfl
        exact hU q hu
      rw [hm, Function.update_of_ne hj, hk]

/-! Tickets are mostly read off records that say more. -/

variable {ρ : Type} {ticket : ρ → π × Bool} {R R' : κ → Option ρ} {r r' : ρ}

theorem Change.issue_record (hI : I k p) (hnone : R k = none) (hr : ticket r = (p, false))
    (hR : R' = Function.update R k (some r)) :
    Change I U (Option.map ticket ∘ R) (Option.map ticket ∘ R') := by
  refine .issue hI ?_ ?_
  · rw [Function.comp_apply, hnone, Option.map_none]
  · rw [hR, Function.comp_update, Option.map_some, hr]

theorem Change.use_record (hU : U k p) (hsome : R k = some r) (hr : ticket r = (p, false))
    (hr' : ticket r' = (p, true)) (hR : R' = Function.update R k (some r')) :
    Change I U (Option.map ticket ∘ R) (Option.map ticket ∘ R') := by
  refine .use hU ?_ ?_
  · rw [Function.comp_apply, hsome, Option.map_some, hr]
  · rw [hR, Function.comp_update, Option.map_some, hr']

/-- A record just written is the ticket it reads as. -/
theorem written_record {x : π × Bool} (hr : ticket r = x) (hR : R' = Function.update R k (some r)) :
    (Option.map ticket ∘ R') k = some x := by
  rw [Function.comp_apply, hR, Function.update_self, Option.map_some, hr]

theorem used_record (hsome : R k = some r) (hr : ticket r = (p, false))
    (hr' : ticket r' = (p, true)) (hR : R' = Function.update R k (some r')) :
    (Option.map ticket ∘ R) k = some (p, false) ∧ (Option.map ticket ∘ R') k = some (p, true) := by
  constructor
  · rw [Function.comp_apply, hsome, Option.map_some, hr]
  · exact written_record hr' hR

omit [DecidableEq κ] in
/-- A used ticket is a record marked used. -/
theorem used_iff (ticket : ρ → π × Bool) : (∃ p, (Option.map ticket ∘ R) k = some (p, true)) ↔
    ∃ r, R k = some r ∧ (ticket r).2 = true := by
  constructor
  · rintro ⟨p, hp⟩
    obtain ⟨r, hr, hticket⟩ := Option.map_eq_some_iff.mp hp
    exact ⟨r, hr, congrArg Prod.snd hticket⟩
  · rintro ⟨r, hr, hused⟩
    refine ⟨(ticket r).1, ?_⟩
    rw [Function.comp_apply, hr, Option.map_some, ← hused]

end Change

/-- A system with tickets. -/
structure Tickets (step : σ → ε → σ → Prop) (κ π : Type) [DecidableEq κ] where
  /-- The tickets issued so far, each with whether it was used. -/
  store : σ → κ → Option (π × Bool)
  Issues : Transition σ ε → κ → π → Prop
  Uses : Transition σ ε → κ → π → Prop
  issues_unique : ∀ {t k k' p p'}, Issues t k p → Issues t k' p' → k = k'
  uses_unique : ∀ {t k k' p p'}, Uses t k p → Uses t k' p' → k = k'
  change : ∀ {t : Transition σ ε}, step t.pre t.label t.post →
    Change (Issues t) (Uses t) (store t.pre) (store t.post)
  use : ∀ {t : Transition σ ε} {k p}, step t.pre t.label t.post → Uses t k p →
    store t.pre k = some (p, false) ∧ store t.post k = some (p, true)

namespace Tickets

variable {step : σ → ε → σ → Prop} (T : Tickets step κ π) {s₀ s : σ}
  {ts : List (Transition σ ε)} {k : κ} {p q : π}

theorem stays_run (h : Run step s₀ ts s) (hk : T.store s₀ k = some (p, true)) :
    T.store s k = some (p, true) := by
  have hstep : ∀ {s e s'}, T.store s k = some (p, true) → step s e s' →
      T.store s' k = some (p, true) :=
    fun {s e s'} hk hs => (T.change (t := ⟨s, e, s'⟩) hs).stays hk
  exact Run.invariant (I := fun s => T.store s k = some (p, true)) hk hstep h

/-- A ticket was issued at some point of the run. -/
theorem issued (h0 : ∀ k, T.store s₀ k = none) (h : Run step s₀ ts s) {u : Bool}
    (hk : T.store s k = some (p, u)) : ∃ (j : Nat) (t : Transition σ ε), ts[j]? = some t ∧ T.Issues t k p := by
  induction h generalizing u with
  | nil => cases (h0 k).symm.trans hk
  | @snoc ts s s' e _ hs ih =>
      rcases (T.change (t := ⟨s, e, s'⟩) hs).origin hk with ⟨u', hpre⟩ | hi
      · obtain ⟨j, t, ht, hi⟩ := ih hpre
        have hj : j < ts.length := (List.getElem?_eq_some_iff.mp ht).1
        exact ⟨j, t, by rw [List.getElem?_append_left hj, ht], hi⟩
      · exact ⟨ts.length, _, List.getElem?_concat_length, hi⟩

/-- A ticket used once is not used later. -/
theorem not_reused (h : Run step s₀ ts s) {i j : Nat} (hij : i < j) {t u : Transition σ ε}
    (ht : ts[i]? = some t) (hu : ts[j]? = some u) (huse : T.Uses t k p) : ¬ T.Uses u k q := by
  intro hagain
  obtain ⟨-, hst, hafter⟩ := h.at ht
  have hlater : (ts.drop (i + 1))[j - (i + 1)]? = some u := by
    rw [List.getElem?_drop, Nat.add_sub_cancel' hij, hu]
  obtain ⟨hbetween, hsu, -⟩ := hafter.at hlater
  have hmarked := T.stays_run hbetween (T.use hst huse).2
  have hfresh := (T.use hsu hagain).1
  cases hmarked.symm.trans hfresh

/-- No ticket is used twice. -/
theorem used_once (h : Run step s₀ ts s) {i j : Nat} {t u : Transition σ ε}
    (ht : ts[i]? = some t) (hu : ts[j]? = some u) (huse : T.Uses t k p) (hagain : T.Uses u k q) :
    i = j := by
  rcases Nat.lt_trichotomy i j with hij | hij | hij
  · exact absurd hagain (T.not_reused h hij ht hu huse)
  · exact hij
  · exact absurd huse (T.not_reused h hij hu ht hagain)

/-- A use goes back to the issue of the same ticket. -/
theorem used_issued (h0 : ∀ k, T.store s₀ k = none) (h : Run step s₀ ts s) {i : Nat}
    {t : Transition σ ε} (ht : ts[i]? = some t) (huse : T.Uses t k p) :
    ∃ (j : Nat) (u : Transition σ ε), j < i ∧ ts[j]? = some u ∧ T.Issues u k p := by
  obtain ⟨hbefore, hst, -⟩ := h.at ht
  obtain ⟨j, u, hu, hi⟩ := T.issued h0 hbefore (T.use hst huse).1
  have hj : j < (ts.take i).length := (List.getElem?_eq_some_iff.mp hu).1
  have hji : j < i := lt_of_lt_of_le hj (List.length_take_le i ts)
  rw [List.getElem?_take_of_lt hji] at hu
  exact ⟨j, u, hji, hu, hi⟩

/-- Uses are matched one to one to earlier issues with the same payload. -/
theorem matched (h0 : ∀ k, T.store s₀ k = none) (h : Run step s₀ ts s) :
    Matched ts (fun t p => ∃ k, T.Uses t k p) (fun t p => ∃ k, T.Issues t k p) := by
  -- the payload of a use is that of its ticket, so the issue does not depend on it
  have hissue : ∀ i : Nat, ∃ j : Nat, ∀ t k p, ts[i]? = some t → T.Uses t k p →
      j < i ∧ ∃ u, ts[j]? = some u ∧ T.Issues u k p := by
    intro i
    by_cases hex : ∃ t k p, ts[i]? = some t ∧ T.Uses t k p
    · obtain ⟨t, k, p, ht, huse⟩ := hex
      obtain ⟨j, u, hj, hu, hi⟩ := T.used_issued h0 h ht huse
      refine ⟨j, fun t' k' p' ht' huse' => ⟨hj, u, hu, ?_⟩⟩
      cases ht.symm.trans ht'
      cases T.uses_unique huse huse'
      obtain ⟨hbefore, hst, -⟩ := h.at ht
      cases (T.use hst huse).1.symm.trans (T.use hst huse').1
      exact hi
    · exact ⟨0, fun t k p ht huse => absurd ⟨t, k, p, ht, huse⟩ hex⟩
  choose f hf using hissue
  refine ⟨f, ?_, ?_⟩
  · rintro i ⟨t, p, ht, k, huse⟩ j ⟨t', p', ht', k', huse'⟩ hij
    obtain ⟨-, u, hu, hi⟩ := hf i t k p ht huse
    obtain ⟨-, u', hu', hi'⟩ := hf j t' k' p' ht' huse'
    rw [hij] at hu
    cases hu.symm.trans hu'
    cases T.issues_unique hi hi'
    exact T.used_once h ht ht' huse huse'
  · rintro i t p ht ⟨k, huse⟩
    obtain ⟨hlt, u, hu, hi⟩ := hf i t k p ht huse
    exact ⟨hlt, u, hu, k, hi⟩

/-- Where an issue puts its ticket in the store, the unused tickets are those issued and not used
since. -/
theorem unused_iff (h0 : ∀ k, T.store s₀ k = none)
    (hissue : ∀ {t : Transition σ ε} {k p}, step t.pre t.label t.post → T.Issues t k p →
      T.store t.post k = some (p, false))
    (h : Run step s₀ ts s) :
    T.store s k = some (p, false) ↔
      Since ts (fun t => T.Issues t k p) (fun t => ∃ q, T.Uses t k q) := by
  induction h with
  | nil =>
      rw [h0 k]
      simp only [reduceCtorEq, not_since_nil]
  | @snoc ts s s' e _ hs ih =>
      have hchange := T.change (t := ⟨s, e, s'⟩) hs
      rw [since_snoc_iff, ← ih]
      constructor
      · intro hk
        rcases hchange.origin hk with ⟨u, hpre⟩ | hi
        · cases u with
          | false =>
              refine .inr ⟨hpre, ?_⟩
              rintro ⟨q, huse⟩
              cases hk.symm.trans (T.use (t := ⟨s, e, s'⟩) hs huse).2
          | true => cases hk.symm.trans (hchange.stays hpre)
        · exact .inl hi
      · rintro (hi | ⟨hpre, hnot⟩)
        · exact hissue (t := ⟨s, e, s'⟩) hs hi
        · exact hchange.unused hpre fun q huse => hnot ⟨q, huse⟩

/-- In a run of a system with tickets, demands a step meets with a ticket are met by
single-use ones. -/
theorem singleUse {Demands : Transition σ ε → π → Prop} {Serves : Transition σ ε → κ → Prop}
    {Consumed : σ → κ → Prop} (h0 : ∀ k, T.store s₀ k = none) (h : Run step s₀ ts s)
    (hdemands : ∀ {t : Transition σ ε} {p}, step t.pre t.label t.post → Demands t p →
      ∃ k, T.Uses t k p)
    (hserves : ∀ {t k}, Serves t k → ∃ p, T.Uses t k p)
    (hconsumed : ∀ {s k}, Consumed s k ↔ ∃ p, T.store s k = some (p, true)) :
    SingleUse ts Demands T.Issues Serves Consumed where
  matched := (T.matched h0 h).mono (fun t ht p hd => hdemands (h.of_mem ht).2 hd) fun _ _ hi => hi
  stays t ht k hk := by
    obtain ⟨p, hp⟩ := hconsumed.mp hk
    exact hconsumed.mpr ⟨p, (T.change (h.of_mem ht).2).stays hp⟩
  once i j t u k ht hu hst hsu := by
    obtain ⟨p, huse⟩ := hserves hst
    obtain ⟨q, hagain⟩ := hserves hsu
    exact T.used_once h ht hu huse hagain

end Tickets

end Lts
