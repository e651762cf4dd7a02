/-
# `Oragami.Lib.Run` — labelled runs, and what every step keeps, every run keeps

A transition relation `step s e s'` over any states and labels.  A run from
`s₀` is a list of transitions, oldest first, each starting where the one
before it ended.  The transitions carry the states they join, so a statement
about the history of a run ("the last post", "the state the deposit was made
in") reads it off the list and needs no ghost state.

Six rules carry the rest of the development:

* `Run.invariant` — kept by every step, so it holds after every run;
* `Run.kept`, `Run.kept_iff` — kept by the steps under a condition, so it holds all along
  the runs under it, and, where the condition is exact, along no other;
* `Run.kept_or_lost` — the same where what is once lost stays lost;
* `Run.split` — a transition of a run starts in a state the run had reached
  and continues from the state it ended in;
* `Run.simulate` — a map of states under which every step is a step of another
  system turns runs into runs;
* `Run.expand` — the same where a step of the one is a run of the other.

Where steps are computed, `play` makes a run out of any list of labels: the
refused ones drop out.
-/
import Mathlib.Data.List.Forall2
import Mathlib.Data.List.Induction

namespace Lts

variable {σ τ ε δ : Type}

/-- One transition of a run, with the states it joins. -/
structure Transition (σ ε : Type) where
  pre : σ
  label : ε
  post : σ

/-- `Run step s₀ ts s`: the transitions `ts`, oldest first, lead from `s₀` to `s`. -/
inductive Run (step : σ → ε → σ → Prop) (s₀ : σ) : List (Transition σ ε) → σ → Prop
  | nil : Run step s₀ [] s₀
  | snoc {ts : List (Transition σ ε)} {s s' : σ} {e : ε} :
      Run step s₀ ts s → step s e s' → Run step s₀ (ts ++ [⟨s, e, s'⟩]) s'

variable {step : σ → ε → σ → Prop} {s₀ s : σ} {ts : List (Transition σ ε)}

/-- What every step keeps, every run keeps. -/
theorem Run.invariant {I : σ → Prop} (h0 : I s₀)
    (hstep : ∀ {s e s'}, I s → step s e s' → I s') (h : Run step s₀ ts s) : I s := by
  induction h with
  | nil => exact h0
  | snoc _ hs ih => exact hstep ih hs

/-- What every step keeps of a history, every run establishes of its own. -/
theorem Run.history {I : List (Transition σ ε) → σ → Prop} (h0 : I [] s₀)
    (hstep : ∀ {ts s e s'}, Run step s₀ ts s → I ts s → step s e s' →
      I (ts ++ [⟨s, e, s'⟩]) s')
    (h : Run step s₀ ts s) : I ts s := by
  induction h with
  | nil => exact h0
  | snoc hr hs ih => exact hstep hr ih hs

/-- What the steps under `G` keep holds before and after every transition of a run under `G`. -/
theorem Run.kept {I : σ → Prop} {G : Transition σ ε → Prop} (h0 : I s₀)
    (hstep : ∀ {s e s'}, I s → step s e s' → G ⟨s, e, s'⟩ → I s') (h : Run step s₀ ts s)
    (hG : ∀ t ∈ ts, G t) : I s ∧ ∀ t ∈ ts, I t.pre ∧ I t.post := by
  induction h with
  | nil => exact ⟨h0, by simp⟩
  | snoc _ hs ih =>
      simp only [List.forall_mem_append, List.forall_mem_singleton] at hG ⊢
      obtain ⟨hpre, hall⟩ := ih hG.1
      have hpost := hstep hpre hs hG.2
      exact ⟨hpost, hall, hpre, hpost⟩

/-- Where a step keeps `I` exactly under `G`, every state of a run has `I` exactly when every
transition is under `G`. -/
theorem Run.kept_iff {I : σ → Prop} {G : Transition σ ε → Prop} (h0 : I s₀)
    (hstep : ∀ {ts s e s'}, Run step s₀ ts s → I s → step s e s' → (I s' ↔ G ⟨s, e, s'⟩))
    (h : Run step s₀ ts s) : ((∀ t ∈ ts, I t.post) ↔ ∀ t ∈ ts, G t) ∧ ((∀ t ∈ ts, G t) → I s) := by
  induction h with
  | nil => exact ⟨by simp, fun _ => h0⟩
  | snoc hr hs ih =>
      obtain ⟨hiff, hend⟩ := ih
      simp only [List.forall_mem_append, List.forall_mem_singleton]
      refine ⟨⟨?_, ?_⟩, ?_⟩
      · rintro ⟨hposts, hpost⟩
        have hkept := hiff.mp hposts
        exact ⟨hkept, (hstep hr (hend hkept) hs).mp hpost⟩
      · rintro ⟨hkept, hlast⟩
        exact ⟨hiff.mpr hkept, (hstep hr (hend hkept) hs).mpr hlast⟩
      · rintro ⟨hkept, hlast⟩
        exact (hstep hr (hend hkept) hs).mpr hlast

/-- Where `I` is kept under `G` and without it lost for good, the end of a run shows whether all
of it was under `G`. -/
theorem Run.kept_or_lost {I B : σ → Prop} {G : Transition σ ε → Prop} (h0 : I s₀)
    (hkept : ∀ {s e s'}, I s → step s e s' → G ⟨s, e, s'⟩ → I s')
    (hlost : ∀ {s e s'}, I s → step s e s' → ¬ G ⟨s, e, s'⟩ → B s')
    (hgone : ∀ {s e s'}, B s → step s e s' → B s') (h : Run step s₀ ts s) :
    ((∀ t ∈ ts, G t) ∧ I s) ∨ ((∃ t ∈ ts, ¬ G t) ∧ B s) := by
  induction h with
  | nil => exact .inl ⟨by simp, h0⟩
  | @snoc ts s s' e _ hs ih =>
      rcases ih with ⟨hall, hI⟩ | ⟨⟨t, ht, hnot⟩, hB⟩
      · by_cases hG : G ⟨s, e, s'⟩
        · refine .inl ⟨?_, hkept hI hs hG⟩
          simp only [List.forall_mem_append, List.forall_mem_singleton]
          exact ⟨hall, hG⟩
        · exact .inr ⟨⟨_, List.mem_append_right _ (List.mem_singleton_self _), hG⟩, hlost hI hs hG⟩
      · exact .inr ⟨⟨t, List.mem_append_left _ ht, hnot⟩, hgone hB hs⟩

@[simp] theorem Run.nil_iff : Run step s₀ [] s ↔ s = s₀ := by
  constructor
  · intro h
    generalize hl : ([] : List (Transition σ ε)) = l at h
    cases h with
    | nil => rfl
    | snoc _ _ => simp at hl
  · rintro rfl
    exact .nil

theorem Run.snoc_iff {t : Transition σ ε} :
    Run step s₀ (ts ++ [t]) s ↔
      Run step s₀ ts t.pre ∧ step t.pre t.label t.post ∧ s = t.post := by
  constructor
  · intro h
    generalize hl : ts ++ [t] = l at h
    cases h with
    | nil => simp at hl
    | snoc hr hs =>
        obtain ⟨rfl, ht⟩ := List.append_inj' hl rfl
        cases List.cons.inj ht |>.1
        exact ⟨hr, hs, rfl⟩
  · rintro ⟨hr, hs, rfl⟩
    exact .snoc hr hs

/-- A run over `ts ++ us` passes through a state between the two. -/
theorem Run.append_iff {us : List (Transition σ ε)} :
    Run step s₀ (ts ++ us) s ↔ ∃ m, Run step s₀ ts m ∧ Run step m us s := by
  induction us using List.reverseRecOn generalizing s with
  | nil => simp
  | append_singleton us t ih =>
      rw [← List.append_assoc, Run.snoc_iff, ih]
      constructor
      · rintro ⟨⟨m, hm, hu⟩, hs, rfl⟩
        exact ⟨m, hm, .snoc hu hs⟩
      · rintro ⟨m, hm, hu⟩
        obtain ⟨hus, hs, rfl⟩ := Run.snoc_iff.mp hu
        exact ⟨⟨m, hm, hus⟩, hs, rfl⟩

/-- A run may be grown at its start. -/
theorem Run.cons {s₁ : σ} {e : ε} (hs : step s₀ e s₁) (h : Run step s₁ ts s) :
    Run step s₀ (⟨s₀, e, s₁⟩ :: ts) s := by
  have hfirst : Run step s₀ ([] ++ [⟨s₀, e, s₁⟩]) s₁ := .snoc .nil hs
  exact Run.append_iff.mpr ⟨s₁, hfirst, h⟩

/-- A transition of a run starts in a state the run had reached, is a step, and
the rest of the run continues from the state it ended in. -/
theorem Run.split {before after : List (Transition σ ε)} {t : Transition σ ε}
    (h : Run step s₀ (before ++ t :: after) s) :
    Run step s₀ before t.pre ∧ step t.pre t.label t.post ∧ Run step t.post after s := by
  rw [List.append_cons] at h
  obtain ⟨m, hb, ha⟩ := Run.append_iff.mp h
  obtain ⟨hr, hs, rfl⟩ := Run.snoc_iff.mp hb
  exact ⟨hr, hs, ha⟩

/-- The transition at position `i`, between what was run before it and after it. -/
theorem Run.at {i : Nat} {t : Transition σ ε} (h : Run step s₀ ts s) (ht : ts[i]? = some t) :
    Run step s₀ (ts.take i) t.pre ∧ step t.pre t.label t.post ∧
      Run step t.post (ts.drop (i + 1)) s := by
  obtain ⟨hi, rfl⟩ := List.getElem?_eq_some_iff.mp ht
  have hts : ts = ts.take i ++ ts[i] :: ts.drop (i + 1) := by
    rw [← List.drop_eq_getElem_cons hi, List.take_append_drop]
  rw [hts] at h
  exact h.split

/-- Every transition of a run is a step out of a state a prefix of it reached. -/
theorem Run.of_mem {t : Transition σ ε} (h : Run step s₀ ts s) (ht : t ∈ ts) :
    (∃ before, Run step s₀ before t.pre) ∧ step t.pre t.label t.post := by
  obtain ⟨before, after, rfl⟩ := List.append_of_mem ht
  exact ⟨⟨before, h.split.1⟩, h.split.2.1⟩

/-- A run out of states with `I` is one of the system restricted to them. -/
theorem Run.restrict {I : σ → Prop} (h : Run step s₀ ts s) (hI : ∀ t ∈ ts, I t.pre) :
    Run (fun s e s' => I s ∧ step s e s') s₀ ts s := by
  induction h with
  | nil => exact .nil
  | snoc _ hs ih =>
      simp only [List.forall_mem_append, List.forall_mem_singleton] at hI
      exact .snoc (ih hI.1) ⟨hI.2, hs⟩

/-- A transition seen through a map of states and a reading of labels. -/
def Transition.map (f : σ → τ) (g : Transition σ ε → δ) (t : Transition σ ε) :
    Transition τ δ :=
  ⟨f t.pre, g t, f t.post⟩

/-- Forward simulation.  `I` is an invariant of the concrete system the proof of
the single step may use. -/
theorem Run.simulate {step' : τ → δ → τ → Prop} {I : σ → Prop} {f : σ → τ}
    {g : Transition σ ε → δ} (h0 : I s₀)
    (hinv : ∀ {s e s'}, I s → step s e s' → I s')
    (hsim : ∀ {s e s'}, I s → step s e s' → step' (f s) (g ⟨s, e, s'⟩) (f s'))
    (h : Run step s₀ ts s) : Run step' (f s₀) (ts.map (·.map f g)) (f s) := by
  induction h with
  | nil => exact .nil
  | snoc hr hs ih =>
      rw [List.map_append]
      exact .snoc ih (hsim (hr.invariant h0 hinv) hs)

/-- Forward simulation by runs: each step, seen through `f`, is a run of another system that `R`
relates to it. -/
theorem Run.expand {step' : τ → δ → τ → Prop} {f : σ → τ}
    {R : Transition σ ε → List (Transition τ δ) → Prop}
    (hsim : ∀ {ts s e s'}, Run step s₀ ts s → step s e s' →
      ∃ us, R ⟨s, e, s'⟩ us ∧ Run step' (f s) us (f s'))
    (h : Run step s₀ ts s) :
    ∃ uss, List.Forall₂ R ts uss ∧ Run step' (f s₀) uss.flatten (f s) := by
  induction h with
  | nil => exact ⟨[], .nil, .nil⟩
  | snoc hr hs ih =>
      obtain ⟨uss, hall, hrun⟩ := ih
      obtain ⟨us, hR, hus⟩ := hsim hr hs
      refine ⟨uss ++ [us], List.rel_append hall (.cons hR .nil), ?_⟩
      rw [List.flatten_append, List.flatten_singleton]
      exact Run.append_iff.mpr ⟨_, hrun, hus⟩

/-- What related transitions pass on, all of the expanded run has. -/
theorem forall_mem_flatten {R : Transition σ ε → List (Transition τ δ) → Prop}
    {G : Transition σ ε → Prop} {H : Transition τ δ → Prop} {uss : List (List (Transition τ δ))}
    (hall : List.Forall₂ R ts uss) (hpass : ∀ {t us}, R t us → G t → ∀ u ∈ us, H u)
    (hG : ∀ t ∈ ts, G t) : ∀ u ∈ uss.flatten, H u := by
  induction hall with
  | nil =>
      intro u hu
      cases hu
  | cons hR _ ih =>
      intro u hu
      rcases List.mem_append.mp hu with hu | hu
      · exact hpass hR (hG _ List.mem_cons_self) u hu
      · exact ih (fun t ht => hG t (List.mem_cons_of_mem _ ht)) u hu

/-! ## Since -/

/-- Something in `I` happened, and nothing in `U` has since. -/
def Since (ts : List (Transition σ ε)) (I U : Transition σ ε → Prop) : Prop :=
  ∃ before t after, ts = before ++ t :: after ∧ I t ∧ ∀ u ∈ after, ¬ U u

section Since

variable {I I' U U' : Transition σ ε → Prop}

theorem not_since_nil : ¬ Since ([] : List (Transition σ ε)) I U := by
  rintro ⟨before, t, after, hts, -⟩
  cases before <;> cases hts

/-- The last transition decides, or leaves it as it was. -/
theorem since_snoc_iff {t : Transition σ ε} :
    Since (ts ++ [t]) I U ↔ I t ∨ (Since ts I U ∧ ¬ U t) := by
  constructor
  · rintro ⟨before, u, after, hts, hu, hafter⟩
    rcases List.eq_nil_or_concat after with rfl | ⟨after, w, rfl⟩
    · obtain ⟨-, ht⟩ := List.append_inj' hts rfl
      cases ht
      exact .inl hu
    · rw [List.concat_eq_append, ← List.cons_append, ← List.append_assoc] at hts
      obtain ⟨hinit, ht⟩ := List.append_inj' hts rfl
      cases ht
      rw [List.concat_eq_append] at hafter
      refine .inr ⟨⟨before, u, after, hinit, hu, ?_⟩, ?_⟩
      · intro x hx
        exact hafter x (List.mem_append_left _ hx)
      · exact hafter t (List.mem_append_right _ List.mem_cons_self)
  · rintro (ht | ⟨⟨before, u, after, rfl, hu, hafter⟩, ht⟩)
    · exact ⟨ts, t, [], rfl, ht, fun _ hx => absurd hx List.not_mem_nil⟩
    · refine ⟨before, u, after ++ [t], by rw [List.append_assoc, List.cons_append], hu, ?_⟩
      intro x hx
      rcases List.mem_append.mp hx with hx | hx
      · exact hafter x hx
      · rw [List.mem_singleton.mp hx]
        exact ht

theorem Since.imp (hI : ∀ t ∈ ts, I t → I' t) (hU : ∀ t ∈ ts, U' t → U t) (h : Since ts I U) :
    Since ts I' U' := by
  obtain ⟨before, t, after, rfl, ht, hafter⟩ := h
  refine ⟨before, t, after, rfl, hI t (List.mem_append_right _ List.mem_cons_self) ht, ?_⟩
  intro u hu hU'
  exact hafter u hu (hU u (List.mem_append_right _ (List.mem_cons_of_mem _ hu)) hU')

end Since

/-! ## The last write -/

/-- Of the transitions that wrote something, the last wrote `a`. -/
def LastWrote {α : Type} (ts : List (Transition σ ε)) (write : Transition σ ε → Option α) (a : α) :
    Prop :=
  Since ts (fun t => write t = some a) fun t => (write t).isSome

section LastWrote

variable {α : Type} {write : Transition σ ε → Option α} {a : α} {t : Transition σ ε}

theorem LastWrote.wrote (ts : List (Transition σ ε)) (h : write t = some a) :
    LastWrote (ts ++ [t]) write a :=
  since_snoc_iff.mpr (.inl h)

/-- A transition writes over the last write, or leaves it. -/
theorem LastWrote.next (h : LastWrote ts write a) :
    LastWrote (ts ++ [t]) write ((write t).getD a) := by
  cases hw : write t with
  | some b => exact .wrote ts hw
  | none =>
      refine since_snoc_iff.mpr (.inr ⟨h, ?_⟩)
      simp [hw]

theorem LastWrote.keep (h : LastWrote ts write a) (hw : write t = none) :
    LastWrote (ts ++ [t]) write a := by
  have hnext : LastWrote (ts ++ [t]) write ((write t).getD a) := h.next
  rw [hw] at hnext
  exact hnext

end LastWrote

/-! ## Playing a list of labels -/

section Play

variable (apply : σ → ε → Option σ)

/-- The accepted labels of a list, each where it was played. -/
def play (s : σ) : List ε → List (Transition σ ε)
  | [] => []
  | e :: es =>
      match apply s e with
      | some s' => ⟨s, e, s'⟩ :: play s' es
      | none => play s es

/-- Where playing a list of labels ends. -/
def final (s : σ) : List ε → σ
  | [] => s
  | e :: es => final ((apply s e).getD s) es

variable {apply}

/-- Nothing is played that is not on the list. -/
theorem label_mem_of_play {es : List ε} {s : σ} {t : Transition σ ε} (h : t ∈ play apply s es) :
    t.label ∈ es := by
  induction es generalizing s with
  | nil => cases h
  | cons e es ih =>
      simp only [play] at h
      split at h
      · rcases List.mem_cons.mp h with rfl | h
        · exact List.mem_cons_self
        · exact List.mem_cons_of_mem _ (ih h)
      · exact List.mem_cons_of_mem _ (ih h)

theorem play_run {P : ε → Prop} (hstep : ∀ {s e s'}, apply s e = some s' → P e → step s e s')
    {es : List ε} (hP : ∀ e ∈ es, P e) (s : σ) : Run step s (play apply s es) (final apply s es) := by
  induction es generalizing s with
  | nil => exact .nil
  | cons e es ih =>
      have hrest := fun s => ih (fun e' he' => hP e' (List.mem_cons_of_mem _ he')) s
      simp only [play, final]
      split
      · next s' hs' =>
          rw [hs', Option.getD_some]
          exact .cons (hstep hs' (hP e List.mem_cons_self)) (hrest s')
      · next hs' =>
          rw [hs', Option.getD_none]
          exact hrest s

end Play

end Lts
