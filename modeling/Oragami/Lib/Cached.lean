/-
# `Oragami.Lib.Cached` — overlapping calls that share a cache

A method with a cache.  A call returns what is cached if that is less than `ttl` old.
Otherwise it sets out to make a value, which may take several answers from outside, and
then stores it under the time the call began, whatever is in the cache by then, and
returns it.  Calls overlap: between two answers of one, others begin, go on and finish,
and the world changes.

So a slow call may put an older value in the place of a newer one.  It does no harm:
a timestamp is never later than the making of the value, and what a call is served was
made by a call that began less than `ttl` before it (`served_fresh`).  `Accounted` is
what there is to prove of a method for that, one fact for its start, one for what it
reads and one for the answers: the interleaving is dealt with here.
-/
import Oragami.Lib.Run

namespace Cached

open Lts

variable {E σ ε α : Type}

/-- What a call does that finds nothing cached: `σ` is what it has in hand while it waits. -/
structure Method (E σ ε α : Type) where
  ttl : Int
  /-- A value at once, or something to wait for. -/
  start : σ ⊕ α
  /-- What is waited for is looked up in the world as it is. -/
  sample : E → σ → σ
  /-- An answer, if it can come: something else to wait for, or a value. -/
  answer : ε → σ → Option (σ ⊕ α)

/-- A value and when the call began that made it, or that it was returned by. -/
structure Stamped (α : Type) where
  began : Int
  value : α

/-- The world, the clock, the cache, the calls under way and what the others returned. -/
structure State (E σ α : Type) where
  env : E
  dateNow : Int
  cache : Option (Stamped α)
  calls : List (Option (Stamped σ))
  served : List (Stamped α)

/-- Nothing cached, no calls. -/
def State.idle (env : E) (dateNow : Int) : State E σ α := ⟨env, dateNow, none, [], []⟩

inductive Event (E ε : Type) where
  | world (env : E)
  | pass (ms : Nat)
  | call
  | sample (i : Nat)
  | answer (i : Nat) (e : ε)

/-- The cached value, while it is fresh. -/
def State.fresh (s : State E σ α) (ttl : Int) : Option (Stamped α) :=
  s.cache.filter fun c => decide (s.dateNow - c.began < ttl)

/-- A value is made: it is stored and returned. -/
def State.finish (s : State E σ α) (v : Stamped α) : State E σ α :=
  { s with cache := some v, served := s.served ++ [v] }

variable (M : Method E σ ε α)

/-- What an event does, if it can happen. -/
def State.apply (s : State E σ α) : Event E ε → Option (State E σ α)
  | .world env => some { s with env }
  | .pass ms => some { s with dateNow := s.dateNow + ms }
  | .call =>
      match s.fresh M.ttl with
      | some c => some { s with served := s.served ++ [⟨s.dateNow, c.value⟩] }
      | none =>
          match M.start with
          | .inl stage => some { s with calls := s.calls ++ [some ⟨s.dateNow, stage⟩] }
          | .inr v => some (s.finish ⟨s.dateNow, v⟩)
  | .sample i =>
      match s.calls[i]? with
      | some (some c) =>
          some { s with calls := s.calls.set i (some ⟨c.began, M.sample s.env c.value⟩) }
      | _ => none
  | .answer i e =>
      match s.calls[i]? with
      | some (some c) =>
          match M.answer e c.value with
          | some (.inl stage) => some { s with calls := s.calls.set i (some ⟨c.began, stage⟩) }
          | some (.inr v) => some ({ s with calls := s.calls.set i none }.finish ⟨c.began, v⟩)
          | none => none
      | _ => none

def Step (s : State E σ α) (e : Event E ε) (s' : State E σ α) : Prop := s.apply M e = some s'

abbrev History (E σ ε α : Type) := List (Transition (State E σ α) (Event E ε))

/-! ## Accounts -/

/-- What calls that began at some time have in hand and make, accounted for by the run so far. -/
structure Accounted (Has : History E σ ε α → Int → σ → Prop)
    (Makes : History E σ ε α → Int → α → Prop) : Prop where
  /-- Accounts stay true. -/
  has_later : ∀ {ts t b x}, Has ts b x → Has (ts ++ [t]) b x
  makes_later : ∀ {ts t b v}, Makes ts b v → Makes (ts ++ [t]) b v
  start_has : ∀ {ts b x}, M.start = .inl x → Has ts b x
  start_makes : ∀ {ts b v}, M.start = .inr v → Makes ts b v
  sample : ∀ {ts t b x i}, t.label = .sample i → b ≤ t.pre.dateNow → Has ts b x →
    Has (ts ++ [t]) b (M.sample t.pre.env x)
  answer_has : ∀ {ts t b x i e y}, t.label = .answer i e → b ≤ t.pre.dateNow →
    M.answer e x = some (.inl y) → Has ts b x → Has (ts ++ [t]) b y
  answer_makes : ∀ {ts t b x i e v}, t.label = .answer i e → b ≤ t.pre.dateNow →
    M.answer e x = some (.inr v) → Has ts b x → Makes (ts ++ [t]) b v

section Runs

variable {M} {Has : History E σ ε α → Int → σ → Prop} {Makes : History E σ ε α → Int → α → Prop}

/-- A call began at `b`. -/
def CalledAt (ts : History E σ ε α) (b : Int) : Prop :=
  ∃ t ∈ ts, t.label = .call ∧ t.pre.dateNow = b

/-- The account of a value served: it went to a call, and was made by one that began less than
`ttl` before, if not by that call itself. -/
def ServedBy (Makes : History E σ ε α → Int → α → Prop) (ttl : Int) (ts : History E σ ε α)
    (r : Stamped α) : Prop :=
  CalledAt ts r.began ∧
    ∃ b, CalledAt ts b ∧ b ≤ r.began ∧ r.began < b + ttl ∧ Makes ts b r.value

/-- A call began at `b`, which is not yet to come. -/
def Begun (ts : History E σ ε α) (s : State E σ α) (b : Int) : Prop :=
  CalledAt ts b ∧ b ≤ s.dateNow

/-- Everything in a state is accounted for. -/
structure Books (M : Method E σ ε α) (Has : History E σ ε α → Int → σ → Prop)
    (Makes : History E σ ε α → Int → α → Prop) (ts : History E σ ε α) (s : State E σ α) : Prop where
  calls : ∀ c, some c ∈ s.calls → Begun ts s c.began ∧ Has ts c.began c.value
  cache : ∀ c ∈ s.cache, Begun ts s c.began ∧ Makes ts c.began c.value
  served : ∀ r ∈ s.served, ServedBy Makes M.ttl ts r

theorem Books.idle (env : E) (dateNow : Int) :
    Books M Has Makes [] (State.idle env dateNow : State E σ α) where
  calls := by
    intro c hc
    cases hc
  cache := by
    intro c hc
    cases hc
  served := by
    intro r hr
    cases hr

variable {ts : History E σ ε α} {t : Transition (State E σ α) (Event E ε)} {s : State E σ α}

theorem CalledAt.later {b : Int} (h : CalledAt ts b) : CalledAt (ts ++ [t]) b := by
  obtain ⟨u, hu, hcall⟩ := h
  exact ⟨u, List.mem_append_left _ hu, hcall⟩

theorem CalledAt.now (hlabel : t.label = .call) : CalledAt (ts ++ [t]) t.pre.dateNow :=
  ⟨t, List.mem_append_right ts List.mem_cons_self, hlabel, rfl⟩

theorem Books.later (ha : Accounted M Has Makes) (h : Books M Has Makes ts s) :
    Books M Has Makes (ts ++ [t]) s where
  calls := by
    intro c hc
    obtain ⟨⟨hcall, hle⟩, hhas⟩ := h.calls c hc
    exact ⟨⟨hcall.later, hle⟩, ha.has_later hhas⟩
  cache := by
    intro c hc
    obtain ⟨⟨hcall, hle⟩, hmakes⟩ := h.cache c hc
    exact ⟨⟨hcall.later, hle⟩, ha.makes_later hmakes⟩
  served := by
    intro r hr
    obtain ⟨hserved, b, hcall, hle, hlt, hmakes⟩ := h.served r hr
    exact ⟨hserved.later, b, hcall.later, hle, hlt, ha.makes_later hmakes⟩

/-- A call goes on with something in hand, or is there no longer. -/
theorem Books.set {i : Nat} {c : Option (Stamped σ)} (h : Books M Has Makes ts s)
    (hc : ∀ c' ∈ c, Begun ts s c'.began ∧ Has ts c'.began c'.value) :
    Books M Has Makes ts { s with calls := s.calls.set i c } where
  calls := by
    intro c' hmem
    rcases List.mem_or_eq_of_mem_set hmem with hold | heq
    · exact h.calls c' hold
    · exact hc c' heq.symm
  cache := h.cache
  served := h.served

/-- A value made now is fresh. -/
theorem Books.finish {v : Stamped α} (httl : 0 < M.ttl) (h : Books M Has Makes ts s)
    (hbegun : Begun ts s v.began) (hmakes : Makes ts v.began v.value) :
    Books M Has Makes ts (s.finish v) where
  calls := h.calls
  cache := by
    intro c hc
    cases hc
    exact ⟨hbegun, hmakes⟩
  served := by
    intro r hr
    rcases List.mem_append.mp hr with hold | hnew
    · exact h.served r hold
    · rw [List.mem_singleton.mp hnew]
      exact ⟨hbegun.1, v.began, hbegun.1, Int.le_refl _, by omega, hmakes⟩

/-- One event keeps the books. -/
theorem Books.step (ha : Accounted M Has Makes) (httl : 0 < M.ttl) (h : Books M Has Makes ts t.pre)
    (hstep : Step M t.pre t.label t.post) : Books M Has Makes (ts ++ [t]) t.post := by
  have hlater : Books M Has Makes (ts ++ [t]) t.pre := h.later ha
  obtain ⟨pre, label, post⟩ := t
  simp only [Step] at hstep
  cases label with
  | world env =>
      cases hstep
      exact ⟨hlater.calls, hlater.cache, hlater.served⟩
  | pass ms =>
      cases hstep
      have hpassed : pre.dateNow ≤ pre.dateNow + ms :=
        Int.le_add_of_nonneg_right (Int.natCast_nonneg ms)
      refine ⟨?_, ?_, hlater.served⟩
      · intro c hc
        obtain ⟨⟨hcall, hle⟩, hhas⟩ := hlater.calls c hc
        exact ⟨⟨hcall, Int.le_trans hle hpassed⟩, hhas⟩
      · intro c hc
        obtain ⟨⟨hcall, hle⟩, hmakes⟩ := hlater.cache c hc
        exact ⟨⟨hcall, Int.le_trans hle hpassed⟩, hmakes⟩
  | call =>
      have hnow : CalledAt (ts ++ [⟨pre, .call, post⟩]) pre.dateNow := CalledAt.now rfl
      simp only [State.apply] at hstep
      split at hstep
      · next c hfresh =>
          cases hstep
          obtain ⟨hcache, hage⟩ := Option.filter_eq_some_iff.mp hfresh
          obtain ⟨⟨hcall, hle⟩, hmakes⟩ := hlater.cache c hcache
          refine ⟨hlater.calls, hlater.cache, ?_⟩
          intro r hr
          rcases List.mem_append.mp hr with hold | hnew
          · exact hlater.served r hold
          · have hlt := of_decide_eq_true hage
            rw [List.mem_singleton.mp hnew]
            exact ⟨hnow, c.began, hcall, hle, by simp only; omega, hmakes⟩
      · split at hstep
        · next stage hstart =>
            cases hstep
            refine ⟨?_, hlater.cache, hlater.served⟩
            intro c hc
            rcases List.mem_append.mp hc with hold | hnew
            · exact hlater.calls c hold
            · cases List.mem_singleton.mp hnew
              exact ⟨⟨hnow, Int.le_refl _⟩, ha.start_has hstart⟩
        · next v hstart =>
            cases hstep
            exact hlater.finish httl ⟨hnow, Int.le_refl _⟩ (ha.start_makes hstart)
  | sample i =>
      simp only [State.apply] at hstep
      split at hstep
      · next c hcall =>
          cases hstep
          obtain ⟨⟨hbegan, hle⟩, hhas⟩ := h.calls c (List.mem_of_getElem? hcall)
          refine hlater.set ?_
          rintro c' ⟨⟩
          exact ⟨⟨hbegan.later, hle⟩, ha.sample rfl hle hhas⟩
      · cases hstep
  | answer i e =>
      simp only [State.apply] at hstep
      split at hstep
      · next c hcall =>
          obtain ⟨⟨hbegan, hle⟩, hhas⟩ := h.calls c (List.mem_of_getElem? hcall)
          split at hstep
          · next stage hanswer =>
              cases hstep
              refine hlater.set ?_
              rintro c' ⟨⟩
              exact ⟨⟨hbegan.later, hle⟩, ha.answer_has rfl hle hanswer hhas⟩
          · next v hanswer =>
              cases hstep
              refine (hlater.set ?_).finish httl ⟨hbegan.later, hle⟩
                (ha.answer_makes rfl hle hanswer hhas)
              rintro c' ⟨⟩
          · cases hstep
      · cases hstep

/-- Whatever a call is served was made by a call that began less than `ttl` before it, or by
itself, however the calls overlap. -/
theorem served_fresh {env : E} {dateNow : Int} (ha : Accounted M Has Makes) (httl : 0 < M.ttl)
    (hrun : Run (Step M) (State.idle env dateNow) ts s) :
    ∀ r ∈ s.served, ServedBy Makes M.ttl ts r := by
  have hbooks : Books M Has Makes ts s := by
    refine Run.history (I := Books M Has Makes) (.idle env dateNow) ?_ hrun
    intro ts s e s' _ hs hstep
    exact Books.step (t := ⟨s, e, s'⟩) ha httl hs hstep
  exact hbooks.served

end Runs

end Cached
