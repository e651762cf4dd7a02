/-
# `Oragami.Lib.TokenRun` — what another program does to the tokens, as token calls

A program reaches the ledger only by calling the token program, signing for the
addresses it derives.  To a system that shares the ledger and knows nothing else of
that program, its instruction is therefore a few calls to the token program
(`TokenCall.runs`), none of which the system's own addresses sign: a run of steps
the system has anyway (`Hosts.run_of_runs`).
-/
import Oragami.Lib.Run
import Oragami.Lib.TokenCall

open Lts

namespace TokenCall

variable {K : Type} [DecidableEq K] [TokenProgram K]

/-- The ledger after several calls, if all are accepted. -/
def runs (L : Ledger K) : List (TokenCall K) → Option (Ledger K)
  | [] => some L
  | c :: cs => (c.run L).bind fun L' => runs L' cs

@[simp] theorem runs_nil {L : Ledger K} : runs L [] = some L := rfl

theorem runs_cons {L L' L'' : Ledger K} {c : TokenCall K} {cs : List (TokenCall K)}
    (h : c.run L = some L') (hs : runs L' cs = some L'') : runs L (c :: cs) = some L'' := by
  simp only [runs, h, Option.bind_some, hs]

theorem runs_pair {L L' L'' : Ledger K} {c d : TokenCall K} (hc : c.run L = some L')
    (hd : d.run L' = some L'') : runs L [c, d] = some L'' :=
  runs_cons hc (runs_cons hd runs_nil)

/-- What every call keeps of the ledger, several keep. -/
theorem runs_invariant {I : Ledger K → Prop} {L L' : Ledger K} {cs : List (TokenCall K)}
    (hcall : ∀ {L L'} {c : TokenCall K}, I L → c.run L = some L' → I L') (hI : I L)
    (h : runs L cs = some L') : I L' := by
  induction cs generalizing L with
  | nil =>
      simp only [runs_nil, Option.some.injEq] at h
      exact h ▸ hI
  | cons c cs ih =>
      simp only [runs, Option.bind_eq_some_iff] at h
      obtain ⟨L₁, hc, hcs⟩ := h
      exact ih (hcall hI hc) hcs

variable {P : K → Prop}

/-- The calls an instruction makes: each is signed by who signed the instruction, or by an
address of the program. -/
structure Issues (P : K → Prop) (signer : Option K) (L : Ledger K) (cs : List (TokenCall K))
    (L' : Ledger K) : Prop where
  runs : runs L cs = some L'
  signed : ∀ c ∈ cs, c.signer ∈ signer ∨ P c.signer

theorem Issues.none {signer : Option K} (L : Ledger K) : Issues P signer L [] L where
  runs := runs_nil
  signed := by simp

theorem Issues.one {signer : Option K} {L L' : Ledger K} {c : TokenCall K}
    (h : c.run L = some L') (hsig : c.signer ∈ signer ∨ P c.signer) :
    Issues P signer L [c] L' where
  runs := runs_cons h runs_nil
  signed := by simpa using hsig

theorem Issues.two {signer : Option K} {L L' L'' : Ledger K} {c d : TokenCall K}
    (hc : c.run L = some L') (hd : d.run L' = some L'') (hcsig : c.signer ∈ signer ∨ P c.signer)
    (hdsig : d.signer ∈ signer ∨ P d.signer) : Issues P signer L [c, d] L'' where
  runs := runs_pair hc hd
  signed := by
    intro x hx
    rcases List.mem_pair.mp hx with rfl | rfl
    · exact hcsig
    · exact hdsig

/-- A program opens a mint and an account, at addresses of its own. -/
theorem Issues.opening {signer : Option K} {L : Ledger K} {mint authority account asset : K}
    (hvacant : L.Vacant mint) (hasset : L.IsMint asset)
    (hroom : (L.openMint mint authority).Vacant account) (hmint : P mint) (haccount : P account) :
    Issues P signer L [.openMint authority .token mint, .openAccount asset authority account]
      ((L.openMint mint authority).openAccount account asset authority) := by
  obtain ⟨M, hM, hprogram⟩ := hasset
  have hne : asset ≠ mint := by
    rintro rfl
    cases hM.symm.trans hvacant.2
  have hM' : (L.openMint mint authority).mint asset = some M := by
    rw [Ledger.openMint, Ledger.setMint_mint_ne _ _ hne, hM]
  have hopen : (TokenCall.openMint authority .token mint).run L =
      some (L.openMint mint authority) := if_pos hvacant
  refine .two hopen ?_ (.inr hmint) (.inr haccount)
  simp only [TokenCall.run, hM', hprogram, if_pos hroom]
  rfl

end TokenCall

/-! ## Systems that share the ledger -/

/-- A system with the ledger in its state, whose steps include the direct calls that no key of
`Q` signs. -/
structure Hosts {K σ δ : Type} [DecidableEq K] [TokenProgram K] (step : σ → δ → σ → Prop)
    (get : σ → Ledger K) (put : σ → Ledger K → σ) (label : TokenCall K → δ) (Q : K → Prop) :
    Prop where
  get_put : ∀ s L, get (put s L) = L
  put_get : ∀ s, put s (get s) = s
  put_put : ∀ s L L', put (put s L) L' = put s L'
  call : ∀ {s c L}, ¬ Q c.signer → c.run (get s) = some L → step s (label c) (put s L)

section Hosts

variable {K σ δ : Type} [DecidableEq K] [TokenProgram K] {step : σ → δ → σ → Prop}
  {get : σ → Ledger K} {put : σ → Ledger K → σ} {label : TokenCall K → δ} {P Q : K → Prop}

/-- Accepted calls are a run of the system. -/
theorem Hosts.run_of_runs (H : Hosts step get put label Q) {cs : List (TokenCall K)} {s : σ}
    {L : Ledger K} (hruns : TokenCall.runs (get s) cs = some L) (hsig : ∀ c ∈ cs, ¬ Q c.signer) :
    ∃ us, us.map (·.label) = cs.map label ∧ Run step s us (put s L) := by
  induction cs generalizing s with
  | nil =>
      simp only [TokenCall.runs_nil, Option.some.injEq] at hruns
      subst hruns
      exact ⟨[], rfl, Run.nil_iff.mpr (H.put_get s)⟩
  | cons c cs ih =>
      simp only [TokenCall.runs, Option.bind_eq_some_iff] at hruns
      obtain ⟨L', hc, hcs⟩ := hruns
      rw [← H.get_put s L'] at hcs
      obtain ⟨us, hlabels, hrun⟩ := ih hcs fun d hd => hsig d (List.mem_cons_of_mem _ hd)
      rw [H.put_put] at hrun
      refine ⟨⟨s, label c, put s L'⟩ :: us, ?_, ?_⟩
      · rw [List.map_cons, List.map_cons, hlabels]
      · exact .cons (H.call (hsig c List.mem_cons_self) hc) hrun

/-- An instruction of a program with other addresses is a run of the system. -/
theorem Hosts.run_of_issues (H : Hosts step get put label Q) {cs : List (TokenCall K)} {s : σ}
    {L : Ledger K} {signer : Option K} (h : TokenCall.Issues P signer (get s) cs L)
    (hsigner : ∀ k ∈ signer, ¬ Q k) (hother : ∀ k, P k → ¬ Q k) :
    ∃ us, us.map (·.label) = cs.map label ∧ Run step s us (put s L) := by
  refine H.run_of_runs h.runs ?_
  intro c hc
  rcases h.signed c hc with hk | hk
  · exact hsigner _ hk
  · exact hother _ hk

end Hosts
