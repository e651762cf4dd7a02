/-
# `Oragami.Frontend.DepositTab` — a deposit from the panel to the books

The tab shows what a deposit would bring, sends the deposit with the wallet, and tells the
backend, which records what it is told.  Between the three the chain and the tables go on,
and so do other clients.  What is told is what was shown when the button was pressed, which
may be the answer for an amount typed before, at a NAV that has changed since.

The tab names no Travel Rule record, so what it deposits is below the threshold, and every
double on the way is exact.  So its row is a deposit just where what was shown is what was
issued, and the NAV is still the same (`panel_deposit_recorded`).
-/
import Oragami.Backend.DepositHistory
import Oragami.Backend.DepositsService
import Oragami.Frontend.VaultPanel

namespace Frontend

open Lts OragamiVault Anchor Addresses Backend

variable {K : Type}

/-! ## The tab -/

/-- What is on the screen when the button is pressed: the last answer of the preflight, if there
is one, and the NAV of the statistics. -/
structure Quote where
  preflight : Option DepositPreflight
  navPriceBps : ℚ

/-- The text of an estimate is read back as a number. -/
def cvaultOut (q : Quote) (rawUsdc : ℤ) : ℤ :=
  match q.preflight with
  | some r => Js.number r.estimatedCvault
  | none => if 0 < rawUsdc then calcCvaultFromUsdc rawUsdc q.navPriceBps else 0

/-- A press of the button, with the token accounts of the wallet and the time the deposit is
executed at. -/
structure Press (K : Type) where
  wallet : K
  usdcAccount : K
  cvaultAccount : K
  rawUsdc : ℤ
  quote : Quote
  /-- A random UUID. -/
  nonce : String
  uuid : nonce.length = 36
  now : Int64

/-- `indexDeposit`. -/
def Press.dto (p : Press K) (txSignature : String) : IndexDepositDto K where
  txSignature := txSignature
  wallet := some p.wallet
  usdcAmount := some p.rawUsdc
  cvaultAmount := some (cvaultOut p.quote p.rawUsdc)
  nonce := p.nonce
  travelRuleNonceHash := none

variable [DecidableEq K] [Addresses K] [Deployment K] [TokenProgram K]

/-- The credential is derived from the payer.  That an optional account not given is none is how
the client is supposed to send it. -/
def Press.accounts (p : Press K) : Deposit K where
  vaultState := vaultStateKey
  cvaultMint := cvaultMintKey
  vaultTokenAccount := vaultTokenKey
  payerDepositAccount := p.usdcAccount
  payerCvaultAccount := p.cvaultAccount
  investorCredential := credentialKey p.wallet
  travelRuleData := none
  payer := p.wallet
  tokenProgram := TokenProgram.id

/-- `depositToVault`: a `BN` takes no number from 2⁵³ on. -/
def Press.acts (p : Press K) : Option (List (Action K)) :=
  if 0 < p.rawUsdc ∧ p.rawUsdc < 2 ^ 53 then
    some [.program p.now (.deposit p.accounts (UInt64.ofNat p.rawUsdc.toNat))]
  else none

/-! ## The quote -/

variable (K) in
/-- The quote is for an amount at a NAV: the preflight was asked about the amount while the NAV
was that, or there is no answer and the statistics have the NAV. -/
inductive Quote.For (q : Quote) (amount : ℤ) (nav : ℕ) : Prop
  | answered {r : DepositPreflight} {net : Network} {world : World K} {wallet : K}
      {vs : VaultState K} : q.preflight = some r →
      Backend.preflight net world ⟨some wallet, some amount⟩ = .ok r →
      world.chain.vaultState = some vs → vs.navPriceBps.toNat = nav → Quote.For q amount nav
  | stats : q.preflight = none → q.navPriceBps = nav → Quote.For q amount nav

omit [DecidableEq K] [TokenProgram K] in
theorem Quote.For.cvaultOut_eq {q : Quote} {amount nav : ℕ} (h : q.For K amount nav)
    (hamount : 0 < amount) (hnav : 0 < nav) (hsmall : amount * 10000 < 2 ^ 53) :
    cvaultOut q amount = (amount * 10000 / nav : ℕ) := by
  cases h with
  | @answered r net world wallet vs hq hr hvs heq =>
      obtain ⟨status, vs', -, -, hvs', -, rfl⟩ := preflight_eq_ok.mp hr
      cases hvs.symm.trans hvs'
      have hestimate : ((amount * 10000 : ℕ) : ℤ).tdiv (vs.navPriceBps.toNat : ℤ) =
          ((amount * 10000 / nav : ℕ) : ℤ) := by
        rw [← heq]
        rfl
      have hsize : ((amount * 10000 / nav : ℕ) : ℤ).natAbs ≤ 2 ^ 53 :=
        (Nat.div_le_self _ _).trans hsmall.le
      rw [cvaultOut, hq]
      show Js.number (((amount * 10000 : ℕ) : ℤ).tdiv (vs.navPriceBps.toNat : ℤ)) = _
      rw [hestimate, Js.number_of_le hsize]
  | stats hq hnavBps =>
      rw [cvaultOut, hq, hnavBps]
      show (if (0 : ℤ) < amount then _ else _) = _
      rw [if_pos (by exact_mod_cast hamount)]
      exact calcCvaultFromUsdc_eq hnav hsmall

/-! ## The deposit -/

/-- Without a Travel Rule record a deposit is below the threshold. -/
theorem deposit_ungated {now : Int64} {a : Deposit K} {amount : UInt64} {s : State K}
    {out : Outcome K} (ha : a.travelRuleData = none) (h : deposit now a amount s = .ok out) :
    amount.toNat < 1000000000 := by
  obtain ⟨vs, tr, rules, shares, L, L', td, ts, -, htr, -, hgate, -⟩ := deposit_eq_ok.mp h
  rw [ha] at htr
  cases htr
  by_contra hlarge
  have hthreshold : travelRuleThreshold ≤ amount :=
    UInt64.le_iff_toNat_le.mpr (Nat.le_of_not_lt hlarge)
  rw [travelRuleGate, if_pos hthreshold] at hgate
  cases hgate

/-- A transaction of one instruction. -/
theorem attempt_one {s s' : State K} {act : Action K}
    {executed : List (Transition (State K) (Action K))}
    (h : attempt s [act] = some (s', executed)) :
    act.apply s = some s' ∧ executed = [⟨s, act, s'⟩] := by
  simp only [attempt, Option.bind_eq_bind, Option.bind_eq_some_iff, Option.pure_def,
    Option.some.injEq, Prod.mk.injEq] at h
  obtain ⟨s₁, hs₁, out, rfl, rfl, rfl⟩ := h
  exact ⟨hs₁, rfl⟩

/-- A press that lands is one deposit, of an amount below the threshold. -/
theorem Press.deposits {p : Press K} {acts : List (Action K)} {s s' : State K}
    {executed : List (Transition (State K) (Action K))} (hacts : p.acts = some acts)
    (h : attempt s acts = some (s', executed)) :
    0 < p.rawUsdc ∧ p.rawUsdc < 1000000000 ∧ ∃ vs, s.vaultState = some vs ∧
      0 < vs.navPriceBps.toNat ∧ ∃ amount shares : UInt64, (amount.toNat : ℤ) = p.rawUsdc ∧
        shares.toNat = amount.toNat * 10000 / vs.navPriceBps.toNat ∧
        executed.filterMap depositMade = [⟨p.wallet, amount, shares, vs.navPriceBps⟩] := by
  unfold Press.acts at hacts
  split at hacts
  · next hbn =>
      cases hacts
      obtain ⟨hpos, hlt⟩ := hbn
      have hamount : (UInt64.ofNat p.rawUsdc.toNat).toNat = p.rawUsdc.toNat :=
        UInt64.toNat_ofNat_of_lt' (show p.rawUsdc.toNat < 2 ^ 64 by omega)
      obtain ⟨happly, rfl⟩ := attempt_one h
      simp only [Action.apply] at happly
      split at happly
      · next hok =>
          obtain ⟨vs, hvs, hnav, shares, hshares, rfl⟩ := deposit_made hok
          have hsmall := deposit_ungated rfl hok
          rw [hamount] at hsmall
          refine ⟨hpos, by omega, vs, hvs, hnav, _, shares, by omega, hshares, ?_⟩
          have hmade : depositMade ⟨s, .program p.now (.deposit p.accounts
              (UInt64.ofNat p.rawUsdc.toNat)), s'⟩ =
              some ⟨p.wallet, UInt64.ofNat p.rawUsdc.toNat, shares, vs.navPriceBps⟩ := by
            simp only [depositMade, show deposit _ _ _ s = _ from hok, hvs]
            rfl
          rw [List.filterMap_cons_some hmade, List.filterMap_nil]
      · cases happly
  · cases hacts

/-! ## The row -/

section Runs

variable {w₀ w w' : DepositsWorld K} {e : IndexEvent K}
  {ts : List (Transition (DepositsWorld K) (IndexEvent K))}

/-- Transactions stay, and so do rows. -/
def Kept (w w' : DepositsWorld K) : Prop :=
  (∀ txn ∈ w.transactions, txn ∈ w'.transactions) ∧ ∀ row ∈ w.db.deposits, row ∈ w'.db.deposits

theorem step_kept (h : IndexStep w e w') : Kept w w' := by
  cases h with
  | @transact signature acts _ =>
      obtain ⟨hdb, txn, -, htransactions⟩ := transact_transactions w signature acts
      refine ⟨?_, fun row hrow => hdb ▸ hrow⟩
      intro txn' htxn'
      rw [htransactions]
      exact List.mem_append_left _ htxn'
  | @index net dto =>
      obtain ⟨-, htransactions, hrows⟩ := index_deposits net w dto
      refine ⟨fun txn htxn => htransactions ▸ htxn, ?_⟩
      intro row hrow
      rcases hrows with ⟨_, _, -, -, -, hrows⟩ | ⟨-, hrows⟩
      · rw [hrows]
        exact List.mem_append_left _ hrow
      · rw [hrows]
        exact hrow
  | tables => exact ⟨fun _ htxn => htxn, fun _ hrow => hrow⟩

theorem run_kept (h : Run IndexStep w ts w') : Kept w w' := by
  refine h.invariant (I := Kept w) ⟨fun _ htxn => htxn, fun _ hrow => hrow⟩ ?_
  rintro s e s' ⟨htransactions, hrows⟩ hstep
  obtain ⟨htransactions', hrows'⟩ := step_kept hstep
  exact ⟨fun txn htxn => htransactions' txn (htransactions txn htxn),
    fun row hrow => hrows' row (hrows row hrow)⟩

omit [DecidableEq K] [Addresses K] [Deployment K] [TokenProgram K] in
/-- What a press that landed has recorded. -/
theorem Press.recorded {p : Press K} {txSignature : String} {net : IndexNetwork} {txn : Txn K}
    {row : DepositRow K} (h : Indexes net w (p.dto txSignature) txn row) :
    row.txSignature = txSignature ∧ row.institution = p.wallet ∧ row.usdcAmount = p.rawUsdc ∧
      row.cvaultAmount = cvaultOut p.quote p.rawUsdc ∧ row.travelRuleId = none := by
  refine ⟨h.copied.1, ?_, ?_, ?_, ?_⟩
  · exact (Option.some.inj h.institution.2.1).symm
  · exact (Option.some.inj h.usdcAmount).symm
  · exact (Option.some.inj h.cvaultAmount).symm
  · have hlength : p.nonce.length ≠ 64 := by
      rw [p.uuid]
      decide
    have hnone : findTravelRule net w.db (p.dto txSignature) = .ok none := if_neg hlength
    exact Except.ok.inj (h.travelRule.symm.trans hnone)

/-- Of a press whose deposit landed, and whose request is recorded at whatever later time: its
row stays, names the wallet and what was deposited, which is below the threshold, and no Travel
Rule record.  It is a deposit if and only if what was shown when the button was pressed is what
was issued, and the NAV is still the one of the deposit.  What was shown is what was issued where
the quote was for that amount at that NAV. -/
theorem panel_deposit_recorded {before between after : List (Transition (DepositsWorld K)
      (IndexEvent K))} {sent asked : Transition (DepositsWorld K) (IndexEvent K)}
    (h : Run IndexStep w₀ (before ++ sent :: (between ++ asked :: after)) w)
    (htransactions : w₀.transactions = []) (hdeposits : w₀.db.deposits = []) {p : Press K}
    {txSignature : String} {acts : List (Action K)} {net : IndexNetwork} {row : DepositRow K}
    (hacts : p.acts = some acts) (hsent : sent.label = .transact txSignature acts)
    (hlanded : (attempt sent.pre.chain acts).isSome = true)
    (hasked : asked.label = .index net (p.dto txSignature))
    (hrow : asked.post.db.deposits = asked.pre.db.deposits ++ [row]) :
    row ∈ w.db.deposits ∧ row.institution = p.wallet ∧ row.usdcAmount = p.rawUsdc ∧
    p.rawUsdc < 1000000000 ∧ row.travelRuleId = none ∧
    ∃ vs, sent.pre.chain.vaultState = some vs ∧
      (RealDeposit w.transactions row ↔
        cvaultOut p.quote p.rawUsdc = (p.rawUsdc.toNat * 10000 / vs.navPriceBps.toNat : ℕ) ∧
        asked.pre.chain.vaultState.map (·.navPriceBps) = some vs.navPriceBps) ∧
      (p.quote.For K p.rawUsdc vs.navPriceBps.toNat →
        cvaultOut p.quote p.rawUsdc = (p.rawUsdc.toNat * 10000 / vs.navPriceBps.toNat : ℕ)) := by
  obtain ⟨hbefore, hsentStep, hrest⟩ := h.split
  obtain ⟨hbetween, haskedStep, hafter⟩ := hrest.split
  obtain ⟨pre, label, post⟩ := sent
  obtain ⟨pre', label', post'⟩ := asked
  simp only at hsent hlanded hasked hrow hbefore hsentStep hbetween haskedStep hafter ⊢
  subst hsent hasked
  -- the transaction that landed
  obtain ⟨⟨s', executed⟩, hattempt⟩ := Option.isSome_iff_exists.mp hlanded
  obtain ⟨hpos, hsmall, vs, hvs, hnav, amount, shares, hamount, hshares, hmade⟩ :=
    Press.deposits hacts hattempt
  have hraw : amount.toNat = p.rawUsdc.toNat := by omega
  rw [hraw] at hshares
  have hthere : (⟨txSignature, true, executed⟩ : Txn K) ∈ post.transactions := by
    cases hsentStep with
    | transact hfresh =>
        rw [DepositsWorld.transact, hattempt]
        exact List.mem_append_right _ (List.mem_singleton_self _)
  have hkept : Kept post w := run_kept hrest
  have hsigned : w.Signed := run_signed h htransactions hdeposits
  -- the row that was recorded
  obtain ⟨txn, hindexes⟩ : ∃ txn, Indexes net pre' (p.dto txSignature) txn row := by
    cases haskedStep with
    | index =>
        rcases (index_deposits net pre' (p.dto txSignature)).2.2 with
          ⟨txn, row', hindexes, -, -, hrows⟩ | ⟨-, hrows⟩
        · rw [hrows] at hrow
          cases List.singleton_injective (List.append_cancel_left hrow)
          exact ⟨txn, hindexes⟩
        · rw [hrows] at hrow
          exact absurd hrow.symm (by simp)
  obtain ⟨hsignature, hwallet, husdc, hcvault, hrule⟩ := Press.recorded hindexes
  obtain ⟨-, vs', hvs', hnav'⟩ := hindexes.navAtDeposit
  have hstays : row ∈ w.db.deposits := by
    refine (run_kept hafter).2 row ?_
    rw [hrow]
    exact List.mem_append_right _ (List.mem_singleton_self _)
  refine ⟨hstays, hwallet, husdc, hsmall, hrule, vs, hvs, ?_, ?_⟩
  · rw [hvs', Option.map_some, Option.some.injEq, ← UInt64.toNat_inj]
    constructor
    · rintro ⟨txn', htxn', hsignature', -, d, hd, -, -, hdcvault, hdnav⟩
      cases List.inj_on_of_nodup_map hsigned.transactions htxn' (hkept.1 _ hthere)
        (hsignature'.trans hsignature)
      rw [Txn.deposits, hmade] at hd
      cases List.mem_singleton.mp hd
      simp only at hdcvault hdnav
      constructor
      · rw [← hcvault, hdcvault, hshares]
      · omega
    · rintro ⟨hshown, hsame⟩
      refine ⟨_, hkept.1 _ hthere, hsignature.symm, rfl, ⟨p.wallet, amount, shares,
        vs.navPriceBps⟩, ?_, hwallet.symm, ?_, ?_, ?_⟩
      · rw [Txn.deposits, hmade]
        exact List.mem_singleton_self _
      · exact husdc.trans hamount.symm
      · rw [hcvault, hshown, hshares]
      · rw [hnav', hsame]
  · intro hquote
    have hcast : ((p.rawUsdc.toNat : ℕ) : ℤ) = p.rawUsdc := by omega
    rw [← hcast] at hquote
    have hexact := hquote.cvaultOut_eq (by omega) hnav (by omega)
    rwa [hcast] at hexact

end Runs

/-! Alice types 365, then 3650, and presses the button before the second answer is there. -/

namespace Typing

open OragamiVault.Cluster Backend.Cluster

def stale : Quote := ⟨some (depositAnswer 365 "active" false 10000), 10000⟩

def fresh : Quote := ⟨some (depositAnswer 3650 "active" false 10000), 10000⟩

theorem uuid_length : "00000000-0000-4000-8000-000000000000".length = 36 := by decide

def press (q : Quote) : Press FreeKey where
  wallet := alice
  usdcAccount := aliceUsdc
  cvaultAccount := aliceCvault
  rawUsdc := 3650
  quote := q
  nonce := "00000000-0000-4000-8000-000000000000"
  uuid := uuid_length
  now := 0

def ready : DepositsWorld FreeKey := unindexed.transact "0" setUp

def sending : Transition (DepositsWorld FreeKey) (IndexEvent FreeKey) where
  pre := ready
  label := .transact "1" [OragamiVault.Cluster.deposit 3650]
  post := ready.transact "1" [OragamiVault.Cluster.deposit 3650]

def telling (q : Quote) : Transition (DepositsWorld FreeKey) (IndexEvent FreeKey) where
  pre := sending.post
  label := .index answering ((press q).dto "1")
  post := leaves (index answering ((press q).dto "1")) sending.post

theorem telling_run (q : Quote) :
    Run IndexStep unindexed ([⟨unindexed, .transact "0" setUp, ready⟩] ++
      sending :: ([] ++ telling q :: [])) (telling q).post := by
  have hfirst : Run IndexStep unindexed [⟨unindexed, .transact "0" setUp, ready⟩] ready :=
    Run.snoc Run.nil (.transact (by simp [unindexed]))
  have hsigned : ∀ sig ∈ ready.transactions.map (·.signature), sig ≠ "1" := by decide +kernel
  have hsend : IndexStep ready sending.label sending.post :=
    .transact fun txn htxn => hsigned _ (List.mem_map_of_mem htxn)
  have hsecond : Run IndexStep unindexed [⟨unindexed, .transact "0" setUp, ready⟩, sending]
      sending.post := hfirst.snoc hsend
  exact hsecond.snoc .index

end Typing

open Typing Backend.Cluster in
/-- What is recorded of the deposit is true of it with the second answer, and not with the
first. -/
theorem panel_deposit_recorded_typed :
    (∃ row ∈ (telling fresh).post.db.deposits,
      RealDeposit (telling fresh).post.transactions row) ∧
    ∃ row ∈ (telling stale).post.db.deposits,
      ¬ RealDeposit (telling stale).post.transactions row := by
  have hlength : (telling fresh).post.db.deposits.length = 1 ∧
      (telling stale).post.db.deposits.length = 1 := by
    decide +kernel
  have hnav : ready.chain.vaultState.map (·.navPriceBps) = some 10000 := by decide +kernel
  have hnav' : sending.post.chain.vaultState.map (·.navPriceBps) = some 10000 := by decide +kernel
  have hlanded : (attempt ready.chain [OragamiVault.Cluster.deposit 3650]).isSome = true := by
    decide +kernel
  have hreal : ∀ q row, (telling q).post.db.deposits = [row] →
      (RealDeposit (telling q).post.transactions row ↔ cvaultOut q 3650 = 3650) := by
    intro q row hrow
    obtain ⟨-, -, -, -, -, vs, hvs, hiff, -⟩ :=
      panel_deposit_recorded (telling_run q) rfl rfl (p := press q) rfl rfl hlanded rfl hrow
    have hpar : vs.navPriceBps = 10000 := by
      rw [show ready.chain.vaultState = some vs from hvs] at hnav
      exact Option.some.inj hnav
    have hissued : (((press q).rawUsdc.toNat * 10000 / UInt64.toNat 10000 : ℕ) : ℤ) = 3650 := by
      show (((3650 : ℤ).toNat * 10000 / UInt64.toNat 10000 : ℕ) : ℤ) = 3650
      decide
    refine hiff.trans ?_
    rw [hpar, hissued]
    exact ⟨fun h => h.1, fun h => ⟨h, hnav'⟩⟩
  obtain ⟨row, hrow⟩ := List.length_eq_one_iff.mp hlength.1
  obtain ⟨row', hrow'⟩ := List.length_eq_one_iff.mp hlength.2
  refine ⟨⟨row, ?_, (hreal fresh row hrow).mpr (by decide +kernel)⟩, row', ?_, ?_⟩
  · rw [hrow]
    exact List.mem_singleton_self row
  · rw [hrow']
    exact List.mem_singleton_self row'
  · rw [hreal stale row' hrow']
    decide +kernel

end Frontend
