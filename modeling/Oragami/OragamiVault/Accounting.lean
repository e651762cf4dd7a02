/-
# `Oragami.OragamiVault.Accounting` — the program keeps the books of a share vault

Two invariants and a simulation.

* `Custody`: the vault's token account belongs to the vault state address, has no
  delegate, and holds another mint than cVAULT; cVAULT is issued by the vault
  state address alone.  So nobody outside the program can debit the one or
  inflate the other (`Ledger.Kept Owned`).
* `State.book` reads a `ShareVault.Book` off a state: what the token account
  holds, and the two totals and the NAV the vault state records.  Under
  `Custody` every step of the program, and every direct call to the token
  program, is a step of a share vault at a price quoted in 1/10000
  (`step_book`).

What `ShareVault` proves of its runs then holds of runs of the program
(`Reaches.moves`).
-/
import Oragami.Lib.Custody
import Oragami.Lib.ShareVault
import Oragami.OragamiVault.Step

namespace OragamiVault

open Anchor Addresses Lts

variable {K : Type} [Addresses K] [Deployment K]

/-! ## Custody -/

/-- Who controls the vault's tokens and the share mint. -/
structure Custody (L : Ledger K) (vs : VaultState K) : Prop where
  cvaultMint : vs.cvaultMint = cvaultMintKey
  vaultTokenAccount : vs.vaultTokenAccount = vaultTokenKey
  account : ∃ a, L.account vaultTokenKey = some a ∧ a.owner = vaultStateKey ∧
    a.delegate = none ∧ a.mint ≠ cvaultMintKey ∧ a.program = .token
  mint : ∃ M, L.mint cvaultMintKey = some M ∧ M.mintAuthority = some vaultStateKey

/-- Custody is in order once the vault exists. -/
def Guarded (s : State K) : Prop := ∀ vs, s.vaultState = some vs → Custody s.ledger vs

section Custody

variable {L L' : Ledger K} {vs vs' : VaultState K}

/-- The vault's books name the same accounts. -/
theorem Custody.books (h : Custody L vs) (hm : vs'.cvaultMint = vs.cvaultMint)
    (ha : vs'.vaultTokenAccount = vs.vaultTokenAccount) : Custody L vs' :=
  { h with
    cvaultMint := hm.trans h.cvaultMint
    vaultTokenAccount := ha.trans h.vaultTokenAccount }

theorem Custody.held (h : Custody L vs) :
    L.Custody vaultStateKey vaultTokenKey cvaultMintKey :=
  ⟨h.account, h.mint⟩

/-- The vault still holds its accounts. -/
theorem Custody.of_held (h : Custody L vs)
    (h' : L'.Custody vaultStateKey vaultTokenKey cvaultMintKey) : Custody L' vs :=
  { h with account := h'.account, mint := h'.mint }

variable [DecidableEq K]

/-- Nobody outside the program debits the vault's token account. -/
theorem Custody.debit_ne {src auth : K} {a : TokenAccount K} {n : UInt64} (h : Custody L vs)
    (ha : L.account src = some a) (hd : a.CanDebit auth n) (hauth : ¬ Owned auth) :
    src ≠ vaultTokenKey :=
  h.held.debit_ne owned_vaultStateKey ha hd hauth

theorem Custody.burn [TokenProgram K] {src m auth : K} {n : UInt64} (h : Custody L vs)
    (hauth : ¬ Owned auth) (hb : TokenProgram.burn L src m auth n = some L') :
    Custody L' vs ∧ L'.amount vaultTokenKey = L.amount vaultTokenKey := by
  obtain ⟨h', hsame⟩ := h.held.burn owned_vaultStateKey hauth hb
  exact ⟨h.of_held h', hsame⟩

/-- Tokens burned by their holder for tokens minted leave the account what it held, or more. -/
theorem Custody.exchange [TokenProgram K] {src m auth m' dst vault : K} {n n' : UInt64}
    {L₁ : Ledger K} (h : Custody L vs) (hauth : ¬ Owned auth)
    (hb : TokenProgram.burn L src m auth n = some L₁)
    (hm : TokenProgram.mintTo L₁ m' dst vault n' = some L') :
    Custody L' vs ∧ L.amount vaultTokenKey ≤ L'.amount vaultTokenKey := by
  have he := (TokenProgram.burn_evolves hb).trans (TokenProgram.mintTo_evolves hm)
  have hsrc := h.held.burn_ne owned_vaultStateKey hauth hb
  have hdebit : (Pi.single src n.toNat + 0 : K → Nat) vaultTokenKey = 0 :=
    Pi.single_eq_of_ne hsrc.symm _
  obtain ⟨h', hle⟩ := h.held.evolves_le he hdebit
  exact ⟨h.of_held h', hle⟩

end Custody

/-! ## The books -/

/-- The share vault the program keeps: before `initialize_vault` an empty one. -/
def State.book {K : Type} (s : State K) : ShareVault.Book :=
  match s.vaultState with
  | none => ⟨0, 0, 0, navBpsDenominator.toNat⟩
  | some vs => ⟨s.ledger.amount vs.vaultTokenAccount, vs.totalDeposits.toNat,
      vs.totalSupply.toNat, vs.navPriceBps.toNat⟩

theorem State.book_of {K : Type} {s : State K} {vs : VaultState K} (h : s.vaultState = some vs) :
    s.book = ⟨s.ledger.amount vs.vaultTokenAccount, vs.totalDeposits.toNat,
      vs.totalSupply.toNat, vs.navPriceBps.toNat⟩ := by
  simp only [State.book, h]

/-- The price is read off the vault state. -/
theorem State.price_congr {K : Type} {s s' : State K} (h : s'.vaultState = s.vaultState) :
    s'.book.price = s.book.price := by
  simp only [State.book, h]
  split <;> rfl

variable {s s' : State K} {vs : VaultState K}

/-- A vault state in place of another: custody as for a state of its own. -/
theorem guarded_of {s : State K} {vs : VaultState K} (hvs : s.vaultState = some vs)
    (h : Custody s.ledger vs) : Guarded s := by
  intro vs' hvs'
  cases hvs.symm.trans hvs'
  exact h

theorem guarded_genesis (ledger : Ledger K) : Guarded (State.genesis ledger) := by
  intro vs hvs
  cases hvs

/-- The books, where the token account is the vault's own. -/
theorem Custody.book (h : Custody s.ledger vs) (hvs : s.vaultState = some vs) :
    s.book = ⟨s.ledger.amount vaultTokenKey, vs.totalDeposits.toNat, vs.totalSupply.toNat,
      vs.navPriceBps.toNat⟩ := by
  rw [s.book_of hvs, h.vaultTokenAccount]

/-- Tokens that only came into the vault's account are a gift. -/
theorem Custody.gift {L : Ledger K} (h : Custody s.ledger vs) (hvs : s.vaultState = some vs)
    (h' : Custody L vs) (hle : s.ledger.amount vaultTokenKey ≤ L.amount vaultTokenKey) :
    ShareVault.Step 10000 s.book { s with ledger := L : State K }.book := by
  obtain ⟨extra, hextra⟩ := Nat.exists_eq_add_of_le hle
  rw [h.book hvs, Custody.book (s := { s with ledger := L }) h' hvs]
  simp only [hextra]
  exact .gift

/-- A quiet instruction moves nothing on the books. -/
theorem Quiet.book (h : Quiet s s') (hs : Guarded s) : Guarded s' ∧ s'.book = s.book := by
  rcases hvs : s.vaultState with _ | vs
  · have hvs' := h.fresh hvs
    refine ⟨?_, ?_⟩
    · intro vs' hvs''
      cases hvs'.symm.trans hvs''
    · simp only [State.book, hvs, hvs']
  · obtain ⟨vs', hvs', hsame⟩ := h.stored hvs
    have hc : Custody s'.ledger vs' :=
      h.ledger ▸ (hs vs hvs).books hsame.cvaultMint hsame.vaultTokenAccount
    refine ⟨guarded_of hvs' hc, ?_⟩
    rw [hc.book hvs', (hs vs hvs).book hvs, h.ledger, hsame.totalDeposits, hsame.totalSupply,
      hsame.navPriceBps]

variable [DecidableEq K]

/-- The new vault's account and mint are its own, and empty. -/
theorem Initialized.custody {a : InitializeVault K} {p : InitializeVaultParams K}
    (h : Initialized a p s s' vs) : Custody s'.ledger vs where
  cvaultMint := h.cvaultMint
  vaultTokenAccount := h.vaultTokenAccount
  account := by
    refine ⟨_, by rw [h.ledger]; exact Ledger.setAccount_account_self .., rfl, rfl, ?_, rfl⟩
    -- the deposit mint existed when the address of the share mint was still vacant
    obtain ⟨M, hM, -⟩ := h.depositMint
    intro heq
    rw [show a.depositMint = cvaultMintKey from heq, h.cvaultVacant.2] at hM
    cases hM
  mint := by
    refine ⟨_, by rw [h.ledger]; exact Ledger.setMint_mint_self .., rfl⟩

theorem Initialized.book {a : InitializeVault K} {p : InitializeVaultParams K}
    (h : Initialized a p s s' vs) : s'.book = s.book := by
  rw [h.custody.book h.vaultState, State.book, h.fresh, h.totalDeposits, h.totalSupply,
    h.navPriceBps, h.ledger]
  simp only [Ledger.amount, Ledger.openAccount, Ledger.setAccount_account_self]
  rfl

variable [TokenProgram K]

theorem Deposited.book {now : Int64} {a : Deposit K} {amount shares : UInt64}
    {cred : ComplianceCredential K} {L : Ledger K} (hs : Guarded s) (hsig : ¬ Owned a.payer)
    (h : Deposited now a amount s s' vs cred shares L) :
    Guarded s' ∧ ShareVault.Step 10000 s.book s'.book := by
  obtain ⟨-, hvs, -⟩ := loadVaultState_eq_ok.mp h.vaultState
  obtain ⟨deposits, supply, hdeposits, hsupply, hvs'⟩ := h.totals
  have hc := hs vs hvs
  have ht := h.transfer
  rw [h.vaultTokenAccount] at ht
  have hm := h.mint
  rw [h.cvaultMint, hc.cvaultMint] at hm
  obtain ⟨hheld, hin⟩ := hc.held.paidIn owned_vaultStateKey hsig ht hm
  have hc' : Custody s'.ledger { vs with totalDeposits := deposits, totalSupply := supply } :=
    (hc.of_held hheld).books rfl rfl
  refine ⟨guarded_of hvs' hc', ?_⟩
  obtain ⟨-, -, hprice⟩ := sharesFor_eq_ok.mp h.price
  rw [hc.book hvs, hc'.book hvs', hin, hdeposits, hsupply]
  refine .enter ?_
  rw [hprice]
  exact Nat.div_mul_le_self _ _

/-- Shares burned by their holder and paid for: how both exits close. -/
theorem Custody.exit {src m auth dst vault : K} {x usdc deposits supply : UInt64} {L : Ledger K}
    (hc : Custody s.ledger vs) (hvs : s.vaultState = some vs) (hsig : ¬ Owned auth)
    (hburn : TokenProgram.burn s.ledger src m auth x = some L)
    (htransfer : TokenProgram.transfer L vaultTokenKey dst vault usdc = some s'.ledger)
    (hpay : payoutFor x vs.navPriceBps = .ok usdc)
    (hvs' : s'.vaultState = some { vs with totalDeposits := deposits, totalSupply := supply })
    (hdeposits : deposits.toNat = vs.totalDeposits.toNat - usdc.toNat)
    (hsupply : supply.toNat + x.toNat = vs.totalSupply.toNat) :
    Guarded s' ∧ ShareVault.Step 10000 s.book s'.book := by
  obtain ⟨hheld, hfunds, out, hle, hout⟩ := hc.held.paidOut owned_vaultStateKey hsig hburn htransfer
  have hc' : Custody s'.ledger { vs with totalDeposits := deposits, totalSupply := supply } :=
    (hc.of_held hheld).books rfl rfl
  refine ⟨guarded_of hvs' hc', ?_⟩
  obtain ⟨-, hfloor⟩ := payoutFor_eq_ok.mp hpay
  have hback : x.toNat ≤ vs.totalSupply.toNat := by omega
  have hleft : supply.toNat = vs.totalSupply.toNat - x.toNat := by omega
  rw [hc.book hvs, hc'.book hvs', hout, hdeposits, hleft]
  refine .exit ?_ hback hle hfunds
  rw [hfloor]
  exact Nat.div_mul_le_self _ _

theorem Redeemed.book {a : Redeem K} {x usdc supply : UInt64} {L L' : Ledger K}
    (hs : Guarded s) (hsig : ¬ Owned a.redeemer) (h : Redeemed a x s vs usdc supply L L') :
    Guarded (redeemedState s vs usdc supply L') ∧
      ShareVault.Step 10000 s.book (redeemedState s vs usdc supply L').book := by
  obtain ⟨-, hvs, -⟩ := loadVaultState_eq_ok.mp h.vaultState
  exact (hs vs hvs).exit hvs hsig h.burn (h.vaultTokenAccount ▸ h.transfer) h.payout rfl
    Checked.toNat_satSub h.totalSupply

theorem PaidOut.book {a : RedeemTradeable K} {x usdc deposits supply : UInt64}
    {L L' : Ledger K} (hs : Guarded s) (hsig : ¬ Owned a.authority) (hu : Unwrapped a x s vs L)
    (h : PaidOut a x s vs usdc deposits supply L L') :
    let s' : State K := { s with
      vaultState := some { vs with totalDeposits := deposits, totalSupply := supply }
      ledger := L' }
    Guarded s' ∧ ShareVault.Step 10000 s.book s'.book := by
  obtain ⟨-, hvs, -⟩ := loadVaultState_eq_ok.mp hu.vaultState
  have hdeposits : deposits.toNat = vs.totalDeposits.toNat - usdc.toNat := by
    have := h.totalDeposits
    omega
  exact (hs vs hvs).exit hvs hsig hu.burn (hu.vaultTokenAccount ▸ h.transfer) h.payout rfl
    hdeposits h.totalSupply

/-- What the program's own instructions do to custody and books. -/
theorem effect_book {now : Int64} {c : Call K} (hs : Guarded s)
    (hsig : ∀ k ∈ c.signer, ¬ Owned k) (h : Effect now s c s') :
    Guarded s' ∧ ShareVault.Step 10000 s.book s'.book := by
  cases h with
  | quiet hq =>
      obtain ⟨hs', hb⟩ := hq.book hs
      exact ⟨hs', hb ▸ .idle _⟩
  | init hi => exact ⟨guarded_of hi.vaultState hi.custody, hi.book ▸ .idle _⟩
  | setNav hvs =>
      refine ⟨guarded_of rfl ((hs _ hvs).books rfl rfl), ?_⟩
      rw [State.book_of hvs, State.book_of rfl]
      exact .reprice
  | issue hw _ _ _ _ _ =>
      obtain ⟨-, -, -, rfl⟩ := hw
      exact ⟨hs, .idle _⟩
  | revoke hw _ _ =>
      obtain ⟨-, -, -, rfl⟩ := hw
      exact ⟨hs, .idle _⟩
  | record _ _ _ _ _ _ => exact ⟨hs, .idle _⟩
  | deposit hd => exact hd.book hs (hsig _ rfl)
  | redeem hr => exact hr.book hs (hsig _ rfl)
  | convert hc =>
      obtain ⟨-, hvs, -⟩ := loadVaultState_eq_ok.mp hc.vaultState
      obtain ⟨hcL, hle⟩ := (hs _ hvs).exchange (hsig _ rfl) hc.burn hc.mint
      exact ⟨guarded_of hvs hcL, (hs _ hvs).gift hvs hcL hle⟩
  | rewrap hu hm =>
      obtain ⟨-, hvs, -⟩ := loadVaultState_eq_ok.mp hu.vaultState
      obtain ⟨hcL, hle⟩ := (hs _ hvs).exchange (hsig _ rfl) hu.burn hm
      exact ⟨guarded_of hvs hcL, (hs _ hvs).gift hvs hcL hle⟩
  | payOut hu hp => exact hp.book hs (hsig _ rfl) hu

/-- A vault is never closed. -/
theorem effect_vaultState {now : Int64} {c : Call K} (h : Effect now s c s')
    (hvs : s.vaultState = some vs) : ∃ vs', s'.vaultState = some vs' := by
  cases h with
  | quiet hq =>
      obtain ⟨vs', hvs', -⟩ := hq.stored hvs
      exact ⟨vs', hvs'⟩
  | init hi => exact ⟨_, hi.vaultState⟩
  | setNav _ => exact ⟨_, rfl⟩
  | issue hw _ _ _ _ _ => exact ⟨vs, hw.state ▸ hvs⟩
  | revoke hw _ _ => exact ⟨vs, hw.state ▸ hvs⟩
  | record _ _ _ _ _ _ => exact ⟨vs, hvs⟩
  | deposit hd =>
      obtain ⟨_, _, -, -, hvs'⟩ := hd.totals
      exact ⟨_, hvs'⟩
  | redeem _ => exact ⟨_, rfl⟩
  | convert _ => exact ⟨vs, hvs⟩
  | rewrap _ _ => exact ⟨vs, hvs⟩
  | payOut _ _ => exact ⟨_, rfl⟩

/-- Only `set_nav` moves the price. -/
theorem effect_price {now : Int64} {c : Call K} (h : Effect now s c s') :
    s'.book.price = s.book.price ∨
      ∃ a nav vs, c = .setNav a nav ∧ s.vaultState = some vs ∧ s'.book.price = nav.toNat := by
  cases h with
  | quiet hq =>
      refine .inl ?_
      rcases hvs : s.vaultState with _ | vs
      · rw [State.price_congr ((hq.fresh hvs).trans hvs.symm)]
      · obtain ⟨vs', hvs', hsame⟩ := hq.stored hvs
        rw [State.book_of hvs, State.book_of hvs']
        exact congrArg UInt64.toNat hsame.navPriceBps
  | init hi => exact .inl (congrArg ShareVault.Book.price hi.book)
  | @setNav a nav vs registry hvs =>
      refine .inr ⟨a, nav, vs, rfl, hvs, ?_⟩
      rw [State.book_of rfl]
  | issue hw _ _ _ _ _ => exact .inl (State.price_congr (hw.state ▸ rfl))
  | revoke hw _ _ => exact .inl (State.price_congr (hw.state ▸ rfl))
  | record _ _ _ _ _ _ => exact .inl (State.price_congr rfl)
  | deposit hd =>
      obtain ⟨-, hvs, -⟩ := loadVaultState_eq_ok.mp hd.vaultState
      obtain ⟨_, _, -, -, hvs'⟩ := hd.totals
      rw [State.book_of hvs, State.book_of hvs']
      exact .inl rfl
  | redeem hr =>
      obtain ⟨-, hvs, -⟩ := loadVaultState_eq_ok.mp hr.vaultState
      rw [State.book_of hvs, State.book_of rfl]
      exact .inl rfl
  | convert _ => exact .inl (State.price_congr rfl)
  | rewrap _ _ => exact .inl (State.price_congr rfl)
  | payOut hu _ =>
      obtain ⟨-, hvs, -⟩ := loadVaultState_eq_ok.mp hu.vaultState
      rw [State.book_of hvs, State.book_of rfl]
      exact .inl rfl

/-! ## Runs -/

/-- Every step keeps custody in order and is a step of the share vault. -/
theorem step_book {act : Action K} (hs : Guarded s) (h : Step s act s') :
    Guarded s' ∧ ShareVault.Step 10000 s.book s'.book := by
  cases h with
  | program hsig hexec => exact effect_book hs hsig (exec_effect hexec)
  | @token c L hsig hrun =>
      have hk : Ledger.Kept Owned s.ledger L := TokenCall.run_kept hrun hsig
      rcases hvs : s.vaultState with _ | vs
      · refine ⟨?_, ?_⟩
        · intro vs' hvs'
          cases hvs.symm.trans hvs'
        · simp only [State.book, hvs]
          exact .idle _
      · have hc := hs vs hvs
        obtain ⟨hheld, hle⟩ := hc.held.kept owned_vaultStateKey hk
        exact ⟨guarded_of hvs (hc.of_held hheld), hc.gift hvs (hc.of_held hheld) hle⟩

theorem Reaches.guarded {ledger : Ledger K} {ts : List (Transition (State K) (Action K))}
    (h : Reaches ledger ts s) : Guarded s :=
  h.invariant (guarded_genesis ledger) fun hs hstep => (step_book hs hstep).1

/-- A run of the program, read as a run of the share vault. -/
def books (ts : List (Transition (State K) (Action K))) :
    List (Transition ShareVault.Book (Action K)) :=
  ts.map (·.map State.book (·.label))

theorem Reaches.moves {ledger : Ledger K} {ts : List (Transition (State K) (Action K))}
    (h : Reaches ledger ts s) :
    Run (ShareVault.Moves 10000) (State.genesis ledger).book (books ts) s.book :=
  Run.simulate (f := State.book) (g := (·.label)) (guarded_genesis ledger)
    (fun hs hstep => (step_book hs hstep).1) (fun hs hstep => (step_book hs hstep).2) h

end OragamiVault
