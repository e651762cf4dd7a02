/-
# `Oragami.MultiAssetVault.Accounting` — every asset vault is a share vault

Many vaults share one program and one ledger, and the asset of one may be the
share token of another.  Each record names its own accounts, found by its asset's
mint (`Record`), and those are in the vault's custody: so an instruction of one
vault reaches the accounts of another only to add to them.

`State.book k` reads the books of the vault at `k` off a state.  Every step of the
program moves the books of every vault as a share vault moves
(`step_book`): the vault it is addressed to by its own movement, any other by a
gift at most.
-/
import Oragami.Lib.Custody
import Oragami.Lib.ShareVault
import Oragami.MultiAssetVault.Step

namespace MultiAssetVault

open Anchor Addresses Lts

variable {K : Type} [Addresses K] [Deployment K]

/-! ## Records and custody -/

/-- The vault at `k` names its own accounts, and they are in its custody. -/
structure Record (L : Ledger K) (k : K) (v : AssetVault K) : Prop where
  key : k = assetVaultKey v.assetMint
  shareMint : v.shareMint = shareMintKey v.assetMint
  vaultTokenAccount : v.vaultTokenAccount = vaultTokenKey v.assetMint
  held : L.Custody k v.vaultTokenAccount v.shareMint

/-- Every vault is so kept. -/
def Guarded (s : State K) : Prop := ∀ k v, s.vaults k = some v → Record s.ledger k v

theorem guarded_genesis (ledger : Ledger K) : Guarded (State.genesis ledger) := by
  intro k v hv
  cases hv

section Record

variable {L L' : Ledger K} {k k' : K} {v v' : AssetVault K}

theorem Record.owned (h : Record L k v) : Owned k := h.key ▸ owned_assetVaultKey _

theorem Record.of_held (h : Record L k v) (h' : L'.Custody k v.vaultTokenAccount v.shareMint) :
    Record L' k v :=
  { h with held := h' }

/-- Two vaults have different mints and different accounts. -/
theorem Record.distinct (h : Record L k v) (h' : Record L' k' v') (hk : k ≠ k') :
    v.shareMint ≠ v'.shareMint ∧ v.vaultTokenAccount ≠ v'.vaultTokenAccount := by
  have hne : v.assetMint ≠ v'.assetMint := fun heq => hk (by rw [h.key, h'.key, heq])
  refine ⟨?_, ?_⟩
  · intro heq
    rw [h.shareMint, h'.shareMint] at heq
    have hs := (find_inj heq).2
    simp only [List.cons.injEq, Seed.key.injEq, and_true, true_and] at hs
    exact hne hs
  · intro heq
    rw [h.vaultTokenAccount, h'.vaultTokenAccount] at heq
    have hs := (find_inj heq).2
    simp only [List.cons.injEq, Seed.key.injEq, and_true, true_and] at hs
    exact hne hs

end Record

/-! ## The books -/

/-- The books of a vault. -/
def AssetVault.book {K : Type} (L : Ledger K) (v : AssetVault K) : ShareVault.Book :=
  ⟨L.amount v.vaultTokenAccount, v.totalDeposits.toNat, v.totalSupply.toNat, v.navPriceBps.toNat⟩

/-- The books of the vault at `k`: empty ones before it is registered. -/
def State.book {K : Type} (k : K) (s : State K) : ShareVault.Book :=
  ((s.vaults k).map (·.book s.ledger)).getD ⟨0, 0, 0, 0⟩

theorem State.book_of {K : Type} {k : K} {s : State K} {v : AssetVault K}
    (h : s.vaults k = some v) : s.book k = v.book s.ledger := by
  simp only [State.book, h, Option.map_some, Option.getD_some]

/-! ## What a step does to a vault -/

/-- The vault at `k` keeps its accounts: others may only have paid into its custody. -/
structure Undisturbed (L L' : Ledger K) (k : K) (v : AssetVault K) : Prop where
  record : Record L' k v
  custody : L.amount v.vaultTokenAccount ≤ L'.amount v.vaultTokenAccount
  supply : L'.supply v.shareMint = L.supply v.shareMint

/-- The books of the vault at `k` moved as those of a share vault do, and its recorded
supply as the supply of its share mint. -/
structure Moved (L L' : Ledger K) (k : K) (v v' : AssetVault K) : Prop where
  record : Record L' k v'
  shareMint : v'.shareMint = v.shareMint
  book : ShareVault.Step 10000 (v.book L) (v'.book L')
  issued : v'.totalSupply.toNat + L.supply v.shareMint =
    v.totalSupply.toNat + L'.supply v.shareMint

section Moves

variable {L L' : Ledger K} {k : K} {v v' : AssetVault K}

theorem Record.undisturbed {d c b m : K → Nat} (h : Record L k v) (he : L.Evolves L' d c b m)
    (hd : d v.vaultTokenAccount = 0) (hb : b v.shareMint = 0) (hm : m v.shareMint = 0) :
    Undisturbed L L' k v := by
  obtain ⟨hheld, hle⟩ := h.held.evolves_le he hd
  have hsupply := he.supply v.shareMint
  exact ⟨h.of_held hheld, hle, by omega⟩

theorem Undisturbed.refl (h : Record L k v) : Undisturbed L L k v := ⟨h, Nat.le_refl _, rfl⟩

omit [Addresses K] [Deployment K] in
/-- Tokens paid into a vault's account are a gift. -/
theorem Undisturbed.gift (hle : L.amount v.vaultTokenAccount ≤ L'.amount v.vaultTokenAccount) :
    ShareVault.Step 10000 (v.book L) (v.book L') := by
  obtain ⟨extra, hextra⟩ := Nat.exists_eq_add_of_le hle
  unfold AssetVault.book
  rw [hextra]
  exact .gift

theorem Undisturbed.moved (h : Undisturbed L L' k v) : Moved L L' k v v where
  record := h.record
  shareMint := rfl
  book := gift h.custody
  issued := by rw [h.supply]

/-- Rewriting the price or the other fields of a record moves no tokens. -/
theorem Record.repriced (h : Record L k v) (ha : v'.assetMint = v.assetMint)
    (hs : v'.shareMint = v.shareMint) (ht : v'.vaultTokenAccount = v.vaultTokenAccount)
    (hd : v'.totalDeposits = v.totalDeposits) (hts : v'.totalSupply = v.totalSupply) :
    Moved L L k v v' where
  record := by
    refine ⟨ha ▸ h.key, ?_, ?_, ?_⟩
    · rw [hs, ha, h.shareMint]
    · rw [ht, ha, h.vaultTokenAccount]
    · rw [hs, ht]
      exact h.held
  shareMint := hs
  book := by
    unfold AssetVault.book
    rw [ht, hd, hts]
    exact .reprice
  issued := by rw [hts]

variable [DecidableEq K] [TokenProgram K] {s s' : State K}

theorem Deposited.moved {now : Int64} {view : View K} {a : Deposit K} {amount shares : UInt64}
    {cred : ComplianceCredential K} (hg : Guarded s) (hsig : ¬ Owned a.depositor)
    (h : Deposited now view a amount s s' v cred shares L) :
    ∃ v', s'.vaults a.assetVault = some v' ∧ Moved s.ledger s'.ledger a.assetVault v v' := by
  obtain ⟨hv, -⟩ := loadVault_eq_ok.mp h.vault
  obtain ⟨deposits, supply, hdeposits, hsupply, hvaults⟩ := h.totals
  have hr := hg _ _ hv
  have ht := h.transfer
  have hm := h.mint
  rw [h.vaultTokenAccount] at ht
  rw [h.shareMint] at hm
  obtain ⟨hheld, hin⟩ := hr.held.paidIn hr.owned hsig ht hm
  have hminted : s'.ledger.supply v.shareMint = s.ledger.supply v.shareMint + shares.toNat := by
    have hsup := ((TokenProgram.transfer_evolves ht).trans
      (TokenProgram.mintTo_evolves hm)).supply v.shareMint
    simpa only [Pi.add_apply, Pi.zero_apply, Pi.single_eq_same, Nat.add_zero, Nat.zero_add] using hsup
  refine ⟨{ v with totalDeposits := deposits, totalSupply := supply }, ?_, ?_⟩
  · rw [hvaults, Function.update_self]
  · refine ⟨⟨hr.key, hr.shareMint, hr.vaultTokenAccount, hheld⟩, rfl, ?_, ?_⟩
    · obtain ⟨-, -, hprice⟩ := sharesFor_eq_ok.mp h.price
      simp only [AssetVault.book, hin, hdeposits, hsupply]
      refine .enter ?_
      rw [hprice]
      exact Nat.div_mul_le_self _ _
    · show supply.toNat + _ = _
      omega

theorem Redeemed.moved {a : Redeem K} {x assetAmount supply : UInt64} (hg : Guarded s)
    (hsig : ¬ Owned a.redeemer) (h : Redeemed a x s s' v assetAmount supply L) :
    ∃ v', s'.vaults a.assetVault = some v' ∧ Moved s.ledger s'.ledger a.assetVault v v' := by
  obtain ⟨hv, -⟩ := loadVault_eq_ok.mp h.vault
  have hr := hg _ _ hv
  have hb := h.burn
  have ht := h.transfer
  rw [h.shareMint] at hb
  rw [h.vaultTokenAccount] at ht
  obtain ⟨hheld, hfunds, out, hle, hout⟩ := hr.held.paidOut hr.owned hsig hb ht
  have hburned : s'.ledger.supply v.shareMint + x.toNat = s.ledger.supply v.shareMint := by
    have hsup := ((TokenProgram.burn_evolves hb).trans
      (TokenProgram.transfer_evolves ht)).supply v.shareMint
    simpa only [Pi.add_apply, Pi.zero_apply, Pi.single_eq_same, Nat.add_zero] using hsup
  have hleft := h.outstanding
  refine ⟨{ v with totalDeposits := Checked.satSub v.totalDeposits assetAmount, totalSupply := supply },
    ?_, ?_⟩
  · rw [h.state]
    exact Function.update_self ..
  · refine ⟨⟨hr.key, hr.shareMint, hr.vaultTokenAccount, hheld⟩, rfl, ?_, ?_⟩
    · obtain ⟨-, hfloor⟩ := payoutFor_eq_ok.mp h.payout
      have hback : x.toNat ≤ v.totalSupply.toNat := by omega
      have hsupply : supply.toNat = v.totalSupply.toNat - x.toNat := by omega
      simp only [AssetVault.book, hout, Checked.toNat_satSub, hsupply]
      refine .exit ?_ hback hle hfunds
      rw [hfloor]
      exact Nat.div_mul_le_self _ _
    · show supply.toNat + _ = _
      omega

/-- A transfer of shares only ever adds to an account in custody. -/
theorem Transferred.undisturbed {now : Int64} {view : View K} {a : TransferShares K}
    {amount : UInt64} {source destination : TokenAccount K}
    {senderCred receiverCred : ComplianceCredential K} {w : AssetVault K} (hr : Record s.ledger k w)
    (hsig : ¬ Owned a.sender)
    (h : Transferred now view a amount s v source destination senderCred receiverCred L) :
    Undisturbed s.ledger L k w := by
  have hsrc := hr.held.transfer_ne hr.owned hsig h.transfer
  exact hr.undisturbed (TokenProgram.transfer_evolves h.transfer)
    (Pi.single_eq_of_ne hsrc.symm _) rfl rfl

end Moves

section Register

variable {L : Ledger K} {k : K} {v : AssetVault K} [DecidableEq K] {s s' : State K}
  {a : RegisterAsset K} {p : RegisterAssetParams} {f : Factory K}

/-- Opening a vault disturbs no other. -/
theorem Registered.undisturbed (h : Registered a p s s' f) (hr : Record s.ledger k v) :
    Undisturbed s.ledger s'.ledger k v := by
  obtain ⟨hheld, hamount, hsupply⟩ :=
    hr.held.opened h.shareVacant.2 h.tokenVacant.1 a.assetVault a.assetMint a.assetVault
  rw [h.state]
  exact ⟨hr.of_held hheld, Nat.le_of_eq hamount.symm, hsupply⟩

/-- The new vault's accounts are its own, and empty. -/
theorem Registered.record (h : Registered a p s s' f) :
    Record s'.ledger a.assetVault (newVault a p) := by
  refine ⟨h.assetVault, h.shareMint, h.vaultTokenAccount, ?_, ?_⟩
  · refine ⟨⟨.token, a.assetMint, a.assetVault, 0, none, 0, false⟩, ?_, rfl, rfl, ?_, rfl⟩
    · rw [h.state]
      exact Ledger.setAccount_account_self ..
    · -- the asset's mint existed when the address of the share mint was still vacant
      obtain ⟨M, hM, -⟩ := h.assetMint
      intro heq
      rw [show a.assetMint = a.shareMint from heq, h.shareVacant.2] at hM
      cases hM
  · refine ⟨⟨.token, some a.assetVault, 0⟩, ?_, rfl⟩
    rw [h.state]
    exact Ledger.setMint_mint_self ..

theorem Registered.book (h : Registered a p s s' f) :
    (newVault a p).book s'.ledger = ⟨0, 0, 0, p.navPriceBps.toNat⟩ := by
  have hempty : s'.ledger.amount a.vaultTokenAccount = 0 := by
    rw [h.state]
    simp only [Ledger.amount, Ledger.openAccount, Ledger.setAccount_account_self]
    rfl
  show (⟨s'.ledger.amount a.vaultTokenAccount, 0, 0, p.navPriceBps.toNat⟩ : ShareVault.Book) = _
  rw [hempty]

theorem Registered.supply (h : Registered a p s s' f) :
    s'.ledger.supply (newVault a p).shareMint = 0 := by
  rw [h.state]
  exact Ledger.supply_of_mint (Ledger.setMint_mint_self ..)

end Register

/-! ## What a step does to all vaults -/

section Steps

variable [DecidableEq K] [TokenProgram K] {now : Int64} {view : View K} {s s' : State K}
  {c : Call K} {k : K} {v : AssetVault K}

/-- An instruction of one vault disturbs no other. -/
theorem effect_undisturbed (hg : Guarded s) (hsig : ¬ Owned c.signer)
    (h : Effect now view s c s') (hv : s.vaults k = some v) (hk : c.target ≠ some k) :
    s'.vaults k = some v ∧ Undisturbed s.ledger s'.ledger k v := by
  have hr := hg k v hv
  have other : ∀ {j : K}, some j ≠ some k → k ≠ j := fun hj heq => hj (congrArg some heq.symm)
  cases h with
  | openFactory _ _ => exact ⟨hv, .refl hr⟩
  | register hreg =>
      refine ⟨?_, hreg.undisturbed hr⟩
      rw [hreg.state]
      exact (Function.update_of_ne (other hk) ..).trans hv
  | setNav _ _ _ => exact ⟨(Function.update_of_ne (other hk) ..).trans hv, .refl hr⟩
  | pause _ _ => exact ⟨(Function.update_of_ne (other hk) ..).trans hv, .refl hr⟩
  | issue _ _ _ _ _ _ _ => exact ⟨hv, .refl hr⟩
  | revoke _ _ _ => exact ⟨hv, .refl hr⟩
  | record _ _ _ _ _ _ => exact ⟨hv, .refl hr⟩
  | @deposit a amount _ w cred shares L hd =>
      obtain ⟨hw, -⟩ := loadVault_eq_ok.mp hd.vault
      obtain ⟨_, _, -, -, hvaults⟩ := hd.totals
      obtain ⟨hmint, -⟩ := hr.distinct (hg _ _ hw) (other hk)
      have hsrc := hr.held.transfer_ne hr.owned hsig hd.transfer
      refine ⟨?_, hr.undisturbed ((TokenProgram.transfer_evolves hd.transfer).trans
        (TokenProgram.mintTo_evolves hd.mint)) ?_ rfl ?_⟩
      · rw [hvaults]
        exact (Function.update_of_ne (other hk) ..).trans hv
      · exact Pi.single_eq_of_ne hsrc.symm _
      · rw [hd.shareMint, Pi.add_apply, Pi.single_eq_of_ne hmint]
        rfl
  | @redeem a x _ w assetAmount supply L hred =>
      obtain ⟨hw, -⟩ := loadVault_eq_ok.mp hred.vault
      obtain ⟨hmint, hacc⟩ := hr.distinct (hg _ _ hw) (other hk)
      have hsrc := hr.held.burn_ne hr.owned hsig hred.burn
      refine ⟨?_, hr.undisturbed ((TokenProgram.burn_evolves hred.burn).trans
        (TokenProgram.transfer_evolves hred.transfer)) ?_ ?_ rfl⟩
      · rw [hred.state]
        exact (Function.update_of_ne (other hk) ..).trans hv
      · rw [hred.vaultTokenAccount, Pi.add_apply, Pi.single_eq_of_ne hsrc.symm,
          Pi.single_eq_of_ne hacc, Nat.add_zero]
      · rw [hred.shareMint, Pi.add_apply, Pi.single_eq_of_ne hmint]
        rfl
  | transfer ht => exact ⟨hv, ht.undisturbed hr hsig⟩

/-- Every vault moves as a share vault, whichever one the instruction is addressed to. -/
theorem effect_moved (hg : Guarded s) (hsig : ¬ Owned c.signer) (h : Effect now view s c s')
    (hv : s.vaults k = some v) :
    ∃ v', s'.vaults k = some v' ∧ Moved s.ledger s'.ledger k v v' := by
  by_cases hk : c.target = some k
  · have hr := hg k v hv
    cases h with
    | openFactory _ _ => cases hk
    | register hreg =>
        cases hk
        cases hreg.fresh.symm.trans hv
    | setNav _ hload _ =>
        cases hk
        cases hv.symm.trans (loadVault_eq_ok.mp hload).1
        exact ⟨_, Function.update_self .., hr.repriced rfl rfl rfl rfl rfl⟩
    | pause _ hload =>
        cases hk
        cases hv.symm.trans (loadVault_eq_ok.mp hload).1
        exact ⟨_, Function.update_self .., hr.repriced rfl rfl rfl rfl rfl⟩
    | issue _ _ _ _ _ _ _ => cases hk
    | revoke _ _ _ => cases hk
    | record _ _ _ _ _ _ => cases hk
    | deposit hd =>
        cases hk
        cases hv.symm.trans (loadVault_eq_ok.mp hd.vault).1
        exact hd.moved hg hsig
    | redeem hred =>
        cases hk
        cases hv.symm.trans (loadVault_eq_ok.mp hred.vault).1
        exact hred.moved hg hsig
    | transfer ht => exact ⟨v, hv, (ht.undisturbed hr hsig).moved⟩
  · obtain ⟨hv', hu⟩ := effect_undisturbed hg hsig h hv hk
    exact ⟨v, hv', hu.moved⟩

/-- A vault that was not there was just registered. -/
theorem effect_registered (h : Effect now view s c s') (hnone : s.vaults k = none)
    (hv : s'.vaults k = some v) :
    ∃ a p f, Registered a p s s' f ∧ k = a.assetVault ∧ v = newVault a p := by
  -- an instruction that rewrites a vault found it there
  have rewritten : ∀ {j : K} {w w' : AssetVault K}, s.vaults j = some w →
      Function.update s.vaults j (some w') k ≠ some v := by
    intro j w w' hw hupd
    rcases update_some hupd with ⟨rfl, -⟩ | ⟨-, hk⟩
    · cases hw.symm.trans hnone
    · cases hk.symm.trans hnone
  cases h with
  | openFactory _ _ => cases hv.symm.trans hnone
  | @register a p _ f hreg =>
      rw [hreg.state] at hv
      rcases update_some hv with ⟨hk, hw⟩ | ⟨-, hk⟩
      · exact ⟨a, p, f, hreg, hk, hw⟩
      · cases hk.symm.trans hnone
  | setNav _ hload _ => exact absurd hv (rewritten (loadVault_eq_ok.mp hload).1)
  | pause _ hload => exact absurd hv (rewritten (loadVault_eq_ok.mp hload).1)
  | issue _ _ _ _ _ _ _ => cases hv.symm.trans hnone
  | revoke _ _ _ => cases hv.symm.trans hnone
  | record _ _ _ _ _ _ => cases hv.symm.trans hnone
  | deposit hd =>
      obtain ⟨_, _, -, -, hvaults⟩ := hd.totals
      rw [hvaults] at hv
      exact absurd hv (rewritten (loadVault_eq_ok.mp hd.vault).1)
  | redeem hred =>
      rw [hred.state] at hv
      exact absurd hv (rewritten (loadVault_eq_ok.mp hred.vault).1)
  | transfer _ => cases hv.symm.trans hnone

/-- A vault there is now was just registered or has moved. -/
theorem effect_cases (hg : Guarded s) (hsig : ¬ Owned c.signer) (h : Effect now view s c s')
    (hv' : s'.vaults k = some v') :
    (∃ a p f, Registered a p s s' f ∧ k = a.assetVault ∧ v' = newVault a p) ∨
      ∃ v, s.vaults k = some v ∧ Moved s.ledger s'.ledger k v v' := by
  rcases hv : s.vaults k with _ | v
  · exact .inl (effect_registered h hv hv')
  · obtain ⟨v₁, hv₁, hm⟩ := effect_moved hg hsig h hv
    cases hv'.symm.trans hv₁
    exact .inr ⟨v, rfl, hm⟩

/-- A direct call pays into a vault's custody at most. -/
theorem token_held {t : TokenCall K} {L : Ledger K} (hr : Record s.ledger k v)
    (hsig : ¬ Owned t.signer) (hrun : t.run s.ledger = some L) :
    Record L k v ∧ s.ledger.amount v.vaultTokenAccount ≤ L.amount v.vaultTokenAccount := by
  obtain ⟨hheld, hle⟩ := hr.held.kept hr.owned (TokenCall.run_kept hrun hsig)
  exact ⟨hr.of_held hheld, hle⟩

/-- Every step keeps every vault's accounts in its custody, -/
theorem step_guarded {act : Action K} (hg : Guarded s) (h : Step s act s') : Guarded s' := by
  cases h with
  | program hsig hexec =>
      have heff := exec_effect hexec
      intro k v' hv'
      rcases effect_cases hg hsig heff hv' with ⟨a, p, f, hreg, rfl, rfl⟩ | ⟨v, hv, hm⟩
      · exact hreg.record
      · exact hm.record
  | token hsig hrun =>
      intro k v hv
      exact (token_held (hg k v hv) hsig hrun).1

/-- and moves its books as a share vault's. -/
theorem step_book {act : Action K} (hg : Guarded s) (h : Step s act s') (k : K) :
    ShareVault.Step 10000 (s.book k) (s'.book k) := by
  cases h with
  | program hsig hexec =>
      have heff := exec_effect hexec
      rcases hv : s.vaults k with _ | v
      · rcases hv' : s'.vaults k with _ | v'
        · simp only [State.book, hv, hv']
          exact .idle _
        · obtain ⟨a, p, f, hreg, rfl, rfl⟩ := effect_registered heff hv hv'
          rw [State.book_of hv', hreg.book]
          simp only [State.book, hv]
          exact .reprice
      · obtain ⟨v', hv', hm⟩ := effect_moved hg hsig heff hv
        rw [State.book_of hv, State.book_of hv']
        exact hm.book
  | @token _ L hsig hrun =>
      rcases hv : s.vaults k with _ | v
      · simp only [State.book, hv]
        exact .idle _
      · rw [State.book_of hv, State.book_of (s := { s with ledger := L }) hv]
        exact Undisturbed.gift (token_held (hg k v hv) hsig hrun).2

end Steps

/-! ## Runs -/

section Runs

variable [DecidableEq K] [TokenProgram K] {ledger : Ledger K}
  {ts : List (Transition (State K) (Action K))} {s : State K}

theorem Reaches.guarded (h : Reaches ledger ts s) : Guarded s :=
  h.invariant (guarded_genesis ledger) step_guarded

/-- A run of the program, read as a run of the vault at `k`. -/
theorem Reaches.moves (h : Reaches ledger ts s) (k : K) :
    Run (ShareVault.Moves 10000) ⟨0, 0, 0, 0⟩ (ts.map (·.map (State.book k) (·.label)))
      (s.book k) :=
  Run.simulate (f := State.book k) (g := (·.label)) (guarded_genesis ledger) step_guarded
    (fun hg hstep => step_book hg hstep k) h

end Runs

end MultiAssetVault
