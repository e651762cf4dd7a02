/-
# `Oragami.Lib.TokenCall` — calls made to the token program directly

The instructions wallets and other programs send to the token program without
going through the program under study, and the bound on what they can do: when
no signer is a key of `P`, the ledger is `Kept P`.
-/
import Oragami.Lib.Ledger

/-- A direct call.  The last key of each is the one that signs.  Closing an account, freezing and
thawing one, and setting another authority than the owner are not among them. -/
inductive TokenCall (K : Type) where
  | transfer (source destination authority : K) (amount : UInt64)
  | mintTo (mint account authority : K) (amount : UInt64)
  | burn (account mint authority : K) (amount : UInt64)
  /-- `Approve`, or `Revoke` where there is no delegate. -/
  | approve (account : K) (delegate : Option K) (amount : UInt64) (owner : K)
  /-- `SetAuthority` of the account owner. -/
  | setOwner (account newOwner owner : K)
  /-- Creation of a mint of either token program at `mint`, which signs for its address. -/
  | openMint (authority : K) (program : TokenProgramId) (mint : K)
  /-- Creation of a token account of `mint`'s program at `account`. -/
  | openAccount (mint owner account : K)
deriving DecidableEq

namespace TokenCall

open Ledger

variable {K : Type}

def signer : TokenCall K → K
  | transfer _ _ auth _ => auth
  | mintTo _ _ auth _ => auth
  | burn _ _ auth _ => auth
  | approve _ _ _ owner => owner
  | setOwner _ _ owner => owner
  | openMint _ _ mint => mint
  | openAccount _ _ account => account

variable [DecidableEq K]

/-- The ledger after a call, if the call is accepted. -/
def run [TokenProgram K] (L : Ledger K) : TokenCall K → Option (Ledger K)
  | transfer s d auth n => TokenProgram.transfer L s d auth n
  | mintTo m d auth n => TokenProgram.mintTo L m d auth n
  | burn s m auth n => TokenProgram.burn L s m auth n
  | approve k delegate n owner =>
      match L.account k with
      | some a =>
          if a.owner = owner then
            some (L.setAccount k { a with delegate, delegatedAmount := n })
          else none
      | none => none
  | setOwner k newOwner owner =>
      match L.account k with
      | some a =>
          if a.owner = owner then
            some (L.setAccount k
              { a with owner := newOwner, delegate := none, delegatedAmount := 0 })
          else none
      | none => none
  | openMint auth program k =>
      if L.Vacant k then some (L.setMint k ⟨program, some auth, 0⟩) else none
  | openAccount m owner k =>
      match L.mint m with
      | some M =>
          if L.Vacant k then
            some (L.setAccount k ⟨M.program, m, owner, 0, none, 0, false⟩)
          else none
      | none => none

variable {P : K → Prop} {L L' : Ledger K}

/-- Replacing an account `P` does not own, or one that was not there, keeps the rest. -/
theorem kept_setAccount {k : K} {a' : TokenAccount K}
    (h : ∀ a, L.account k = some a → ¬ P a.owner) : Kept P L (L.setAccount k a') where
  account {j a} ha hP _ := by
    have hne : j ≠ k := fun e => h a (e ▸ ha) hP
    exact ⟨a, by rw [setAccount_account_ne L a' hne, ha], ⟨rfl, rfl, rfl, rfl, .inl rfl⟩, Nat.le_refl _⟩
  mint hM _ := ⟨_, hM, ⟨rfl, rfl⟩, Nat.le_refl _⟩

theorem kept_setMint {k : K} {M' : Mint K} (h : L.mint k = none) :
    Kept P L (L.setMint k M') where
  account ha _ _ := ⟨_, ha, ⟨rfl, rfl, rfl, rfl, .inl rfl⟩, Nat.le_refl _⟩
  mint {j M} hM _ := by
    have hne : j ≠ k := fun e => by simp [e, h] at hM
    exact ⟨M, by rw [setMint_mint_ne L M' hne, hM], ⟨rfl, rfl⟩, Nat.le_refl _⟩

/-- A call no key of `P` signs takes nothing from `P`. -/
theorem run_kept [TokenProgram K] {c : TokenCall K} (h : run L c = some L') (hP : ¬ P c.signer) :
    Kept P L L' := by
  cases c with
  | transfer s d auth n => exact transfer_kept h hP
  | mintTo m d auth n => exact mintTo_kept h hP
  | burn s m auth n => exact burn_kept h hP
  | approve k delegate n owner =>
      simp only [run] at h
      split at h
      · next a ha =>
          split at h
          · next ho =>
              cases h
              refine kept_setAccount ?_
              intro a₁ ha₁
              cases ha.symm.trans ha₁
              exact ho ▸ hP
          · cases h
      · cases h
  | setOwner k newOwner owner =>
      simp only [run] at h
      split at h
      · next a ha =>
          split at h
          · next ho =>
              cases h
              refine kept_setAccount ?_
              intro a₁ ha₁
              cases ha.symm.trans ha₁
              exact ho ▸ hP
          · cases h
      · cases h
  | openMint auth program k =>
      simp only [run] at h
      split at h
      · next hv =>
          cases h
          exact kept_setMint hv.2
      · cases h
  | openAccount m owner k =>
      simp only [run] at h
      split at h
      · split at h
        · next hv =>
            cases h
            exact kept_setAccount fun a ha => by simp [hv.1] at ha
        · cases h
      · cases h

/-- A mint stays with its token program. -/
theorem run_isMint [TokenProgram K] {c : TokenCall K} {m : K} (h : run L c = some L')
    (hm : L.IsMint m) : L'.IsMint m := by
  cases c with
  | transfer s d auth n => exact (TokenProgram.transfer_evolves h).isMint_iff.mpr hm
  | mintTo m' d auth n => exact (TokenProgram.mintTo_evolves h).isMint_iff.mpr hm
  | burn s m' auth n => exact (TokenProgram.burn_evolves h).isMint_iff.mpr hm
  | approve k delegate n owner =>
      simp only [run] at h
      split at h
      · split at h
        · cases h
          exact hm
        · cases h
      · cases h
  | setOwner k newOwner owner =>
      simp only [run] at h
      split at h
      · split at h
        · cases h
          exact hm
        · cases h
      · cases h
  | openMint auth program k =>
      simp only [run] at h
      split at h
      · next hv =>
          cases h
          exact hm.setMint hv.2
      · cases h
  | openAccount m' owner k =>
      simp only [run] at h
      split at h
      · split at h
        · cases h
          exact hm
        · cases h
      · cases h

/-- An account stays with its owner and its mint as long as the owner does not sign. -/
theorem run_holds [TokenProgram K] {c : TokenCall K} {k owner mint : K} (h : run L c = some L')
    (hk : L.Holds k owner mint) (hsig : c.signer ≠ owner) : L'.Holds k owner mint := by
  obtain ⟨acc, hacc, howner, hmint⟩ := hk
  cases c with
  | transfer s d auth n => exact .evolves ⟨acc, hacc, howner, hmint⟩ (TokenProgram.transfer_evolves h)
  | mintTo m d auth n => exact .evolves ⟨acc, hacc, howner, hmint⟩ (TokenProgram.mintTo_evolves h)
  | burn s m auth n => exact .evolves ⟨acc, hacc, howner, hmint⟩ (TokenProgram.burn_evolves h)
  | approve j delegate n signer =>
      simp only [run] at h
      split at h
      · next a ha =>
          split at h
          · next hsigner =>
              cases h
              exact .setAnothers ⟨acc, hacc, howner, hmint⟩ ha (hsigner ▸ hsig)
          · cases h
      · cases h
  | setOwner j newOwner signer =>
      simp only [run] at h
      split at h
      · next a ha =>
          split at h
          · next hsigner =>
              cases h
              exact .setAnothers ⟨acc, hacc, howner, hmint⟩ ha (hsigner ▸ hsig)
          · cases h
      · cases h
  | openMint auth program j =>
      simp only [run] at h
      split at h
      · cases h
        exact ⟨acc, hacc, howner, hmint⟩
      · cases h
  | openAccount m signer j =>
      simp only [run] at h
      split at h
      · split at h
        · next hv =>
            cases h
            refine .setAccount ⟨acc, hacc, howner, hmint⟩ ?_
            rintro rfl
            cases hacc.symm.trans hv.1
        · cases h
      · cases h

/-- The tokens of `m` a call burns. -/
def burned (m : K) : TokenCall K → Nat
  | burn _ m' _ n => if m' = m then n.toNat else 0
  | _ => 0

/-- A call no key of `P` signs changes the supply of a mint of `P` only by burning. -/
theorem run_supply [TokenProgram K] {c : TokenCall K} {m : K} {M : Mint K}
    (h : run L c = some L') (hM : L.mint m = some M)
    (hauth : ∀ auth, M.mintAuthority = some auth → P auth) (hP : ¬ P c.signer) :
    L'.supply m + c.burned m = L.supply m := by
  cases c with
  | transfer s d auth n => exact (TokenProgram.transfer_evolves h).supply m
  | mintTo m' d auth n =>
      obtain ⟨M', b, hM', -, -, -, -, -, hauth', -, -⟩ := TokenProgram.mintTo_ok h
      have hne : m ≠ m' := by
        rintro rfl
        cases hM.symm.trans hM'
        exact hP (hauth _ hauth')
      have hsup := (TokenProgram.mintTo_evolves h).supply m
      rw [Pi.single_eq_of_ne hne] at hsup
      exact hsup
  | burn s m' auth n =>
      have hsup := (TokenProgram.burn_evolves h).supply m
      simp only [burned]
      split
      · next heq =>
          rw [heq, Pi.single_eq_same] at hsup
          exact hsup
      · next hne =>
          rw [Pi.single_eq_of_ne (Ne.symm hne)] at hsup
          exact hsup
  | approve k delegate n owner =>
      simp only [run] at h
      split at h
      · split at h
        · cases h
          rfl
        · cases h
      · cases h
  | setOwner k newOwner owner =>
      simp only [run] at h
      split at h
      · split at h
        · cases h
          rfl
        · cases h
      · cases h
  | openMint auth program k =>
      simp only [run] at h
      split at h
      · next hv =>
          cases h
          have hne : m ≠ k := by
            rintro rfl
            cases hM.symm.trans hv.2
          show (L.setMint k _).supply m = L.supply m
          simp only [Ledger.supply, setMint_mint_ne L _ hne]
      · cases h
  | openAccount m' owner k =>
      simp only [run] at h
      split at h
      · split at h
        · cases h
          rfl
        · cases h
      · cases h

end TokenCall
