/-
# `Oragami.Chain.Step` — the two vault programs on one chain

oragami-vault and multi-asset-vault share the token ledger, and the second reads
the credentials of the first.  A step of the chain is an instruction of either, or
a direct call to the token program.  Each instruction carries the time it ran at;
nothing below needs the clock to be monotone.

The two declare the credential each for itself, with the same fields in the same
order under the same name: the bytes one wrote are the bytes the other reads
(`Chain.read_credential`).
-/
import Oragami.MultiAssetVault.Step
import Oragami.OragamiVault.Step

open Lts

/-- The accounts of both programs and the token ledger. -/
structure Chain (K : Type) where
  vault : OragamiVault.Accounts K
  multi : MultiAssetVault.Accounts K
  ledger : Ledger K

namespace Chain

variable {K : Type}

/-- Before either program was initialised. -/
def genesis (ledger : Ledger K) : Chain K :=
  ⟨(OragamiVault.State.genesis ledger).toAccounts, .genesis, ledger⟩

/-- The state as oragami-vault sees it. -/
def vaultSide (s : Chain K) : OragamiVault.State K := { s.vault with ledger := s.ledger }

/-- The state as multi-asset-vault sees it, credentials of oragami-vault apart. -/
def multiSide (s : Chain K) : MultiAssetVault.State K := { s.multi with ledger := s.ledger }

def setVaultSide (s : Chain K) (v : OragamiVault.State K) : Chain K :=
  { s with vault := v.toAccounts, ledger := v.ledger }

def setMultiSide (s : Chain K) (m : MultiAssetVault.State K) : Chain K :=
  { s with multi := m.toAccounts, ledger := m.ledger }

/-! ## Reading a credential across programs -/

instance : Borsh K (OragamiVault.ComplianceCredential K) :=
  Borsh.via
    (fun c => (c.bump, c.wallet, c.institutionName, c.jurisdiction, c.tier, c.kycLevel,
      c.amlCoverage, c.attestationHash, c.issuedAt, c.expiresAt, c.status))
    (fun (b, w, n, j, t, l, c, h, i, e, s) => ⟨b, w, n, j, t, l, c, h, i, e, s⟩) fun _ => rfl

/-- A credential of oragami-vault as multi-asset-vault reads it. -/
def readAs (c : OragamiVault.ComplianceCredential K) : MultiAssetVault.ComplianceCredential K :=
  ⟨c.bump, c.wallet, c.institutionName, c.jurisdiction, c.tier, c.kycLevel, c.amlCoverage,
    c.attestationHash, c.issuedAt, c.expiresAt, c.status⟩

/-- Both layouts give the same bytes. -/
theorem encode_readAs (c : OragamiVault.ComplianceCredential K) :
    (Borsh.encode c : List (Cell K)) = Borsh.encode (readAs c) := rfl

variable [Deployment K]

/-- What multi-asset-vault sees of the accounts of oragami-vault: its credentials, under the
name the type has there too. -/
def view (s : Chain K) : MultiAssetVault.View K := fun k =>
  (s.vault.credentials k).map fun c =>
    ⟨OragamiVault.programId, Borsh.serialize MultiAssetVault.credentialDiscriminator c⟩

/-- What it reads there is what oragami-vault stored. -/
theorem read_credential {s : Chain K} {k : K} {raw : MultiAssetVault.RawAccount K}
    {cred : MultiAssetVault.ComplianceCredential K} (hraw : s.view k = some raw)
    (hcred : Borsh.tryDeserialize MultiAssetVault.credentialDiscriminator raw.data = some cred) :
    ∃ c, s.vault.credentials k = some c ∧ cred = readAs c := by
  obtain ⟨c, hc, rfl⟩ := Option.map_eq_some_iff.mp hraw
  rw [Borsh.tryDeserialize_serialize (encode_readAs c)] at hcred
  cases hcred
  exact ⟨c, hc, rfl⟩

variable [Addresses K]

/-- A wallet the gate of multi-asset-vault lets through holds a credential of oragami-vault
that is active and unexpired. -/
theorem credentialed_stored {s : Chain K} {now : Int64} {k wallet : K}
    {cred : MultiAssetVault.ComplianceCredential K}
    (h : MultiAssetVault.Credentialed now s.view k wallet cred) :
    ∃ c, s.vault.credentials (OragamiVault.credentialKey wallet) = some c ∧ cred = readAs c ∧
      c.status = OragamiVault.credentialStatusActive ∧ now < c.expiresAt := by
  obtain ⟨raw, hraw, -, hdata⟩ := h.data
  obtain ⟨c, hc, rfl⟩ := read_credential hraw hdata
  rw [h.address] at hc
  exact ⟨c, hc, rfl, h.status, h.unexpired⟩

/-! ## Steps -/

/-- An address one of the two programs signs for. -/
def Owned (k : K) : Prop := OragamiVault.Owned k ∨ MultiAssetVault.Owned k

/-- One thing that happens on the chain. -/
inductive Action (K : Type) where
  | vault (now : Int64) (call : OragamiVault.Call K)
  | multi (now : Int64) (call : MultiAssetVault.Call K)
  | token (call : TokenCall K)

variable [DecidableEq K] [TokenProgram K]

/-- A successful instruction of either program, or an accepted direct call to the token
program.  No signer is an address of the programs. -/
inductive Step : Chain K → Action K → Chain K → Prop
  | vault {s : Chain K} {now : Int64} {c : OragamiVault.Call K} {v : OragamiVault.State K}
      {ev : Option (OragamiVault.Event K)} :
      (∀ k ∈ c.signer, ¬ Owned k) → c.exec now s.vaultSide = .ok (v, ev) →
      Step s (.vault now c) (s.setVaultSide v)
  | multi {s : Chain K} {now : Int64} {c : MultiAssetVault.Call K} {m : MultiAssetVault.State K}
      {ev : Option (MultiAssetVault.Event K)} :
      ¬ Owned c.signer → c.exec now s.view s.multiSide = .ok (m, ev) →
      Step s (.multi now c) (s.setMultiSide m)
  | token {s : Chain K} {c : TokenCall K} {L : Ledger K} :
      ¬ Owned c.signer → c.run s.ledger = some L →
      Step s (.token c) { s with ledger := L }

theorem Step.of_vault {s s' : Chain K} {now : Int64} {c : OragamiVault.Call K}
    (h : Step s (.vault now c) s') :
    ∃ v ev, c.exec now s.vaultSide = .ok (v, ev) ∧ s' = s.setVaultSide v := by
  cases h with
  | vault _ hexec => exact ⟨_, _, hexec, rfl⟩

theorem Step.of_multi {s s' : Chain K} {now : Int64} {c : MultiAssetVault.Call K}
    (h : Step s (.multi now c) s') :
    ∃ m ev, c.exec now s.view s.multiSide = .ok (m, ev) ∧ s' = s.setMultiSide m := by
  cases h with
  | multi _ hexec => exact ⟨_, _, hexec, rfl⟩

/-- `Reaches ledger ts s`: the run `ts` leads from before both programs, with `ledger`, to
`s`. -/
def Reaches (ledger : Ledger K) (ts : List (Transition (Chain K) (Action K))) (s : Chain K) :
    Prop :=
  Run Step (genesis ledger) ts s

end Chain
