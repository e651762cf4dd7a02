/-
# `Oragami.Chain.Layout` — credentials across the two programs, byte by byte

oragami-vault and multi-asset-vault declare `ComplianceCredential` each for itself.
Both declarations have the same name, hence the same discriminator, and the same
fields in the same order.  So what one program stored the other reads as the same
credential, and nothing else of that length can be read at all.
-/
import Oragami.Lib.Bytes
import Oragami.Chain.Step

namespace OragamiVault.ComplianceCredential

/-- What the discriminator is derived from. -/
def typeName : String := "ComplianceCredential"

/-- `ComplianceCredential::SIZE`. -/
def size : Nat := 8 + 1 + 32 + 64 + 4 + 1 + 1 + 1 + 32 + 8 + 8 + 1

end OragamiVault.ComplianceCredential

namespace MultiAssetVault.ComplianceCredential

/-- What the discriminator is derived from. -/
def typeName : String := "ComplianceCredential"

/-- `ComplianceCredential::SIZE`. -/
def size : Nat := 8 + 1 + 32 + 64 + 4 + 1 + 1 + 1 + 32 + 8 + 8 + 1

instance {K : Type} : Borsh.Canonical K (ComplianceCredential K) := by
  unfold instBorshComplianceCredential
  exact Borsh.Canonical.via fun _ => rfl

end MultiAssetVault.ComplianceCredential

namespace Chain

variable {K : Type}

variable [KeyBytes K]

/-- A credential fills its space. -/
theorem length_credential (d : Vector UInt8 8) (c : MultiAssetVault.ComplianceCredential K) :
    (Borsh.accountBytes K d c).length = MultiAssetVault.ComplianceCredential.size := by
  have hfields : Borsh.width (Borsh.encode c : List (Cell K)) =
      1 + 32 + 64 + 4 + 1 + 1 + 1 + 32 + 8 + 8 + 1 := by
    show Borsh.width (Borsh.encode (c.bump, c.wallet, c.institutionName, c.jurisdiction, c.tier,
      c.kycLevel, c.amlCoverage, c.attestationHash, c.issuedAt, c.expiresAt, c.status) :
        List (Cell K)) = _
    simp only [Borsh.width_encode_pair, Borsh.width_encode_byte, Borsh.width_encode_key,
      Borsh.width_encode_vector, Borsh.width_encode_int64]
  rw [Borsh.accountBytes, Borsh.length_bytes, Borsh.serialize, Borsh.width_append, hfields,
    Borsh.width_encode_vector]
  rfl

/-- However discriminators are derived from names: multi-asset-vault reads off the bytes
oragami-vault stores for a credential that credential, field by field, and of the byte strings
of that length it reads only those it would write. -/
theorem credential_layout (discriminator : String → Vector UInt8 8) :
    (∀ c : OragamiVault.ComplianceCredential K,
      (Borsh.accountBytes K (discriminator OragamiVault.ComplianceCredential.typeName) c).length =
        MultiAssetVault.ComplianceCredential.size ∧
      ∃ c' : MultiAssetVault.ComplianceCredential K,
        Borsh.tryDeserializeBytes K (discriminator MultiAssetVault.ComplianceCredential.typeName)
          (Borsh.accountBytes K (discriminator OragamiVault.ComplianceCredential.typeName) c) =
            some c' ∧
        c'.bump = c.bump ∧ c'.wallet = c.wallet ∧ c'.institutionName = c.institutionName ∧
        c'.jurisdiction = c.jurisdiction ∧ c'.tier = c.tier ∧ c'.kycLevel = c.kycLevel ∧
        c'.amlCoverage = c.amlCoverage ∧ c'.attestationHash = c.attestationHash ∧
        c'.issuedAt = c.issuedAt ∧ c'.expiresAt = c.expiresAt ∧ c'.status = c.status) ∧
    ∀ (data : List UInt8) (c : MultiAssetVault.ComplianceCredential K),
      data.length = MultiAssetVault.ComplianceCredential.size →
      Borsh.tryDeserializeBytes K (discriminator MultiAssetVault.ComplianceCredential.typeName)
        data = some c →
      Borsh.accountBytes K (discriminator MultiAssetVault.ComplianceCredential.typeName) c =
        data := by
  refine ⟨?_, ?_⟩
  · intro c
    refine ⟨length_credential _ (readAs c), readAs c, ?_, rfl, rfl, rfl, rfl, rfl, rfl, rfl, rfl, rfl, rfl,
      rfl⟩
    exact Borsh.tryDeserializeBytes_accountBytes (encode_readAs c)
  · intro data c hlength hread
    obtain ⟨rest, hdata⟩ := Borsh.accountBytes_of_tryDeserializeBytes hread
    rw [hdata, List.length_append, length_credential] at hlength
    have hnil : rest = [] := List.length_eq_zero_iff.mp (by omega)
    rw [hdata, hnil, List.append_nil]

end Chain
