/-
# `Oragami.Backend.Client` — the accounts of both programs as the backend reads them

The backend holds an IDL of each program and reads accounts through them.  For each
account it reads there are two lists here: the fields the program stores, in the
order of the struct, and the fields the IDL knows, in its own.

`oragami_vault.idl.json` has the credential as it is, and the vault state but for the
last field.  `multi_asset_vault.idl.json` lacks the attestation hash of the credential
and `travel_rule_required` of the vault, neither at the end.
-/
import Oragami.Chain.Step
import Oragami.Lib.Idl

namespace Backend

open Idl

variable {K : Type}

/-! ## What the programs store -/

/-- Fields of `ComplianceCredential`, as the client spells them. -/
inductive CredentialField where
  | bump | wallet | institutionName | jurisdiction | tier | kycLevel | amlCoverage
  | attestationHash | issuedAt | expiresAt | status
deriving DecidableEq

/-- Fields of `AssetVault`. -/
inductive AssetVaultField where
  | bump | assetMint | shareMint | vaultTokenAccount | navPriceBps | totalDeposits | totalSupply
  | minDeposit | maxDeposit | ticker | travelRuleRequired | paused
deriving DecidableEq

/-- Fields of `VaultState`. -/
inductive VaultStateField where
  | bump | cvaultMint | cvaultTradeMint | vaultTokenAccount | treasury | authority | minDeposit
  | maxDeposit | usxAllocationBps | apyBps | paused | totalDeposits | totalSupply
  | lastYieldClaim | pendingYield | secondaryMarketEnabled | navPriceBps | usxMint | eusxMint
  | vaultUsxAccount | vaultEusxAccount | operator
deriving DecidableEq

/-- `ComplianceCredential` of oragami-vault. -/
def credentialStored (c : OragamiVault.ComplianceCredential K) : Stored K CredentialField :=
  [(.bump, ⟨.u8, c.bump⟩), (.wallet, ⟨.pubkey, c.wallet⟩),
    (.institutionName, ⟨.bytes 64, c.institutionName⟩),
    (.jurisdiction, ⟨.bytes 4, c.jurisdiction⟩), (.tier, ⟨.u8, c.tier⟩),
    (.kycLevel, ⟨.u8, c.kycLevel⟩), (.amlCoverage, ⟨.u8, c.amlCoverage⟩),
    (.attestationHash, ⟨.bytes 32, c.attestationHash⟩), (.issuedAt, ⟨.i64, c.issuedAt⟩),
    (.expiresAt, ⟨.i64, c.expiresAt⟩), (.status, ⟨.u8, c.status⟩)]

/-- `AssetVault` of multi-asset-vault. -/
def assetVaultStored (v : MultiAssetVault.AssetVault K) : Stored K AssetVaultField :=
  [(.bump, ⟨.u8, v.bump⟩), (.assetMint, ⟨.pubkey, v.assetMint⟩),
    (.shareMint, ⟨.pubkey, v.shareMint⟩), (.vaultTokenAccount, ⟨.pubkey, v.vaultTokenAccount⟩),
    (.navPriceBps, ⟨.u64, v.navPriceBps⟩), (.totalDeposits, ⟨.u64, v.totalDeposits⟩),
    (.totalSupply, ⟨.u64, v.totalSupply⟩), (.minDeposit, ⟨.u64, v.minDeposit⟩),
    (.maxDeposit, ⟨.u64, v.maxDeposit⟩), (.ticker, ⟨.bytes 8, v.ticker⟩),
    (.travelRuleRequired, ⟨.bool, v.travelRuleRequired⟩), (.paused, ⟨.bool, v.paused⟩)]

/-- `VaultState` of oragami-vault. -/
def vaultStateStored (vs : OragamiVault.VaultState K) : Stored K VaultStateField :=
  [(.bump, ⟨.u8, vs.bump⟩), (.cvaultMint, ⟨.pubkey, vs.cvaultMint⟩),
    (.cvaultTradeMint, ⟨.pubkey, vs.cvaultTradeMint⟩),
    (.vaultTokenAccount, ⟨.pubkey, vs.vaultTokenAccount⟩), (.treasury, ⟨.pubkey, vs.treasury⟩),
    (.authority, ⟨.pubkey, vs.authority⟩), (.minDeposit, ⟨.u64, vs.minDeposit⟩),
    (.maxDeposit, ⟨.u64, vs.maxDeposit⟩), (.usxAllocationBps, ⟨.u16, vs.usxAllocationBps⟩),
    (.apyBps, ⟨.u16, vs.apyBps⟩), (.paused, ⟨.bool, vs.paused⟩),
    (.totalDeposits, ⟨.u64, vs.totalDeposits⟩), (.totalSupply, ⟨.u64, vs.totalSupply⟩),
    (.lastYieldClaim, ⟨.i64, vs.lastYieldClaim⟩), (.pendingYield, ⟨.u64, vs.pendingYield⟩),
    (.secondaryMarketEnabled, ⟨.bool, vs.secondaryMarketEnabled⟩),
    (.navPriceBps, ⟨.u64, vs.navPriceBps⟩), (.usxMint, ⟨.pubkey, vs.usxMint⟩),
    (.eusxMint, ⟨.pubkey, vs.eusxMint⟩), (.vaultUsxAccount, ⟨.pubkey, vs.vaultUsxAccount⟩),
    (.vaultEusxAccount, ⟨.pubkey, vs.vaultEusxAccount⟩), (.operator, ⟨.pubkey, vs.operator⟩)]

/-- The first eight bytes of the hash of `account:AssetVault`, -/
def assetVaultDiscriminator : Vector UInt8 8 := #v[193, 119, 127, 25, 157, 102, 175, 164]

/-- and of `account:VaultState`. -/
def vaultStateDiscriminator : Vector UInt8 8 := #v[228, 196, 82, 165, 98, 210, 235, 152]

/-! ## `multi_asset_vault.idl.json` -/

namespace MultiAssetVaultIdl

def complianceCredential : Account CredentialField where
  discriminator := #[211, 133, 119, 195, 6, 38, 240, 69].toVector
  fields := [(.bump, .u8), (.wallet, .pubkey), (.institutionName, .bytes 64),
    (.jurisdiction, .bytes 4), (.tier, .u8), (.kycLevel, .u8), (.amlCoverage, .u8),
    (.issuedAt, .i64), (.expiresAt, .i64), (.status, .u8)]

def assetVault : Account AssetVaultField where
  discriminator := #v[193, 119, 127, 25, 157, 102, 175, 164]
  fields := [(.bump, .u8), (.assetMint, .pubkey), (.shareMint, .pubkey),
    (.vaultTokenAccount, .pubkey), (.navPriceBps, .u64), (.totalDeposits, .u64),
    (.totalSupply, .u64), (.minDeposit, .u64), (.maxDeposit, .u64), (.ticker, .bytes 8),
    (.paused, .bool)]

end MultiAssetVaultIdl

/-! ## `oragami_vault.idl.json` -/

namespace OragamiVaultIdl

def complianceCredential : Account CredentialField where
  discriminator := #[211, 133, 119, 195, 6, 38, 240, 69].toVector
  fields := [(.bump, .u8), (.wallet, .pubkey), (.institutionName, .bytes 64),
    (.jurisdiction, .bytes 4), (.tier, .u8), (.kycLevel, .u8), (.amlCoverage, .u8),
    (.attestationHash, .bytes 32), (.issuedAt, .i64), (.expiresAt, .i64), (.status, .u8)]

def vaultState : Account VaultStateField where
  discriminator := #v[228, 196, 82, 165, 98, 210, 235, 152]
  fields := [(.bump, .u8), (.cvaultMint, .pubkey), (.cvaultTradeMint, .pubkey),
    (.vaultTokenAccount, .pubkey), (.treasury, .pubkey), (.authority, .pubkey),
    (.minDeposit, .u64), (.maxDeposit, .u64), (.usxAllocationBps, .u16), (.apyBps, .u16),
    (.paused, .bool), (.totalDeposits, .u64), (.totalSupply, .u64), (.lastYieldClaim, .i64),
    (.pendingYield, .u64), (.secondaryMarketEnabled, .bool), (.navPriceBps, .u64),
    (.usxMint, .pubkey), (.eusxMint, .pubkey), (.vaultUsxAccount, .pubkey),
    (.vaultEusxAccount, .pubkey)]

end OragamiVaultIdl

/-! ## What is read -/

/-- Bytes are compared as the numbers they are read as. -/
theorem byte_eq_iff {x y : UInt8} : (x.toNat : Int) = (y.toNat : Int) ↔ x = y :=
  Int.ofNat_inj.trans UInt8.toNat_inj

/-- Through the IDL of its own program a credential is read as it is stored, -/
theorem decode_credential (c : OragamiVault.ComplianceCredential K) :
    OragamiVaultIdl.complianceCredential.decode
      (accountData MultiAssetVault.credentialDiscriminator (credentialStored c)) =
        some (record (credentialStored c).values) :=
  decode_accountData rfl (List.append_nil _).symm

/-- and so is the vault state, but for the operator. -/
theorem decode_vaultState (vs : OragamiVault.VaultState K) :
    OragamiVaultIdl.vaultState.decode (accountData vaultStateDiscriminator (vaultStateStored vs)) =
      some (record (Stored.values ((vaultStateStored vs).take 21))) := by
  have hbytes : (vaultStateStored vs).encode = Stored.encode ((vaultStateStored vs).take 21) ++
      Stored.encode ((vaultStateStored vs).drop 21) := by
    rw [← Stored.encode_append, List.take_append_drop]
  exact decode_accountData rfl hbytes

/-- A vault as multi-asset-vault's IDL has it: the flag before `paused` is taken for `paused`. -/
def assetVaultSeen (v : MultiAssetVault.AssetVault K) : Stored K AssetVaultField :=
  (assetVaultStored v).take 10 ++ [(.paused, ⟨.bool, v.travelRuleRequired⟩)]

theorem decode_assetVault (v : MultiAssetVault.AssetVault K) :
    MultiAssetVaultIdl.assetVault.decode (accountData assetVaultDiscriminator (assetVaultStored v)) =
      some (record (assetVaultSeen v).values) :=
  decode_accountData rfl (Stored.encode_take 10 rfl)

/-- Bytes of the attestation hash. -/
def hashBytes (c : OragamiVault.ComplianceCredential K) (i n : Nat) : List UInt8 :=
  (c.attestationHash.toList.drop i).take n

/-- The byte read as the status. -/
def hashStatus (c : OragamiVault.ComplianceCredential K) : UInt8 := c.attestationHash[16]

/-- A credential as it has it: the dates and the status are taken off the attestation hash. -/
def credentialSeen (c : OragamiVault.ComplianceCredential K) : Stored K CredentialField :=
  (credentialStored c).take 7 ++ [(.issuedAt, ⟨.i64, Borsh.leInt64 (hashBytes c 0 8)⟩),
    (.expiresAt, ⟨.i64, Borsh.leInt64 (hashBytes c 8 8)⟩),
    (.status, ⟨.u8, hashStatus c⟩)]

theorem decode_credential_multi (c : OragamiVault.ComplianceCredential K) :
    MultiAssetVaultIdl.complianceCredential.decode
      (accountData MultiAssetVault.credentialDiscriminator (credentialStored c)) =
        some (record (credentialSeen c).values) := by
  have hlen : c.attestationHash.toList.length = 32 := Vector.length_toList
  have hfirst : (hashBytes c 0 8).length = 8 := by
    rw [hashBytes, List.length_take, List.length_drop, hlen]
    rfl
  have hsecond : (hashBytes c 8 8).length = 8 := by
    rw [hashBytes, List.length_take, List.length_drop, hlen]
    rfl
  have hsplit : c.attestationHash.toList = hashBytes c 0 8 ++ (hashBytes c 8 8 ++
      ([hashStatus c] ++ c.attestationHash.toList.drop 17)) := by
    have hbyte : c.attestationHash.toList.drop 16 =
        [hashStatus c] ++ c.attestationHash.toList.drop 17 := by
      rw [List.drop_eq_getElem_cons (by omega), Vector.getElem_toList]
      rfl
    have htail : c.attestationHash.toList.drop 8 =
        hashBytes c 8 8 ++ c.attestationHash.toList.drop 16 := by
      rw [hashBytes, ← List.drop_drop (i := 8) (j := 8)]
      exact (List.take_append_drop ..).symm
    rw [← hbyte, ← htail]
    exact (List.take_append_drop ..).symm
  have hbytes : Stored.encode ((credentialStored c).drop 7) =
      Stored.encode ((credentialSeen c).drop 7) ++ ((c.attestationHash.toList.drop 17).map .byte ++
        Stored.encode ((credentialStored c).drop 8)) := by
    have hseen : Stored.encode ((credentialSeen c).drop 7) =
        (hashBytes c 0 8).map .byte ++ ((hashBytes c 8 8).map .byte ++ [.byte (hashStatus c)]) := by
      rw [← Borsh.encode_leInt64 hfirst, ← Borsh.encode_leInt64 hsecond]
      rfl
    show c.attestationHash.toList.map Cell.byte ++ Stored.encode ((credentialStored c).drop 8) = _
    rw [hseen, congrArg (List.map Cell.byte) hsplit]
    simp only [List.map_append, List.append_assoc]
    rfl
  exact decode_accountData rfl (Stored.encode_take 7 hbytes)

/-! ## Failures of a request -/

/-- What a request is answered with when it fails: an exception of the service, with the text
it carries, or an error nobody catches. -/
inductive Exception (K : Type) where
  | badRequest (message : String)
  | notFound (message : String)
  | conflict (message : String)
  /-- `Vault not found for mint` and the mint. -/
  | vaultNotFound (assetMint : K)
  | uncaught

/-- A value, or an error nobody catches. -/
def orThrow {α : Type} : Option α → Except (Exception K) α
  | some a => .ok a
  | none => .error .uncaught

theorem orThrow_eq_ok {α : Type} {o : Option α} {a : α} :
    (orThrow o : Except (Exception K) α) = .ok a ↔ o = some a := by
  cases o <;> simp [orThrow]

end Backend
