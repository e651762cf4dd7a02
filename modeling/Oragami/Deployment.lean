/-
# `Oragami.Deployment` — the addresses the three programs are deployed at

The ids the sources fix with `declare_id!`, and the program of the credential
account the custody vault looks for, which is the first of them.

`FreeKey` has numbered keys to deploy at, with the legacy token program among
them; closed examples are runs of that deployment.
-/
import Oragami.Lib.Address
import Oragami.Lib.LegacyToken

/-- The three program ids. -/
class Deployment (K : Type) where
  oragamiVault : K
  multiAssetVault : K
  cvaultTransferHook : K
  vault_ne_multi : oragamiVault ≠ multiAssetVault

instance : TokenProgram FreeKey := LegacyToken.program (.num 1)

instance : Deployment FreeKey where
  oragamiVault := .num 2
  multiAssetVault := .num 3
  cvaultTransferHook := .num 4
  vault_ne_multi := by decide
