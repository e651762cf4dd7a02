import Oragami.Lib.Run
import Oragami.Lib.Accrual
import Oragami.Lib.SingleUse
import Oragami.Lib.TokenCall
import Oragami.Lib.TokenRun
import Oragami.Lib.Custody
import Oragami.Lib.ShareVault
import Oragami.Lib.Conversion
import Oragami.Lib.HalfStep
import Oragami.Lib.Borsh
import Oragami.Lib.Bytes
import Oragami.Lib.Idl
import Oragami.Lib.Js
import Oragami.Lib.Unicode
import Oragami.Lib.Holdings
import Oragami.Lib.Double
import Oragami.Lib.Cached
import Oragami.OragamiVault.State
import Oragami.OragamiVault.Custody
import Oragami.OragamiVault.Governance
import Oragami.OragamiVault.Step
import Oragami.OragamiVault.Accounting
import Oragami.OragamiVault.Scenario
import Oragami.OragamiVault.Solvency
import Oragami.OragamiVault.Supply
import Oragami.OragamiVault.Exits
import Oragami.OragamiVault.Tradeable
import Oragami.OragamiVault.Yield
import Oragami.OragamiVault.YieldBounds
import Oragami.OragamiVault.Configuration
import Oragami.OragamiVault.Mandate
import Oragami.OragamiVault.Pause
import Oragami.OragamiVault.Reserve
import Oragami.OragamiVault.Credentials
import Oragami.OragamiVault.Guards
import Oragami.OragamiVault.History
import Oragami.OragamiVault.Fairness
import Oragami.OragamiVault.Authority
import Oragami.OragamiVault.Redemption
import Oragami.TransferHook.Program
import Oragami.TransferHook.Entry
import Oragami.TransferHook.ExtraAccounts
import Oragami.TransferHook.Step
import Oragami.TransferHook.Provenance
import Oragami.TransferHook.Wire
import Oragami.TransferHook.Authority
import Oragami.MultiAssetVault.State
import Oragami.MultiAssetVault.Instructions
import Oragami.MultiAssetVault.Step
import Oragami.MultiAssetVault.Accounting
import Oragami.MultiAssetVault.Scenario
import Oragami.MultiAssetVault.Solvency
import Oragami.MultiAssetVault.Registry
import Oragami.MultiAssetVault.Guards
import Oragami.MultiAssetVault.Fairness
import Oragami.MultiAssetVault.Authority
import Oragami.MultiAssetVault.Redemption
import Oragami.MultiAssetVault.Events
import Oragami.Chain.Layout
import Oragami.Chain.Composition
import Oragami.Chain.Fairness
import Oragami.Chain.Backing
import Oragami.Chain.Credentials
import Oragami.Chain.TravelRule
import Oragami.Chain.Settlement
import Oragami.Chain.OwnCredentials
import Oragami.Chain.Pricing
import Oragami.Chain.NavGuard
import Oragami.Backend.Client
import Oragami.Backend.MultiAssetVaultService
import Oragami.Backend.Faithful
import Oragami.Backend.CustodyPreflight
import Oragami.Backend.Encoding
import Oragami.Backend.FixedWidth
import Oragami.Backend.World
import Oragami.Backend.CredentialsService
import Oragami.Backend.Reconciliation
import Oragami.Backend.CredentialVerification
import Oragami.Backend.DepositsService
import Oragami.Backend.DepositIndex
import Oragami.Backend.DepositHistory
import Oragami.Backend.NavPrice
import Oragami.Backend.PriceWalk
import Oragami.Backend.NavCrankService
import Oragami.Backend.NavRuns
import Oragami.Backend.YieldEvents
import Oragami.Backend.NavOverlap
import Oragami.Backend.SolsticeService
import Oragami.Backend.TravelRuleService
import Oragami.Backend.VaultListing
import Oragami.Frontend.VaultPanel
import Oragami.Frontend.DepositTab
