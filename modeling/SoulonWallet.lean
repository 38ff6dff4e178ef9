import SoulonWallet.LabelledRun
import SoulonWallet.KeyedMap
import SoulonWallet.ExceptResults
import SoulonWallet.Utf8Bytes
import SoulonWallet.PercentCoding
import SoulonWallet.FormUrlencoded
import SoulonWallet.Utf16Scalars
import SoulonWallet.Binary64
import SoulonWallet.WrappingInt64
import SoulonWallet.ChainKeepers
import SoulonWallet.ChainTx
import SoulonWallet.GoStrings
import SoulonWallet.ChainAtomicity
import SoulonWallet.ChainGenesis
import SoulonWallet.BankConservation
import SoulonWallet.GenesisAtomicity
import SoulonWallet.StakingInvariant
import SoulonWallet.RewardLedger
import SoulonWallet.GovTally
import SoulonWallet.FileEventStore
import SoulonWallet.EventStoreInvariant
import SoulonWallet.EventStoreReplay
import SoulonWallet.EventStoreRetry
import SoulonWallet.ApiState
import SoulonWallet.EventChainLinks
import SoulonWallet.ReorgPile
import SoulonWallet.EventBlockPile
import SoulonWallet.EventRedelivery
import SoulonWallet.SqlTable
import SoulonWallet.PostgresStore
import SoulonWallet.PostgresInvariant
import SoulonWallet.PostgresRetention
import SoulonWallet.PostgresAgreement
import SoulonWallet.PostgresReadBack
import SoulonWallet.IngestionDelivery
import SoulonWallet.NonceManager
import SoulonWallet.BroadcastRetry
import SoulonWallet.MultisigTask
import SoulonWallet.MultisigWorkbench
import SoulonWallet.MultisigTurns
import SoulonWallet.MultisigInvariant
import SoulonWallet.MultisigOverlap
import SoulonWallet.MultisigTerminal
import SoulonWallet.MultisigAlone
import SoulonWallet.MultisigImport
import SoulonWallet.MultisigBusy
import SoulonWallet.MultisigFailure
import SoulonWallet.SignatureChallenge
import SoulonWallet.ChallengeSafety
import SoulonWallet.ChallengeAvailability
import SoulonWallet.ConfirmRetry
import SoulonWallet.NotificationStream
import SoulonWallet.StreamDelivery
import SoulonWallet.WebhookNotification
import SoulonWallet.GoDecimals
import SoulonWallet.PageReading
import SoulonWallet.EventPages
import SoulonWallet.EventExport
import SoulonWallet.ExportRace
import SoulonWallet.NotificationPages
import SoulonWallet.EventById
import SoulonWallet.SecurityConfirm
import SoulonWallet.PinProvisioning
import SoulonWallet.BiometricReset
import SoulonWallet.DecisionSlot
import SoulonWallet.DappApproval
import SoulonWallet.ReorgTracking
import SoulonWallet.IbcTransfer
import SoulonWallet.BitGroups
import SoulonWallet.AddressCodec
import SoulonWallet.Bech32Checksum
import SoulonWallet.Bech32RoundTrip
import SoulonWallet.Bip173
import SoulonWallet.AddressValidation
import SoulonWallet.Bech32Substitution
import SoulonWallet.MnemonicGenerator
import SoulonWallet.Bip21Uri
import SoulonWallet.Bip21Scan
import SoulonWallet.PageStack
import SoulonWallet.PopupScreens
import SoulonWallet.PopupController
import SoulonWallet.PopupStack
import SoulonWallet.PopupMoves
import SoulonWallet.PopupLocked
import SoulonWallet.PopupBase
import SoulonWallet.BroadcastReference
import SoulonWallet.ErrorClassifiers
import SoulonWallet.Csv
import SoulonWallet.EventCsv
import SoulonWallet.HistoryCsv
import SoulonWallet.BankExport
import SoulonWallet.Binary64Order
import SoulonWallet.QuorumReached
import SoulonWallet.EventGenerator
import SoulonWallet.PersistRetry
import SoulonWallet.ApiClient
import SoulonWallet.RequestLifecycle
import SoulonWallet.RequestTimeout
import SoulonWallet.GatewayRouter
import SoulonWallet.GeneratedLinks
import SoulonWallet.AuditTrail
import SoulonWallet.StakeGovernance
import SoulonWallet.ComponentRun
import SoulonWallet.ModuleIsolation
import SoulonWallet.TxResponse
import SoulonWallet.DemoRun
import SoulonWallet.HashChain
import SoulonWallet.GeneratedChain
import SoulonWallet.StoredChain
import SoulonWallet.IndexerPipeline
import SoulonWallet.PipelineOrder
import SoulonWallet.PipelineChain
import SoulonWallet.MigrationRun
import SoulonWallet.SchemaMigrations
import SoulonWallet.UrlValues
import SoulonWallet.ChainProxy
import SoulonWallet.ErrorSemantics
import SoulonWallet.JsonText
import SoulonWallet.Base64
import SoulonWallet.JsonSpelling
import SoulonWallet.TransactionFlows
import SoulonWallet.TransactionBytes
import SoulonWallet.DigestChain
import SoulonWallet.HdKeyDerivation
import SoulonWallet.BankSendSigner
import SoulonWallet.Keystore
import SoulonWallet.CallLedger
import SoulonWallet.GatewayRuns
import SoulonWallet.Config
import SoulonWallet.Deployment
