import Savitools.Web.QrRejections
import Savitools.Web.SignedPayloads
import Savitools.SequencePlanner.Dependencies
import Savitools.Simulator.SlippageVerdicts
import Savitools.Simulator.PoolDeposits
import Savitools.Simulator.PoolRuns
import Savitools.Federation.StellarToml
import Savitools.Federation.Fetching
import Savitools.Federation.TimelineSecrets
import Savitools.Federation.QueryLeaks
import Savitools.Auth.RateLimits
import Savitools.Auth.PasskeyChallenges
import Savitools.Auth.Revocation
import Savitools.Common.LruCache
import Savitools.Common.Redaction
import Savitools.Common.SsrfGuard
import Savitools.Inspector.AuthEntries
import Savitools.Inspector.TransactionResults
import Savitools.Monitor.Digest
import Savitools.Monitor.DigestGroups
import Savitools.Monitor.AccountQueues
import Savitools.Monitor.HeldNotifications
import Savitools.Monitor.LeaderExclusion
import Savitools.Monitor.StateEvaluation
import Savitools.Monitor.StreamLifecycle
import Savitools.Monitor.TopicRules
import Savitools.Outbound.RedirectContainment
import Savitools.Playground.ProxyRequests
import Savitools.Sdkgen.Generators
import Savitools.Sep10.Challenges
import Savitools.Sep10.TokenLeaks
import Savitools.Simulator.OrderQuotes
import Savitools.Simulator.TradePaging
import Savitools.Stellar.MainnetReach
import Savitools.Strings.Base64
import Savitools.Net.Urls
import Savitools.Transaction.GraphBounds
import Savitools.Web.ContractEvents
import Savitools.Web.QrFrames
import Savitools.Web.WorkspaceFormat
import Savitools.Workspaces.ExportedSecrets
import Savitools.Web.StrKeyTexts
import Savitools.Webhook.Requests
import Savitools.Webhook.Signature
import Savitools.Workspaces.ShareLinks
import Savitools.Composer.SequenceNumbers
import Savitools.Contracts.GitArtifacts
import Savitools.Contracts.EventReplays
import Savitools.Contracts.InvocableCatalogs
import Savitools.Contracts.ContractQuota
import Savitools.Translations.SilentMismatches
import Savitools.Sep24.SafeTargets
import Savitools.Sep24.Sessions
import Savitools.Sep24.PrivateAddresses
import Savitools.Sep24.TimelineLeaks
import Savitools.Outbound.DebuggerRequests
import Savitools.Simulator.SlippageRows
import Savitools.Simulator.PathSimulations
import Savitools.Monitor.DecimalThresholds
import Savitools.Monitor.TransactionCounts
import Savitools.Monitor.EventSearch
import Savitools.Monitor.RuleAdditions
import Savitools.Monitor.WatchCalls
import Savitools.Monitor.DigestMail
import Savitools.Monitor.ChannelSends
import Savitools.Monitor.AlertDeliveries
import Savitools.Contracts.EncodedArguments
import Savitools.Contracts.AbiCatalogs
import Savitools.Contracts.ScValDecoder
import Savitools.Contracts.SearchedEvents
import Savitools.Composer.RawArguments
import Savitools.Composer.PriceRatios
import Savitools.Composer.FeeBumps
import Savitools.Playground.Diffs
import Savitools.Webhook.PayloadDiffs
import Savitools.Playground.RedirectMethods
import Savitools.Transaction.GraphClasses
import Savitools.Translations.MessageCursors
import Savitools.Common.CsvExports
import Savitools.Workspaces.KeptWorkspaces
import Savitools.Web.NetworkProfileFormat
import Savitools.Wallet.TrustlineScans
import Savitools.Composer.SequenceReports
import Savitools.Inspector.NetworkDetector
import Savitools.Stellar.MuxedDestinations
import Savitools.Transaction.Replays
import Savitools.Web.AbiChanges
import Savitools.SorobanStorage.StorageDiffs
import Savitools.Inspector.ComposerPayloads
import Savitools.Grammars.TypeExpressions
import Savitools.Grammars.TypeRules
import Savitools.Sdkgen.TypeDenotations
import Savitools.Contracts.ReplaySchedules
import Savitools.Network.DefaultProfiles
import Savitools.Network.HistoryBuckets
import Savitools.LiquidityPools.PoolRecords
import Savitools.Web.GuestWorkspaces
import Savitools.Monitor.IngestedEvents
import Savitools.Monitor.QuietHours
import Savitools.Playground.StoredKeys
import Savitools.Auth.AccountAccess
import Savitools.Multisig.Quorums
import Savitools.Web.StrKeyBursts
import Savitools.Web.QrChecksums
import Savitools.Simulator.LpMath
import Savitools.Simulator.OrderDepths
import Savitools.Sdkgen.WrittenLiterals
import Savitools.Auth.OneAccount
