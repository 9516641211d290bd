import AiSwitcher.Sync.Registry
import AiSwitcher.Library.Lists
import AiSwitcher.Library.Lines
import AiSwitcher.Library.Utf8
import AiSwitcher.Sync.Dedupe
import AiSwitcher.Sync.TailMerge
import AiSwitcher.Identities.ClaudeSwap
import AiSwitcher.Identities.Pool.Files
import AiSwitcher.Identities.CodexAuth
import AiSwitcher.Identities.Pool.CodexAdapter
import AiSwitcher.Identities.Pool.CodexGrants
import AiSwitcher.Identities.Pool.CodexCalls
import AiSwitcher.Identities.Pool.GrantFileAdapter
import AiSwitcher.Identities.Pool.PiAdapter
import AiSwitcher.Identities.Pool.PiEntries
import AiSwitcher.Identities.Pool.PiWriteBack
import AiSwitcher.Identities.Pool.PiSafety
import AiSwitcher.Identities.Pool.PiCalls
import AiSwitcher.Sync.Retirement
import AiSwitcher.Host.Registry
import AiSwitcher.Host.Escrow
import AiSwitcher.Host.EscrowSafety
import AiSwitcher.Host.EscrowCleanup
import AiSwitcher.Host.Retention
import AiSwitcher.Library.Upsert
import AiSwitcher.Sync.CrushMerge
import AiSwitcher.Library.Pattern
import AiSwitcher.Sync.OrdinaryFiles
import AiSwitcher.Library.DeepEqual
import AiSwitcher.Sync.ClaudeJson
import AiSwitcher.Live.Auth
import AiSwitcher.Live.Inbox
import AiSwitcher.Live.Applying
import AiSwitcher.Live.Logins
import AiSwitcher.Exchange.Conflicts
import AiSwitcher.Exchange.Refresh
import AiSwitcher.Exchange.Computer
import AiSwitcher.Exchange.Sequences
import AiSwitcher.Gateway.BodyBudget
import AiSwitcher.Gateway.LedgerBuffer
import AiSwitcher.Gateway.Store
import AiSwitcher.Gateway.CacheStore
import AiSwitcher.Gateway.ReadYourWrites
import AiSwitcher.Gateway.Admin
import AiSwitcher.Gateway.Revocation
import AiSwitcher.Gateway.Browser.Hub
import AiSwitcher.Gateway.Browser.Settling
import AiSwitcher.Gateway.Browser.Registration
import AiSwitcher.Gateway.Browser.Relay
import AiSwitcher.Gateway.Browser.Calls
import AiSwitcher.Gateway.Browser.OneToken
import AiSwitcher.Gateway.UsageTap
import AiSwitcher.Gateway.UsageChunks
import AiSwitcher.Gateway.Proxy.Requests
import AiSwitcher.Gateway.Proxy.Selection
import AiSwitcher.Gateway.Proxy.Handler
import AiSwitcher.Gateway.Proxy.Journal
import AiSwitcher.Gateway.Proxy.Passing
import AiSwitcher.Gateway.Proxy.Accounting
import AiSwitcher.Sync.DeferredCopies
import AiSwitcher.Shared.PidLock
import AiSwitcher.Shared.PidLockSafety
import AiSwitcher.Exchange.Bundle
import AiSwitcher.Exchange.BundleRoundTrip
import AiSwitcher.Identities.Pool.Limits
import AiSwitcher.Identities.Pool.LimitCalls
import AiSwitcher.Identities.Pool.Cooldown
import AiSwitcher.Identities.Pool.Failures
import AiSwitcher.Gateway.Local
import AiSwitcher.Gateway.LocalBreaker
import AiSwitcher.Usage.Breakdown
import AiSwitcher.Usage.BreakdownWorld
import AiSwitcher.Usage.BreakdownCalls
import AiSwitcher.Gateway.NativeLimit
import AiSwitcher.Identities.Match
import AiSwitcher.Identities.Resolve
import AiSwitcher.Identities.Reconcile
import AiSwitcher.Identities.ReconcileAgain
import AiSwitcher.Identities.Pool.LimitChoice
import AiSwitcher.Gateway.Proxy.Holds
import AiSwitcher.Library.JsonText
import AiSwitcher.Library.JsonParsing
import AiSwitcher.Library.Utf8Ascii
import AiSwitcher.Gateway.ModelScan
import AiSwitcher.Library.JsonWriting
import AiSwitcher.Host.Protocol
import AiSwitcher.Host.Framing
import AiSwitcher.Host.BootMenu
import AiSwitcher.Host.BootMenuStable
import AiSwitcher.Host.Helper
import AiSwitcher.Sync.PrefixCache
import AiSwitcher.Sync.PrefixTransparent
import AiSwitcher.Shared.LocalSpend
import AiSwitcher.Shared.LocalSpendListing
import AiSwitcher.Library.CodeUnits
import AiSwitcher.Shared.LocalSpendAsync
import AiSwitcher.Shared.LocalSpendRefines
import AiSwitcher.Sync.MergeBytes
import AiSwitcher.Host.DeviceRanges
import AiSwitcher.Library.Glob
import AiSwitcher.Sync.TransientPaths
import AiSwitcher.Library.Tally
import AiSwitcher.Usage.PoolCosts
import AiSwitcher.Library.LowerCase
import AiSwitcher.Shared.SpendValue
import AiSwitcher.Host.Descriptors
import AiSwitcher.Library.Grouping
import AiSwitcher.Usage.Aggregate
import AiSwitcher.Usage.AggregateTotals
import AiSwitcher.Usage.AggregateAgain
import AiSwitcher.Library.Calendar
import AiSwitcher.Spend.BudgetPeriods
import AiSwitcher.Library.Numerals
import AiSwitcher.Server.PeerUid
import AiSwitcher.Server.PeerUidExact
import AiSwitcher.Live.PathClasses
import AiSwitcher.Live.Bundle
import AiSwitcher.Live.BundleReads
import AiSwitcher.Host.Confirmations
import AiSwitcher.Host.WriteImageSucceeds
import AiSwitcher.Live.OpenedInbox
