import So4Oracle.Library.Requests
import So4Oracle.Library.Safety
import So4Oracle.Library.Records
import So4Oracle.Library.Protocol
import So4Oracle.Library.Threads
import So4Oracle.Library.Tasks
import So4Oracle.Library.Journals
import So4Oracle.Library.Budgets
import So4Oracle.Library.Strategies
import So4Oracle.Library.Checked
import So4Oracle.Library.Floats
import So4Oracle.Library.Windows
import So4Oracle.Library.FixedWindow
import So4Oracle.Library.Lockout
import So4Oracle.Library.Tallies
import So4Oracle.Library.Recent
import So4Oracle.Library.Exposition
import So4Oracle.Library.Cyclic
import So4Oracle.Library.Breaker
import So4Oracle.Library.BigEndian
import So4Oracle.Library.Hex
import So4Oracle.Library.Decimals
import So4Oracle.Library.Escapes
import So4Oracle.Library.Registry
import So4Oracle.Library.Collecting
import So4Oracle.RustText
import So4Oracle.DecimalText
import So4Oracle.Wire
import So4Oracle.Signing
import So4Oracle.Retry
import So4Oracle.StellarRpc
import So4Oracle.XlmBalance
import So4Oracle.Submit
import So4Oracle.SubmitOutcome
import So4Oracle.LogTruncation
import So4Oracle.Prices
import So4Oracle.Cluster
import So4Oracle.Aggregate
import So4Oracle.MajorityBound
import So4Oracle.ClusterOptimal
import So4Oracle.Observations
import So4Oracle.SourceAccounts
import So4Oracle.DeviationBound
import So4Oracle.Config
import So4Oracle.PendingKeys
import So4Oracle.PendingRotation
import So4Oracle.StartIndex
import So4Oracle.State
import So4Oracle.Admin
import So4Oracle.AdminAuth
import So4Oracle.AdminRequests
import So4Oracle.AdminLockout
import So4Oracle.Chain
import So4Oracle.Handler
import So4Oracle.FailureEvents
import So4Oracle.Keeper
import So4Oracle.MoveThreshold
import So4Oracle.KeeperRuns
import So4Oracle.KeeperRequests
import So4Oracle.KeeperScript
import So4Oracle.KeeperGates
import So4Oracle.StatusSnapshot
import So4Oracle.SnapshotTearing
import So4Oracle.ExecutionCounts
import So4Oracle.KeeperLoop
import So4Oracle.IdleBackoff
import So4Oracle.InFlight
import So4Oracle.SequenceCache
import So4Oracle.Sources
import So4Oracle.PriceCycle
import So4Oracle.SignedPrices
import So4Oracle.PriceScript
import So4Oracle.CycleOutcome
import So4Oracle.CacheFreshness
import So4Oracle.Receipts
import So4Oracle.PythFreshness
import So4Oracle.BatchAge
import So4Oracle.Baseline
import So4Oracle.KeeperGuard
import So4Oracle.GuardModes
import So4Oracle.GuardScript
import So4Oracle.Blacklist
import So4Oracle.FailureBounds
import So4Oracle.FreshBudget
import So4Oracle.ResidualTally
import So4Oracle.PositiveMin
import So4Oracle.PriceOverflow
import So4Oracle.MiddlePrices
import So4Oracle.ConfidenceBand
import So4Oracle.OutlierRule
import So4Oracle.OutlierSurvival
import So4Oracle.OutlierGaps
import So4Oracle.OutlierIdempotence
import So4Oracle.Upstream
import So4Oracle.DecimalPrices
import So4Oracle.CycleInputs
import So4Oracle.Isolation
import So4Oracle.TokenTally
import So4Oracle.LookupKeys
import So4Oracle.MetricsState
import So4Oracle.HttpMetrics
import So4Oracle.MetricsText
import So4Oracle.MetricsRoundTrip
import So4Oracle.HttpInFlight
import So4Oracle.KeeperBalance
import So4Oracle.BalanceAlerts
import So4Oracle.Ready
import So4Oracle.ReadyRuns
import So4Oracle.ReadyLock
import So4Oracle.Readiness
import So4Oracle.Environment
import So4Oracle.EnvChecks
import So4Oracle.EnvFaults
import So4Oracle.EnvRange
import So4Oracle.SubmittedPrices
import So4Oracle.Coinbase
import So4Oracle.AdminReports
import So4Oracle.Simulation
