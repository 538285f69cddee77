import NanoDelta.Library.Dict
import NanoDelta.Library.Effect
import NanoDelta.Library.Machine
import NanoDelta.Library.AverageCost
import NanoDelta.Risk.PostTrade
import NanoDelta.Paper.Execution
import NanoDelta.Paper.Accounting
import NanoDelta.Library.Table
import NanoDelta.Paper.Database
import NanoDelta.Paper.Postgres
import NanoDelta.Paper.Ledger
import NanoDelta.Library.Text
import NanoDelta.Paper.Book
import NanoDelta.Paper.Instances
import NanoDelta.Paper.Realization
import NanoDelta.Decisions
import NanoDelta.Orchestration.DecisionPipeline
import NanoDelta.Orchestration.Allocation
import NanoDelta.Orchestration.Portfolio
import NanoDelta.Orchestration.PaperBatch
import NanoDelta.Outcomes.Learning
import NanoDelta.Paper.Lifecycle
import NanoDelta.Runtime.PaperDecision
import NanoDelta.Runtime.PaperSession
import NanoDelta.Orchestration.Provenance
import NanoDelta.Paper.EntryOrders
import NanoDelta.Runtime.PaperWorker
import NanoDelta.Runtime.PaperAttempt
import NanoDelta.Runtime.PaperReplay
import NanoDelta.Runtime.PaperClaims
import NanoDelta.Runtime.AccountLimits
import NanoDelta.Paper.ProtectiveExits
import NanoDelta.Markets.Adapters
import NanoDelta.History.Timeframes
import NanoDelta.Providers.Dhan
import NanoDelta.History.HalfHours
import NanoDelta.Pipeline
import NanoDelta.History.Engine
import NanoDelta.History.Stored
import NanoDelta.Features
import NanoDelta.Runtime.Realtime
import NanoDelta.Strategies.SymbolRegime
import NanoDelta.Runtime.TechnicalContext
import NanoDelta.Orchestration.Steady
import NanoDelta.Runtime.LateCycles
import NanoDelta.Strategies.Validation
import NanoDelta.Validation.Nse
import NanoDelta.Validation.Agreement
import NanoDelta.Decisions.Ledgers
import NanoDelta.Runtime.MemorySession
import NanoDelta.Library.Causal
import NanoDelta.Strategies.Causality
import NanoDelta.Library.Script
import NanoDelta.Orchestration.Scripts
import NanoDelta.Orchestration.Permuted
import NanoDelta.Orchestration.Review
import NanoDelta.Library.Sieve
import NanoDelta.Orchestration.Trail
import NanoDelta.Library.Paired
import NanoDelta.Paper.RejectedExits
import NanoDelta.Paper.ClosingOutcome
import NanoDelta.Validation.CandleWindow
import NanoDelta.Validation.Evidence
import NanoDelta.Strategies.Postgres
import NanoDelta.Strategies.Replicas
import NanoDelta.Strategies.Approvals
import NanoDelta.Isoformat
import NanoDelta.Validation.RunIds
import NanoDelta.History.Postgres
import NanoDelta.History.Watermarks
import NanoDelta.History.Incremental
import NanoDelta.Runtime.Failover
import NanoDelta.Runtime.Hysteresis
import NanoDelta.Runtime.Staleness
import NanoDelta.Runtime.Slices
import NanoDelta.Runtime.Restarts
import NanoDelta.Finops.Budgets
import NanoDelta.Library.Greedy
import NanoDelta.Library.Budget
import NanoDelta.Finops.Core
import NanoDelta.Library.FirstWrites
import NanoDelta.Storage
import NanoDelta.Library.Locks
import NanoDelta.Operations.Controller
import NanoDelta.Security
import NanoDelta.Security.Passwords
import NanoDelta.Runtime.Supervisor
import NanoDelta.Operations.Postgres
import NanoDelta.Operations.Transitions
import NanoDelta.Runtime.Control
import NanoDelta.Runtime.CommandOutcomes
import NanoDelta.Runtime.CommandOrder
import NanoDelta.Providers.DhanAuth
import NanoDelta.Providers.DhanTokens
import NanoDelta.GoldRows
import NanoDelta.Orchestration.Conflicts
import NanoDelta.Strategies.Signals
import NanoDelta.Library.Windows
import NanoDelta.Runtime.Bars
import NanoDelta.Readers
import NanoDelta.Runtime.BarPayloads
import NanoDelta.Runtime.Rollup
import NanoDelta.Library.Tiles
import NanoDelta.History.Downloads
import NanoDelta.Library.MaximalRuns
import NanoDelta.History.Repairs
import NanoDelta.Providers.Quarters
import NanoDelta.Strategies.Supertrend
import NanoDelta.Library.Blocks
import NanoDelta.Validation.Windows
import NanoDelta.Strategies.Evaluation
import NanoDelta.Library.Falls
import NanoDelta.Validation.Metrics
import NanoDelta.Operations.WorkerCalls
import NanoDelta.Library.Lockout
import NanoDelta.Security.Lockout
import NanoDelta.Library.Tickets
import NanoDelta.Finops.InFlight
import NanoDelta.Finops.Qwen
import NanoDelta.Runtime.Correlation
import NanoDelta.Library.Averages
import NanoDelta.Strategies.IndicatorBounds
import NanoDelta.Strategies.Divisions
import NanoDelta.Universe.Resolution
import NanoDelta.Strategies.Keys
import NanoDelta.Library.Registers
import NanoDelta.Runtime.Regime
import NanoDelta.Library.Grants
import NanoDelta.Library.Wire
import NanoDelta.Persistence.Migrations
import NanoDelta.Providers.DhanPackets
import NanoDelta.Runtime.SharedCaches
import NanoDelta.Security.Access
import NanoDelta.Strategies.Admission
import NanoDelta.Validation.Promotions
