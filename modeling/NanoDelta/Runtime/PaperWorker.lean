import NanoDelta.Paper.EntryOrders
import NanoDelta.Runtime.PaperSession

/-!
# Workers on one store

The continuous paper session as it is composed (`runtime/realtime_config.py`): the session
store, the decision ledger, the exit plans and the paper engine of a worker, all on one
database. The engine and the outcome recorder of a worker are in its memory.

An attempt makes one transaction after the other. Any of them may fail, or the worker may be
killed before it: `Outage` says, for each transaction of the attempt by its number, which
statements fail and how. A transaction that fails changes nothing. A worker that is killed
starts again with an empty memory.

The machine `session` makes the attempts one after the other: any worker, with any settings,
at any rows. A call of `process` makes one attempt at the new rows and then one at each cycle
to retry, so it is a run of this machine.
-/

namespace NanoDelta.Runtime

open Library Strategies Decisions Risk Outcomes Paper Orchestration

/-! ### State -/

/-- What an attempt works on. -/
structure Worker where
  /-- The paper tables. -/
  paper : Database
  /-- The candidates and the stage decisions. -/
  control : ControlTables
  /-- The session cycles. -/
  cycles : List SessionCycleRow
  /-- The cache of the paper engine. -/
  engine : PaperExecutionEngine
  /-- The outcomes that the lifecycle has recorded. -/
  outcomes : OutcomeRecorder
  /-- How many transactions the attempt has begun. -/
  transactions : ℕ

/-- Which statements fail, transaction by transaction. -/
abbrev Outage := ℕ → Postgres.Faults

/-- An attempt in which nothing fails. -/
def Outage.none : Outage := fun _ => Postgres.Faults.none

/-- The worker is killed before its `n`-th transaction. -/
def Outage.killedAt (n : ℕ) : Outage := fun m _ => if m = n then some .killed else .none

/-- What a worker is configured with, and what it reads besides its tables. -/
structure Settings where
  registry : StrategyRegistry
  strategies : StrategyRuntimeCatalog
  allocation : AllocationPolicy
  limits : RiskLimits
  execution : ExecutionPolicy
  equity : ℚ
  maxAgeSeconds : ℚ
  llmMode : LlmReviewMode
  reviewer : Option CandidateReviewer
  reviewer_given : llmMode ≠ .off → reviewer.isSome = true
  data : MarketData
  /-- The lease of a claim. -/
  lease : ℤ

/-! ### Transactions -/

section Transactions

variable (host : Host) (account : String) (settings : Settings) (outage : Outage)

/-- A transaction: it is committed as a whole, or it changes nothing. -/
def transaction {α : Type} (body : Worker → Except PyError (α × Worker)) : EStateM PyError Worker α := fun s =>
  let begun : Worker := { s with transactions := s.transactions + 1 }
  match outage s.transactions 0 with
  | some e => .error e begun
  | none =>
    match body begun with
    | .ok (a, s') => .ok a s'
    | .error e => .error e begun

/-- A transaction that reads the paper tables. -/
def readPaper {α : Type} (query : Database → Except PyError α) : EStateM PyError Worker α :=
  transaction outage fun s => (query s.paper).map fun a => (a, s)

/-- A transaction that writes the paper tables. -/
def writePaper {α : Type} (update : Worker → Except PyError (α × Database)) : EStateM PyError Worker α :=
  transaction outage fun s => (update s).map fun (a, paper) => (a, { s with paper })

/-- What a program on the control tables commits. -/
def committed : EStateM.Result PyError ControlTables Unit → Except PyError ControlTables
  | .ok _ control => .ok control
  | .error e _ => .error e

/-- A transaction of the decision ledger. -/
def onControl (x : EStateM PyError ControlTables Unit) : EStateM PyError Worker Unit :=
  transaction outage fun s => (committed (x s.control)).map fun control => ((), { s with control })

/-- A transaction on the cycles. -/
def onCycles {α : Type} (x : List SessionCycleRow → Except PyError (α × List SessionCycleRow)) :
    EStateM PyError Worker α :=
  transaction outage fun s => (x s.cycles).map fun (a, cycles) => (a, { s with cycles })

/-- A call of the paper engine. -/
def onEngine {α : Type} (call : Postgres.Faults → EStateM PyError Postgres.Session α) : EStateM PyError Worker α :=
  fun s => Effect.focus (fun s : Worker => Postgres.Store.session ⟨s.paper, s.engine⟩)
    (fun s t => { s with paper := t.committed, engine := t.memory, transactions := s.transactions + 1 })
    (call (outage s.transactions)) s

/-! ### The parts of a worker -/

/-- `PostgresDecisionLedger`. -/
def decisionLedger : DecisionLedger Worker where
  appendCandidate candidate decision := onControl outage (PostgresDecisionLedger.appendCandidate candidate decision)
  append decision := onControl outage (PostgresDecisionLedger.append decision)

/-- A transaction of the exit plans. -/
def onPlans (update : Database → Except PyError Database) : EStateM PyError Worker Unit :=
  writePaper outage fun s => (update s.paper).map fun paper => ((), paper)

/-- `PostgresLifecycleStore`. -/
def lifecycleStore : LifecycleStore Worker where
  savePlan plan := onPlans outage (PostgresLifecycleStore.savePlan host plan)
  active market accountId := do
    onPlans outage fun db => .ok (PostgresLifecycleStore.closeFinished db)
    readPaper outage (PostgresLifecycleStore.loadActive market accountId)
  saveOutcome outcome reason := onPlans outage (PostgresLifecycleStore.saveOutcome host outcome reason)

/-- `PaperPositionLifecycle`, with its recorder in the memory of the worker. -/
def lifecycle : PaperPositionLifecycle Worker where
  store := lifecycleStore host outage
  execute decision key executedAt :=
    onEngine outage fun faults => Postgres.execute host settings.execution faults decision key executedAt
  limits := settings.limits
  ledger := decisionLedger outage
  record position identity allocatedCapital recordedAt :=
    Effect.focus Worker.outcomes (fun s outcomes => { s with outcomes })
      (Outcomes.record host position identity allocatedCapital recordedAt)

/-- `PaperDecisionService`. -/
def decisionService : PaperDecisionService Worker where
  pipeline :=
    { registry := settings.registry
      strategies := settings.strategies
      ledger := decisionLedger outage
      policy := settings.allocation
      llmMode := settings.llmMode
      reviewer := settings.reviewer
      positionManager := none
      reviewer_given := settings.reviewer_given }
  batch :=
    { registry := settings.registry
      limits := settings.limits
      executeBatch := fun decisions batchId executedAt =>
        onEngine outage fun faults =>
          Postgres.executeBatch host settings.execution faults decisions batchId executedAt
      ledger := decisionLedger outage }
  lifecycle := some (lifecycle host settings outage)
  portfolio market marks now :=
    readPaper outage (buildPortfolioSnapshot host market account settings.equity marks now)
  data := settings.data
  accountId := account
  maxAgeSeconds := settings.maxAgeSeconds

/-- `PostgresPaperSessionStore`. -/
def sessionStore (token : String) : PaperSessionStore Worker where
  claim sessionCycleId featureRecordIds eventTime claimedAt := onCycles outage
    (PostgresPaperSessionStore.claim settings.lease token sessionCycleId featureRecordIds eventTime claimedAt)
  reconcileExitPlans accountId := writePaper outage fun s =>
    PostgresPaperSessionStore.reconcileExitPlans accountId s.control s.paper
  complete claim result _ := onCycles outage fun rows =>
    (PostgresPaperSessionStore.complete claim result rows).map fun rows => ((), rows)
  fail claim _ errorType := onCycles outage fun rows =>
    .ok ((), PostgresPaperSessionStore.fail claim errorType rows)

/-- `ContinuousNsePaperSession`. -/
def paperSession (token : String) : ContinuousNsePaperSession Worker where
  processor := decisionService host account settings outage
  store := sessionStore settings outage token
  accountId := account

end Transactions

/-! ### Runs -/

/-- What a worker keeps in memory between its attempts. -/
structure WorkerMemory where
  engine : PaperExecutionEngine
  outcomes : OutcomeRecorder

/-- The memory of a worker that has just started. -/
def WorkerMemory.new : WorkerMemory := ⟨.new, .empty⟩

/-- The store, and the memory of each worker. -/
structure SessionWorld where
  paper : Database
  control : ControlTables
  cycles : List SessionCycleRow
  workers : ℕ → WorkerMemory

/-- An attempt at a cycle. -/
structure SessionAttempt where
  /-- The worker. -/
  worker : ℕ
  settings : Settings
  features : List FeatureRecord
  clock : SessionClock
  /-- What `uuid4` gives. -/
  token : String
  outage : Outage
  /-- `process` refuses rows of other markets, and the rows to retry are of NSE. -/
  nse : ∀ feature ∈ features, feature.market = .nse

/-- What can happen to the store and its workers. -/
inductive SessionInput where
  /-- An attempt at a cycle. -/
  | attempt (a : SessionAttempt)
  /-- A worker is started again. -/
  | restart (worker : ℕ)
  /-- Other parts of the program write their tables. -/
  | others (tables : Postgres.Others) (strategyDefinitions : List StrategyRow)

/-- What an attempt starts from. -/
def SessionWorld.start (w : SessionWorld) (worker : ℕ) : Worker :=
  ⟨w.paper, w.control, w.cycles, (w.workers worker).engine, (w.workers worker).outcomes, 0⟩

/-- The program of an attempt. -/
def SessionAttempt.program (host : Host) (account : String) (a : SessionAttempt) :
    EStateM PyError Worker PaperSessionRun :=
  (paperSession host account a.settings a.outage a.token).processOne host a.clock a.features

/-- The memory that an attempt leaves. -/
def memoryAfter : EStateM.Result PyError Worker PaperSessionRun → WorkerMemory
  | .ok _ s => ⟨s.engine, s.outcomes⟩
  | .error e s => if e = .killed then .new else ⟨s.engine, s.outcomes⟩

/-- The session of an account, as a machine. -/
def session (host : Host) (account : String) : Machine SessionWorld SessionInput (Except PyError Unit) where
  step w
    | .attempt a =>
      let result := a.program host account (w.start a.worker)
      let s := Effect.final result
      (⟨s.paper, s.control, s.cycles, Function.update w.workers a.worker (memoryAfter result)⟩,
        (outcome result).map fun _ => ())
    | .restart worker => ({ w with workers := Function.update w.workers worker .new }, .ok ())
    | .others tables strategyDefinitions =>
      ({ w with paper := { tables.into w.paper with strategyDefinitions } }, .ok ())

/-- Empty paper tables, no cycle and no worker used yet. -/
def SessionWorld.initial (tables : Postgres.Others) (strategyDefinitions : List StrategyRow) : SessionWorld :=
  ⟨{ tables.initial with strategyDefinitions }, {}, [], fun _ => .new⟩

end NanoDelta.Runtime
