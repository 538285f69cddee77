import NanoDelta.DecisionsPostgres
import NanoDelta.Runtime.PaperDecision

/-!
# The continuous paper session

`runtime/paper_session.py`: every set of settled NSE rows is one cycle, claimed under a
lease, processed, and completed or failed. A cycle that failed, or whose lease ran out
because its worker died, is claimed again.

`processOne` is one attempt at a cycle, over a state `Ω` that the session store and the
decision service share. An attempt takes the time up to three times; these readings are a
parameter, and so is the token that `uuid4` gives it. A worker that is killed raises
`PyError.killed`, which no handler sees.
-/

namespace NanoDelta.Runtime

open Library Decisions Paper Orchestration

/-! ### Records -/

/-- `PaperSessionClaimState`. -/
inductive PaperSessionClaimState where
  | claimed
  | completed
  | busy
  deriving DecidableEq

/-- `PaperSessionClaim`. -/
structure PaperSessionClaim where
  state : PaperSessionClaimState
  sessionCycleId : String
  evaluatedAt : Instant
  claimToken : Option String := none
  priorResult : Option PaperDecisionResult := none
  deriving DecidableEq

/-- `PaperSessionRun`. -/
structure PaperSessionRun where
  sessionCycleId : String
  state : PaperSessionClaimState
  decision : Option PaperDecisionResult
  deriving DecidableEq

/-- `PaperSessionStore`, without the query for cycles to retry. -/
structure PaperSessionStore (Ω : Type) where
  claim : String → List String → Instant → Instant → EStateM PyError Ω PaperSessionClaim
  reconcileExitPlans : String → EStateM PyError Ω ℕ
  complete : PaperSessionClaim → PaperDecisionResult → Instant → EStateM PyError Ω Unit
  fail : PaperSessionClaim → Instant → String → EStateM PyError Ω Unit

/-- The readings of the clock in one attempt. -/
structure SessionClock where
  /-- Before the claim. -/
  claimed : DateTime
  /-- Before the completion. -/
  completed : DateTime
  /-- In the handler. -/
  failed : DateTime

/-- `ContinuousNsePaperSession`. -/
structure ContinuousNsePaperSession (Ω : Type) where
  processor : PaperDecisionService Ω
  store : PaperSessionStore Ω
  accountId : String

/-! ### An attempt -/

/-- `max(times)`. -/
def latest : List Instant → Except PyError Instant
  | [] => .error (.valueError "max() arg is an empty sequence")
  | t :: ts => .ok (ts.foldl max t)

/-- The sorted record ids of the rows. -/
def recordIdsOf (features : List FeatureRecord) : List String :=
  (features.map FeatureRecord.recordId).insertionSort (· ≤ ·)

/-- The id of the cycle of the rows. -/
def sessionCycleIdOf (host : Host) (accountId : String) (features : List FeatureRecord) : String :=
  stableId host ["continuous-nse-paper-session", accountId, reprTuple ((recordIdsOf features).map host.reprStr)]

section Session

variable (host : Host) {Ω : Type} (self : ContinuousNsePaperSession Ω) (clock : SessionClock)

/-- The `try` block of `_process_one`. -/
def work (features : List FeatureRecord) (claim : PaperSessionClaim) : EStateM PyError Ω PaperSessionRun := do
  let _ ← self.store.reconcileExitPlans self.accountId
  let decision ← self.processor.process host features (.aware claim.evaluatedAt)
  match decision with
  | none => throw (.runtimeError "non-empty NSE features produced no paper decision result")
  | some decision => do
    let completedAt ← Effect.ofExcept (utc clock.completed "clock")
    self.store.complete claim decision completedAt
    return ⟨claim.sessionCycleId, claim.state, some decision⟩

/-- The `except` block of `_process_one`. -/
def recover (claim : PaperSessionClaim) (e : PyError) : EStateM PyError Ω PaperSessionRun :=
  if e = .killed then throw e
  else do
    let failedAt ← Effect.ofExcept (utc clock.failed "clock")
    self.store.fail claim failedAt e.typeName
    throw e

/-- `_process_one`. -/
def ContinuousNsePaperSession.processOne (features : List FeatureRecord) : EStateM PyError Ω PaperSessionRun := do
  let times ← Effect.each (fun feature => Effect.ofExcept (utc feature.eventTime "feature.event_time")) features
  let eventTime ← Effect.ofExcept (latest times)
  let now ← Effect.ofExcept (utc clock.claimed "clock")
  let claim ← self.store.claim (sessionCycleIdOf host self.accountId features) (recordIdsOf features) eventTime now
  match claim.state with
  | .completed => return ⟨claim.sessionCycleId, claim.state, claim.priorResult⟩
  | .busy => return ⟨claim.sessionCycleId, claim.state, none⟩
  | .claimed => tryCatch (work host self clock features claim) (recover self clock claim)

end Session

/-! ### The table of cycles -/

/-- The state of a cycle. -/
inductive SessionCycleState where
  | pending
  | running
  | completed
  | failed
  deriving DecidableEq

/-- A row of `control.paper_session_cycles`. -/
structure SessionCycleRow where
  sessionCycleId : String
  featureRecordIds : List String
  eventTime : Instant
  evaluatedAt : Instant
  state : SessionCycleState
  claimToken : Option String := none
  lockedUntil : Option Instant := none
  attemptCount : ℕ := 0
  decisionCycleId : Option String := none
  cycleMode : Option CycleMode := none
  candidateCount : ℕ := 0
  allocationCount : ℕ := 0
  riskDecisionCount : ℕ := 0
  orderCount : ℕ := 0
  exitCount : ℕ := 0
  lastErrorType : Option String := none
  deriving DecidableEq

/-- The cycle is running under a lease. -/
def SessionCycleRow.leased (row : SessionCycleRow) (t : Instant) : Prop :=
  row.state = .running ∧ ∃ lockedUntil ∈ row.lockedUntil, t < lockedUntil

instance (row : SessionCycleRow) (t : Instant) : Decidable (row.leased t) := by
  unfold SessionCycleRow.leased; infer_instance

/-- The row of a cycle that is claimed. -/
def SessionCycleRow.claim (row : SessionCycleRow) (token : String) (lockedUntil : Instant) : SessionCycleRow :=
  { row with
    state := .running, claimToken := some token, lockedUntil := some lockedUntil
    attemptCount := row.attemptCount + 1, lastErrorType := none }

/-- The row is the one that a claim holds. -/
def SessionCycleRow.heldBy (row : SessionCycleRow) (claim : PaperSessionClaim) : Bool :=
  row.sessionCycleId = claim.sessionCycleId && row.state = .running && row.claimToken = claim.claimToken &&
    row.claimToken.isSome

namespace PostgresPaperSessionStore

/-- `_result_from_row`. -/
def resultFromRow (row : SessionCycleRow) : Except PyError (Option PaperDecisionResult) :=
  match row.decisionCycleId, row.cycleMode with
  | none, _ => .ok none
  | some _, none => .error (.valueError "None is not a valid CycleMode")
  | some cycleId, some mode => .ok (some ⟨.nse, cycleId, mode, row.candidateCount, row.allocationCount,
      row.riskDecisionCount, row.orderCount, row.exitCount⟩)

/-- `claim`, once the row is there. -/
def claimRow (lease : ℤ) (token : String) (claimedAt : Instant) (row : SessionCycleRow)
    (rows : List SessionCycleRow) : Except PyError (PaperSessionClaim × List SessionCycleRow) :=
  if row.state = .completed then do
    let prior ← resultFromRow row
    return (⟨.completed, row.sessionCycleId, row.evaluatedAt, none, prior⟩, rows)
  else if row.leased claimedAt then
    .ok (⟨.busy, row.sessionCycleId, row.evaluatedAt, none, none⟩, rows)
  else .ok (⟨.claimed, row.sessionCycleId, row.evaluatedAt, some token, none⟩,
    rows.map fun r =>
      if r.sessionCycleId = row.sessionCycleId then r.claim token (claimedAt + lease) else r)

/-- `PostgresPaperSessionStore.claim`. -/
def claim (lease : ℤ) (token sessionCycleId : String) (featureRecordIds : List String) (eventTime claimedAt : Instant)
    (rows : List SessionCycleRow) : Except PyError (PaperSessionClaim × List SessionCycleRow) :=
  let rows := Table.insertNew (fun r => r.sessionCycleId = sessionCycleId)
    { sessionCycleId, featureRecordIds, eventTime, evaluatedAt := claimedAt, state := .pending } rows
  match rows.find? fun r => r.sessionCycleId = sessionCycleId with
  | none => .error (.runtimeError "paper session cycle disappeared while claiming it")
  | some row => claimRow lease token claimedAt row rows

/-- `PostgresPaperSessionStore.complete`. -/
def complete (claim : PaperSessionClaim) (result : PaperDecisionResult) (rows : List SessionCycleRow) :
    Except PyError (List SessionCycleRow) :=
  if (rows.countP fun r => r.heldBy claim) ≠ 1 then
    .error (.runtimeError "paper session claim was lost before completion")
  else .ok (rows.map fun r =>
    if r.heldBy claim then
      { r with
        state := .completed, lockedUntil := none, decisionCycleId := some result.cycleId
        cycleMode := some result.mode, candidateCount := result.candidateCount
        allocationCount := result.allocationCount, riskDecisionCount := result.riskDecisionCount
        orderCount := result.orderCount, exitCount := result.exitCount }
    else r)

/-- `PostgresPaperSessionStore.fail`. -/
def fail (claim : PaperSessionClaim) (errorType : String) (rows : List SessionCycleRow) : List SessionCycleRow :=
  rows.map fun r =>
    if r.heldBy claim then
      { r with
        state := .failed, lockedUntil := none, lastErrorType := some (String.ofList (errorType.toList.take 200)) }
    else r

/-! ### Exit plans of positions without one -/

/-- The candidates behind a position, with the decisions that link them to it, in the order of these. -/
def lineageOf (control : ControlTables) (p : PositionRow) (db : Database) :
    List (DecisionRow × SignalCandidate) :=
  ((p.decisionIds.flatMap fun decisionId => db.decisions.filter fun d => d.decisionId = decisionId).flatMap fun d =>
    (control.signalCandidates.filter fun c => c.candidateId = d.candidateId).map fun c =>
      (d, c)).insertionSort fun a b =>
        a.1.evaluatedAt < b.1.evaluatedAt ||
          (a.1.evaluatedAt = b.1.evaluatedAt && a.1.decisionId ≤ b.1.decisionId)

/-- The plan that `reconcile_exit_plans` makes for a position from the first candidate behind it. -/
def recoveredPlan (p : PositionRow) (c : SignalCandidate) : Except PyError ExitPlanRow :=
  let allocatedCapital := |p.signedQuantity| * p.averageEntryPrice + p.totalFees
  if h : 0 < allocatedCapital then .ok
    { positionId := p.positionId
      market := p.market
      accountId := p.accountId
      symbol := p.symbol
      entryAction := if 0 < p.signedQuantity then "BUY" else "SELL"
      quantity := |p.signedQuantity|
      stopPrice := c.stopPrice
      targetPrice := c.targetPrice
      allocatedCapital := allocatedCapital
      candidateId := c.candidateId
      approvalId := c.approvalId
      strategyKey := c.strategyKey
      goldSnapshotIds := p.goldSnapshotIds
      createdAt := p.openedAt
      capital_pos := h }
  else .error integrityError

/-- The positions that `reconcile_exit_plans` looks at: open, and without a plan. -/
def unplanned (accountId : String) (db : Database) : List PositionRow :=
  db.positions.filter fun p => p.market = "nse" ∧ p.accountId = accountId ∧ p.state = "OPEN" ∧
    ∀ x ∈ db.exitPlans, x.positionId ≠ p.positionId

/-- `PostgresPaperSessionStore.reconcile_exit_plans`: the database with the plans, and how many there are. -/
def reconcileExitPlans (accountId : String) (control : ControlTables) (db : Database) :
    Except PyError (ℕ × Database) := do
  let plans ← (unplanned accountId db).filterMapM fun p =>
    match lineageOf control p db with
    | [] => .ok none
    | (_, c) :: _ => some <$> recoveredPlan p c
  let db ← plans.foldlM (fun db row => PostgresLifecycleStore.insertPlan row db) db
  return (plans.length, db)

end PostgresPaperSessionStore

end NanoDelta.Runtime
