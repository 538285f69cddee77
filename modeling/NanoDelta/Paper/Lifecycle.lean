import NanoDelta.Orchestration.PaperBatch
import NanoDelta.Outcomes.Learning
import NanoDelta.Paper.Database

/-!
# Protective exits

The stop and the target of an open position (`paper/lifecycle.py`), and the tables that
keep them (`paper/lifecycle_postgres.py`). An entry registers a plan for its position;
management looks at every active plan, closes the position when the mark reaches the stop
or the target, and records the outcome.

The lifecycle is over a state `Ω` that its store, the paper engine, its recorder and the
decision ledger share.
-/

namespace NanoDelta.Paper

open Library Strategies Decisions Risk Outcomes Orchestration

/-! ### Records -/

/-- `ExitReason`. -/
inductive ExitReason where
  | stop
  | target
  deriving DecidableEq

/-- `ExitReason.value`. -/
def ExitReason.value : ExitReason → String
  | .stop => "STOP"
  | .target => "TARGET"

/-- `ExitPlan`. -/
structure ExitPlan where
  positionId : String
  market : Market
  accountId : String
  symbol : String
  entryAction : AdvisoryAction
  quantity : ℚ
  stopPrice : ℚ
  targetPrice : ℚ
  allocatedCapital : ℚ
  candidateId : String
  approvalId : String
  identity : StrategyIdentity
  goldSnapshotIds : List String
  createdAt : Instant
  deriving DecidableEq

/-- `LifecycleStore`. -/
structure LifecycleStore (Ω : Type) where
  savePlan : ExitPlan → EStateM PyError Ω Unit
  active : Market → String → EStateM PyError Ω (List ExitPlan)
  saveOutcome : Outcome → ExitReason → EStateM PyError Ω Unit

/-- `PaperPositionLifecycle`. -/
structure PaperPositionLifecycle (Ω : Type) where
  store : LifecycleStore Ω
  /-- `execute` of the paper engine. -/
  execute : RiskDecision → String → DateTime → EStateM PyError Ω ExecutionReceipt
  /-- The limits of the risk engine. -/
  limits : RiskLimits
  ledger : DecisionLedger Ω
  /-- `record` of its outcome recorder. -/
  record : PaperPosition → StrategyIdentity → ℚ → DateTime → EStateM PyError Ω Outcome

/-! ### The lifecycle -/

/-- `_trigger`. -/
def trigger (plan : ExitPlan) (mark : ℚ) : Option ExitReason :=
  if plan.entryAction = .buy then
    if mark ≤ plan.stopPrice then some .stop
    else if plan.targetPrice ≤ mark then some .target
    else none
  else
    if plan.stopPrice ≤ mark then some .stop
    else if mark ≤ plan.targetPrice then some .target
    else none

/-- The action that closes a position. -/
def closingAction (entryAction : AdvisoryAction) : AdvisoryAction := if entryAction = .buy then .sell else .buy

/-- The idempotency key of a protective exit. -/
def exitKey (plan : ExitPlan) (reason : ExitReason) : String := "exit:" ++ plan.positionId ++ ":" ++ reason.value

/-- The plan of the position that an entry opened. -/
def planOf (allocation : PortfolioAllocation) (receipt : ExecutionReceipt) : ExitPlan :=
  let candidate := allocation.candidate.candidate
  { positionId := receipt.position.positionId
    market := receipt.position.market
    accountId := receipt.position.accountId
    symbol := receipt.position.symbol
    entryAction := candidate.signal.action
    quantity := receipt.fill.quantity
    stopPrice := allocation.stopPrice
    targetPrice := allocation.targetPrice
    allocatedCapital := receipt.fill.quantity * receipt.fill.price + receipt.fill.fee
    candidateId := candidate.candidateId
    approvalId := candidate.approvalId
    identity := candidate.identity
    goldSnapshotIds := candidate.goldSnapshotIds
    createdAt := receipt.fill.filledAt }

/-- The idempotency key of the exit of a position. -/
def exitKeyOf (positionId : String) (reason : ExitReason) : String := "exit:" ++ positionId ++ ":" ++ reason.value

theorem startsWith_exitKeyOf (positionId : String) (reason : ExitReason) :
    startsWith (exitKeyOf positionId reason) "exit:" = true := by
  unfold startsWith exitKeyOf
  rw [List.isPrefixOf_iff_prefix]
  simp only [String.toList_append, List.append_assoc]
  exact List.prefix_append _ _

/-- The key of an exit tells the position and the reason. -/
theorem exitKeyOf_injective {p p' : String} {reason reason' : ExitReason}
    (h : exitKeyOf p reason = exitKeyOf p' reason') : p = p' ∧ reason = reason' := by
  have hreason : reason = reason' := by
    have hlast := congrArg (fun text : String => text.toList.reverse.head?) h
    cases reason <;> cases reason' <;> simp [exitKeyOf, ExitReason.value] at hlast ⊢
  subst hreason
  unfold exitKeyOf at h
  rw [String.append_left_inj, String.append_left_inj, String.append_right_inj] at h
  exact ⟨h, rfl⟩

section Lifecycle

variable (host : Host) {Ω : Type} (self : PaperPositionLifecycle Ω)

/-- `PaperPositionLifecycle.register`. -/
def PaperPositionLifecycle.register (allocations : List PortfolioAllocation) (receipts : List ExecutionReceipt) :
    EStateM PyError Ω Unit :=
  zipStrict (fun allocation receipt => self.store.savePlan (planOf allocation receipt)) allocations receipts

/-- `_record`. -/
def recordExit (plan : ExitPlan) (reason : ExitReason) (t : Instant) (status : DecisionStatus) (code : String) :
    EStateM PyError Ω Unit := do
  let decision ← Effect.ofExcept
    (Decision.create host (stableId host ["exit-cycle", plan.positionId, reason.value]) plan.market plan.symbol
      (some plan.identity.timeframe) .positionManagement status code (.aware t) (some plan.candidateId)
      (some (plan.identity.key host)) "" [])
  self.ledger.append decision

/-- The intent of a protective exit. -/
def exitIntent (plan : ExitPlan) (reason : ExitReason) (mark : ℚ) (goldSnapshotIds : Dict String String)
    (t : Instant) : Except PyError TradeIntent :=
  let lineage := fromkeys (plan.goldSnapshotIds ++ [(goldSnapshotIds.get? plan.symbol).getD ""])
  TradeIntent.create (stableId host ["protective-exit", plan.positionId, reason.value]) plan.market plan.accountId
    plan.symbol (closingAction plan.entryAction) plan.quantity mark (.aware t) plan.candidateId plan.approvalId
    plan.identity (lineage.filter fun item => item ≠ "") none

variable {host} in
theorem exitIntent_ok {plan : ExitPlan} {reason : ExitReason} {mark : ℚ} {golds : Dict String String} {t : Instant}
    {intent : TradeIntent} (h : exitIntent host plan reason mark golds t = .ok intent) :
    positionKey intent = (plan.market, plan.accountId, plan.symbol) ∧
      intent.action = closingAction plan.entryAction ∧ intent.quantity = plan.quantity ∧
      intent.identity = plan.identity := by
  unfold exitIntent TradeIntent.create at h
  simp only at h
  split_ifs at h
  cases h
  exact ⟨rfl, rfl, rfl, rfl⟩

/-- The part of the loop of `manage` for a plan whose stop or target is reached. -/
def closePlan (portfolio : PortfolioSnapshot) (goldSnapshotIds : Dict String String) (t : Instant) (plan : ExitPlan)
    (mark : ℚ) (reason : ExitReason) : EStateM PyError Ω (Option Outcome) := do
  let intent ← Effect.ofExcept (exitIntent host plan reason mark goldSnapshotIds t)
  let decision ← Effect.ofExcept (evaluateExit host self.limits intent portfolio (.aware t))
  if decision.approved = false then do
    recordExit host self plan reason t .rejected "EXIT_RISK_REJECTED"
    return none
  else do
    let receipt ← self.execute decision (exitKey plan reason) (.aware t)
    let outcome ← self.record receipt.position plan.identity plan.allocatedCapital (.aware t)
    self.store.saveOutcome outcome reason
    recordExit host self plan reason t .ordered ("PAPER_" ++ reason.value ++ "_EXIT")
    return some outcome

/-- The body of the loop of `manage`. -/
def managePlan (marks : Dict String ℚ) (portfolio : PortfolioSnapshot) (goldSnapshotIds : Dict String String)
    (t : Instant) (plan : ExitPlan) : EStateM PyError Ω (Option Outcome) :=
  match marks.get? plan.symbol with
  | none => pure none
  | some mark =>
    match trigger plan mark with
    | none => pure none
    | some reason => closePlan host self portfolio goldSnapshotIds t plan mark reason

/-- `PaperPositionLifecycle.manage`. -/
def PaperPositionLifecycle.manage (market : Market) (accountId : String) (marks : Dict String ℚ)
    (portfolio : PortfolioSnapshot) (goldSnapshotIds : Dict String String) (evaluatedAt : DateTime) :
    EStateM PyError Ω (List Outcome) := do
  let t ← Effect.ofExcept (utc evaluatedAt "evaluated_at")
  let plans ← self.store.active market accountId
  Effect.collect (managePlan host self marks portfolio goldSnapshotIds t) plans

end Lifecycle

/-! ### The tables -/

namespace PostgresLifecycleStore

/-- The checks of `paper.exit_plans` on a row, without that on the capital. -/
def planChecks (row : ExitPlanRow) : Prop :=
  isMarket row.market ∧ (row.entryAction = "BUY" ∨ row.entryAction = "SELL") ∧ 0 < row.quantity ∧
    0 < row.stopPrice ∧ 0 < row.targetPrice

instance (row : ExitPlanRow) : Decidable (planChecks row) := by unfold planChecks; infer_instance

/-- `INSERT INTO paper.exit_plans … ON CONFLICT (position_id) DO NOTHING`. -/
def insertPlan (row : ExitPlanRow) (db : Database) : Except PyError Database := do
  let exitPlans ← Table.insertOrSkip (planChecks row) (fun r => r.positionId = row.positionId)
    ((∃ p ∈ db.positions, p.positionId = row.positionId) ∧ row.approvalId ∈ db.strategyApprovals ∧
      ∃ d ∈ db.strategyDefinitions, d.strategyKey = row.strategyKey)
    integrityError row db.exitPlans
  return { db with exitPlans }

/-- The row of a plan; the table admits only a positive capital. -/
def planRow (host : Host) (plan : ExitPlan) : Except PyError ExitPlanRow :=
  if h : 0 < plan.allocatedCapital then .ok
    { positionId := plan.positionId
      market := plan.market.value
      accountId := plan.accountId
      symbol := plan.symbol
      entryAction := plan.entryAction.value
      quantity := plan.quantity
      stopPrice := plan.stopPrice
      targetPrice := plan.targetPrice
      allocatedCapital := plan.allocatedCapital
      candidateId := plan.candidateId
      approvalId := plan.approvalId
      strategyKey := plan.identity.key host
      goldSnapshotIds := plan.goldSnapshotIds
      createdAt := plan.createdAt
      capital_pos := h }
  else .error integrityError

/-- `PostgresLifecycleStore.save_plan`. -/
def savePlan (host : Host) (plan : ExitPlan) (db : Database) : Except PyError Database := do
  insertPlan (← planRow host plan) db

/-- The first statement of `active`: plans of closed positions are closed. -/
def closeFinished (db : Database) : Database :=
  { db with
    exitPlans := db.exitPlans.map fun x =>
      match db.positions.find? fun p => p.positionId = x.positionId ∧ x.state = "ACTIVE" ∧ p.state = "CLOSED" with
      | some p => { x with state := "CLOSED", closedAt := p.closedAt }
      | none => x }

/-- The order of the rows that `active` selects. -/
def planLe (a b : ExitPlanRow × StrategyRow) : Bool :=
  a.1.createdAt < b.1.createdAt || (a.1.createdAt = b.1.createdAt && a.1.positionId ≤ b.1.positionId)

/-- The rows that `active` selects: active plans of open positions, with their strategies. -/
def selectActive (market : Market) (accountId : String) (db : Database) : List (ExitPlanRow × StrategyRow) :=
  ((db.exitPlans.filter fun x =>
      x.market = market.value ∧ x.accountId = accountId ∧ x.state = "ACTIVE").flatMap fun x =>
    (db.strategyDefinitions.filter fun d => d.strategyKey = x.strategyKey).flatMap fun d =>
      (db.positions.filter fun p => p.positionId = x.positionId ∧ p.state = "OPEN").map fun _ =>
        (x, d)).insertionSort fun a b => planLe a b

/-- `_from_row`. -/
def fromRow (row : ExitPlanRow × StrategyRow) : Except PyError ExitPlan := do
  let (x, d) := row
  let market ← Market.ofValue x.market
  let identity ← StrategyIdentity.create market d.strategyId d.strategyVersion d.timeframe d.tradeHorizon
    d.featureSetVersion
  let entryAction ← AdvisoryAction.ofValue x.entryAction
  return ⟨x.positionId, market, x.accountId, x.symbol, entryAction, x.quantity, x.stopPrice, x.targetPrice,
    x.allocatedCapital, x.candidateId, x.approvalId, identity, x.goldSnapshotIds, x.createdAt⟩

/-- The second statement of `active`. -/
def loadActive (market : Market) (accountId : String) (db : Database) : Except PyError (List ExitPlan) :=
  (selectActive market accountId db).mapM fromRow

/-- The plans that `active` returns are of the market and of the account asked for. -/
theorem loadActive_mem {market : Market} {accountId : String} {db : Database} {plans : List ExitPlan}
    (h : loadActive market accountId db = .ok plans) :
    ∀ plan ∈ plans, plan.market = market ∧ plan.accountId = accountId := by
  intro plan hplan
  obtain ⟨⟨x, d⟩, hrow, hfrom⟩ := Effect.exists_of_forall₂ (Effect.forall₂_of_mapM h) hplan
  unfold selectActive at hrow
  rw [List.mem_insertionSort] at hrow
  simp only [List.mem_flatMap, List.mem_map, List.mem_filter, decide_eq_true_eq, Prod.mk.injEq] at hrow
  obtain ⟨x', ⟨-, hmarket, haccount, -⟩, d', -, p, -, rfl, rfl⟩ := hrow
  unfold fromRow at hfrom
  obtain ⟨market', hvalue, h₁⟩ := Effect.except_bind_eq_ok.mp hfrom
  obtain ⟨identity, -, h₂⟩ := Effect.except_bind_eq_ok.mp h₁
  obtain ⟨action, -, h₃⟩ := Effect.except_bind_eq_ok.mp h₂
  cases h₃
  rw [hmarket, Market.ofValue_value] at hvalue
  cases hvalue
  exact ⟨rfl, haccount⟩

/-- The row of an outcome. -/
def rowOf (host : Host) (outcome : Outcome) : OutcomeRow :=
  ⟨outcome.outcomeId, outcome.positionId, outcome.market.value, outcome.accountId, outcome.symbol,
    outcome.strategyIdentity.key host, outcome.openedAt, outcome.closedAt, outcome.grossPnl, outcome.totalFees,
    outcome.netPnl, outcome.returnOnAllocatedCapital, outcome.decisionIds, outcome.approvalIds,
    outcome.goldSnapshotIds, outcome.agentEvidenceIds, outcome.recordedAt⟩

/-- `PostgresLifecycleStore.save_outcome`. -/
def saveOutcome (host : Host) (outcome : Outcome) (reason : ExitReason) (db : Database) :
    Except PyError Database := do
  let row := rowOf host outcome
  let outcomes ← Table.insertOrSkip (isMarket row.market ∧ 0 ≤ row.totalFees)
    (fun r => r.positionId = row.positionId)
    ((∀ r ∈ db.outcomes, r.outcomeId ≠ row.outcomeId) ∧ (∃ p ∈ db.positions, p.positionId = row.positionId) ∧
      ∃ d ∈ db.strategyDefinitions, d.strategyKey = row.strategyKey)
    integrityError row db.outcomes
  let exitPlans := db.exitPlans.map fun x =>
    if x.positionId = outcome.positionId then
      { x with state := "CLOSED", exitReason := some reason.value, closedAt := some outcome.closedAt }
    else x
  return { db with outcomes, exitPlans }

end PostgresLifecycleStore

end NanoDelta.Paper
