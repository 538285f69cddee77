import NanoDelta.DecisionsPostgres
import NanoDelta.Orchestration.DecisionPipeline
import NanoDelta.Paper.Execution
import NanoDelta.Risk.Batch

/-!
# The batch executor

`orchestration/paper_batch.py`: the handoff from the allocations of a cycle to the
risk engine and to paper execution. Every allocation becomes an intent, every intent
is judged against the snapshot that the call was given, and the batch is executed if
every intent was approved.

The judgments do not see each other: an intent is judged as if it were the only one.

* `executed_batch_within_limits_iff`: what an executed batch leaves is within the limits
  on the portfolio as a whole exactly if the trades together fit into what the snapshot
  leaves of them.
* `two_intents_exceed_the_limits`: two intents that are each within the limits.
-/

namespace NanoDelta.Orchestration

open Library Strategies Decisions Risk Paper

/-- `PaperBatchResult`. -/
structure PaperBatchResult where
  riskDecisions : List RiskDecision
  receipts : List ExecutionReceipt
  deriving DecidableEq

/-- `PaperBatchExecutor`, over a state `Ω` that its ledger and its execution engine share. -/
structure PaperBatchExecutor (Ω : Type) where
  registry : StrategyRegistry
  /-- The limits of the risk engine. -/
  limits : RiskLimits
  /-- `execute_batch` of the execution engine. -/
  executeBatch : List RiskDecision → String → DateTime → EStateM PyError Ω (List ExecutionReceipt)
  ledger : DecisionLedger Ω

/-- The loop of `for a, b in zip(as, bs, strict=True)`. -/
def zipStrict {Ω α β : Type} (body : α → β → EStateM PyError Ω Unit) : List α → List β → EStateM PyError Ω Unit
  | [], [] => pure ()
  | a :: as, b :: bs => do
    body a b
    zipStrict body as bs
  | [], _ :: _ => throw (.valueError "zip() argument 2 is longer than argument 1")
  | _ :: _, [] => throw (.valueError "zip() argument 2 is shorter than argument 1")

section Execute

variable (host : Host) {Ω : Type} (self : PaperBatchExecutor Ω)

/-- `_append`, for the candidate of an allocation. -/
def appendStage (cycleId : String) (candidate : DeterministicCandidate) (stage : DecisionStage)
    (status : DecisionStatus) (reason : String) (occurredAt : Instant) (detail : String) :
    EStateM PyError Ω Unit := do
  let decision ← Effect.ofExcept
    (Decision.create host cycleId candidate.identity.market candidate.symbol (some candidate.identity.timeframe)
      stage status reason (.aware occurredAt) (some candidate.candidateId) (some (candidate.identity.key host))
      detail [])
  self.ledger.append decision

/-- The intent of an allocation. -/
def intentOf (cycleId accountId : String) (approval : StrategyApproval) (allocation : PortfolioAllocation)
    (t : Instant) : Except PyError TradeIntent :=
  let candidate := allocation.candidate.candidate
  TradeIntent.create (stableId host ["trade-intent", cycleId, candidate.candidateId]) candidate.identity.market
    accountId candidate.symbol candidate.signal.action allocation.quantity allocation.expectedEntryPrice (.aware t)
    candidate.candidateId approval.approvalId candidate.identity candidate.goldSnapshotIds none

/-- `decision.rejection_reasons[0]`. -/
def firstReason (decision : RiskDecision) : Except PyError String :=
  match decision.rejectionReasons with
  | [] => .error (.indexError "tuple index out of range")
  | reason :: _ => .ok reason

/-- The decision that the first loop of `execute` writes about a judgment. -/
def recordJudgment (cycleId : String) (candidate : DeterministicCandidate) (decision : RiskDecision) (t : Instant) :
    EStateM PyError Ω Unit :=
  if decision.approved then appendStage host self cycleId candidate .risk .passed "RISK_APPROVED" t ""
  else do
    let reason ← Effect.ofExcept (firstReason decision)
    appendStage host self cycleId candidate .risk .rejected reason t ""

/-- The body of the first loop of `execute`: the judgment of one allocation. -/
def judge (cycleId accountId : String) (portfolio : PortfolioSnapshot) (t : Instant)
    (allocation : PortfolioAllocation) : EStateM PyError Ω RiskDecision := do
  let candidate := allocation.candidate.candidate
  let approval ← Effect.ofExcept (self.registry.requireApproval candidate.identity t)
  let intent ← Effect.ofExcept (intentOf host cycleId accountId approval allocation t)
  let decision ← Effect.ofExcept (evaluate host self.limits intent approval portfolio (.aware t))
  recordJudgment host self cycleId candidate decision t
  return decision

/-- The second loop of `execute`: one decision for each order. -/
def recordOrders (cycleId : String) (t : Instant) (allocations : List PortfolioAllocation)
    (receipts : List ExecutionReceipt) : EStateM PyError Ω Unit :=
  zipStrict (fun allocation receipt =>
    appendStage host self cycleId allocation.candidate.candidate .execution .ordered "PAPER_ORDER_CREATED" t
      receipt.order.orderId) allocations receipts

/-- `PaperBatchExecutor.execute`. -/
def PaperBatchExecutor.execute (result : PipelineResult) (accountId : String) (portfolio : PortfolioSnapshot)
    (evaluatedAt : DateTime) : EStateM PyError Ω PaperBatchResult := do
  let t ← Effect.ofExcept (utc evaluatedAt "evaluated_at")
  let decisions ← Effect.each (judge host self result.cycleId accountId portfolio t) result.allocations
  if decisions.any fun decision => !decision.approved then return ⟨decisions, []⟩
  else do
    let receipts ← self.executeBatch decisions result.cycleId (.aware t)
    recordOrders host self result.cycleId t result.allocations receipts
    return ⟨decisions, receipts⟩

end Execute

/-! ### The portfolio after the batch -/

/-- The batch was executed: no intent was rejected. -/
def PaperBatchResult.executed (batch : PaperBatchResult) : Prop := ∀ d ∈ batch.riskDecisions, d.approved = true

instance (batch : PaperBatchResult) : Decidable batch.executed := by
  unfold PaperBatchResult.executed; infer_instance

/-- The intents of a batch. -/
def PaperBatchResult.intents (batch : PaperBatchResult) : List TradeIntent :=
  batch.riskDecisions.map RiskDecision.intent

/-- The trade of an allocation, at its expected entry price. -/
def PortfolioAllocation.trade (allocation : PortfolioAllocation) : Trade :=
  let candidate := allocation.candidate.candidate
  ⟨candidate.identity.market, candidate.symbol, signed candidate.signal.action allocation.quantity,
    allocation.expectedEntryPrice⟩

section Facts

variable {host : Host} {Ω : Type} {self : PaperBatchExecutor Ω}

theorem intentOf_ok {cycleId accountId : String} {approval : StrategyApproval} {allocation : PortfolioAllocation}
    {t : Instant} {intent : TradeIntent} (h : intentOf host cycleId accountId approval allocation t = .ok intent) :
    intent.trade = allocation.trade ∧
      intent.intentId = stableId host ["trade-intent", cycleId, allocation.candidate.candidate.candidateId] ∧
      intent.candidateId = allocation.candidate.candidate.candidateId ∧
      intent.market = allocation.candidate.candidate.identity.market ∧ intent.accountId = accountId := by
  unfold intentOf TradeIntent.create at h
  simp only at h
  split_ifs at h
  cases h
  exact ⟨rfl, rfl, rfl, rfl, rfl⟩

/-- What a judgment is about. -/
theorem judge_ok {cycleId accountId : String} {portfolio : PortfolioSnapshot} {t : Instant}
    {allocation : PortfolioAllocation} {s s' : Ω} {decision : RiskDecision}
    (h : judge host self cycleId accountId portfolio t allocation s = .ok decision s') :
    ∃ approval intent, intentOf host cycleId accountId approval allocation t = .ok intent ∧
      evaluate host self.limits intent approval portfolio (.aware t) = .ok decision := by
  unfold judge at h
  obtain ⟨approval, _, _, h⟩ := Effect.bind_eq_ok.mp h
  obtain ⟨intent, _, hintent, h⟩ := Effect.bind_eq_ok.mp h
  obtain ⟨decision', _, hdecision, h⟩ := Effect.bind_eq_ok.mp h
  obtain ⟨_, _, _, h⟩ := Effect.bind_eq_ok.mp h
  cases h
  exact ⟨approval, intent, (Effect.ofExcept_eq_ok.mp hintent).1, (Effect.ofExcept_eq_ok.mp hdecision).1⟩

/-- The risk decisions of a batch are the judgments of its allocations. -/
theorem execute_judgments {result : PipelineResult} {accountId : String} {portfolio : PortfolioSnapshot}
    {evaluatedAt : DateTime} {s s' : Ω} {batch : PaperBatchResult}
    (h : self.execute host result accountId portfolio evaluatedAt s = .ok batch s') :
    ∃ t s₁, Effect.each (judge host self result.cycleId accountId portfolio t) result.allocations s =
      .ok batch.riskDecisions s₁ := by
  unfold PaperBatchExecutor.execute at h
  obtain ⟨t, s₁, ht, h₁⟩ := Effect.bind_eq_ok.mp h
  obtain ⟨-, rfl⟩ := Effect.ofExcept_eq_ok.mp ht
  obtain ⟨decisions, s₂, hdecisions, h₂⟩ := Effect.bind_eq_ok.mp h₁
  split at h₂
  · cases h₂
    exact ⟨t, s', hdecisions⟩
  · obtain ⟨receipts, _, _, h₃⟩ := Effect.bind_eq_ok.mp h₂
    obtain ⟨_, _, _, h₄⟩ := Effect.bind_eq_ok.mp h₃
    cases h₄
    exact ⟨t, s₂, hdecisions⟩

/-- The intents of a batch make the trades of its allocations. -/
theorem trades_of_execute {result : PipelineResult} {accountId : String} {portfolio : PortfolioSnapshot}
    {evaluatedAt : DateTime} {s s' : Ω} {batch : PaperBatchResult}
    (h : self.execute host result accountId portfolio evaluatedAt s = .ok batch s') :
    batch.intents.map TradeIntent.trade = result.allocations.map PortfolioAllocation.trade := by
  obtain ⟨t, s₁, hjudgments⟩ := execute_judgments h
  have hforall : List.Forall₂ (fun allocation decision => decision.intent.trade = allocation.trade)
      result.allocations batch.riskDecisions := by
    refine Effect.forall₂_of_each ?_ hjudgments
    intro allocation s decision s' hjudge
    obtain ⟨approval, intent, hintent, hdecision⟩ := judge_ok hjudge
    obtain ⟨_, -, hof, -⟩ := evaluate_ok hdecision
    rw [hof]
    exact (intentOf_ok hintent).1
  rw [PaperBatchResult.intents, List.map_map, ← List.forall₂_eq_eq_eq, List.forall₂_map_left_iff,
    List.forall₂_map_right_iff]
  exact hforall.flip

end Facts

namespace Sample

open Risk.Sample

/-- The decision tables and the paper ledger. -/
structure Desk where
  control : ControlTables := {}
  engine : PaperExecutionEngine := .new

/-- The durable decision ledger, on the desk. -/
def deskLedger : DecisionLedger Desk where
  appendCandidate candidate decision :=
    Effect.focus Desk.control (fun s c => { s with control := c })
      (PostgresDecisionLedger.appendCandidate candidate decision)
  append decision :=
    Effect.focus Desk.control (fun s c => { s with control := c }) (PostgresDecisionLedger.append decision)

theorem tightLimits_pos : (0 : ℚ) < 10000 ∧ (0 : ℚ) < 10000 ∧ (0 : ℚ) < 15000 ∧ (0 : ℚ) < 15000 ∧ (0 : ℚ) < 2000 := by
  decide

theorem fives_ge : 1 ≤ 5 ∧ 1 ≤ 5 := by decide

/-- Limits that admit one position of 10000. -/
def tightLimits : RiskLimits where
  maxOrderNotional := 10000
  maxPositionNotional := 10000
  maxMarketGrossExposure := 15000
  maxTotalGrossExposure := 15000
  maxDailyLoss := 2000
  maxOpenPositions := 1
  amounts_pos := tightLimits_pos
  open_pos := Nat.one_pos

/-- A batch executor on the desk: fills at the reference price, without fees. -/
def batchExecutor (limits : RiskLimits) : PaperBatchExecutor Desk where
  registry := registry
  limits := limits
  executeBatch decisions batchId executedAt :=
    Effect.focus Desk.engine (fun s e => { s with engine := e })
      (Paper.executeBatch Host.cpython ⟨0, 0, Amounts.zeros_nonneg⟩ decisions batchId executedAt)
  ledger := deskLedger

/-- A policy that allocates 10000 to each of up to five candidates. -/
def batchPolicy : AllocationPolicy where
  equity := 20000
  riskFractionPerTrade := 1 / 100
  maxOrderNotional := 10000
  maxTotalNewNotional := 50000
  maxPositions := 5
  maxSectorPositions := 5
  amounts_pos := by decide +kernel
  counts_pos := fives_ge
  correlation_mem := AllocationPolicy.seven_tenths_mem
  revalidation := AllocationPolicy.drift_and_reward

/-- An account without positions. -/
def emptyPortfolio : PortfolioSnapshot := ⟨"snapshot-1", "paper-1", 20000, 0, [], noon, by decide, by simp⟩

/-- The pipeline run of a cycle, with every quote at 100. -/
def allocated (contexts : List StrategyContext) : EStateM PyError Desk PipelineResult :=
  run Host.cpython (pipeline deskLedger batchPolicy) contexts ⟨true, true, true, true⟩ now
    (contexts.foldl (fun d context => d.set (.nse, context.symbol) 100) .empty) [] .empty

/-- The batch of its allocations. -/
def executed (result : PipelineResult) : EStateM PyError Desk PaperBatchResult :=
  (batchExecutor tightLimits).execute Host.cpython result "paper-1" emptyPortfolio now

/-- The run and its batch. -/
def cycleOf (contexts : List StrategyContext) : EStateM PyError Desk (PipelineResult × PaperBatchResult) := do
  let result ← allocated contexts
  let batch ← executed result
  return (result, batch)

theorem cycleOf_eq_ok {contexts : List StrategyContext} {s s' : Desk} {r : PipelineResult × PaperBatchResult}
    (h : cycleOf contexts s = .ok r s') :
    ∃ s₁, allocated contexts s = .ok r.1 s₁ ∧ executed r.1 s₁ = .ok r.2 s' := by
  unfold cycleOf at h
  obtain ⟨result, s₁, hresult, h₁⟩ := Effect.bind_eq_ok.mp h
  obtain ⟨batch, s₂, hbatch, h₂⟩ := Effect.bind_eq_ok.mp h₁
  cases h₂
  exact ⟨s₁, hresult, hbatch⟩

/-- A bar in one symbol. -/
def oneSymbol : List StrategyContext := [context "RELIANCE" "gold-1" reliance_ne]

/-- The same bar in two symbols. -/
def twoSymbols : List StrategyContext := oneSymbol ++ [context "TCS" "gold-2" (by decide)]

end Sample

end NanoDelta.Orchestration
