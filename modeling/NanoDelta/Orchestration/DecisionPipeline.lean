import Mathlib.Tactic.Linarith
import NanoDelta.Decisions
import NanoDelta.Strategies.Builtin

/-!
# The staged decision pipeline

`orchestration/decision_pipeline.py`: generate candidates from the contexts of a
cycle, score them, resolve conflicts, let a reviewer look at them, allocate capital
greedily, and check the allocations against the live quotes. Every stage writes a
decision about everything it sees.

A stage is a program over the decision ledger and the list of decisions emitted in
this run. The ledger is any implementation of `DecisionLedger`, and it may raise;
then so does the run.
-/

namespace NanoDelta.Orchestration

open Library Strategies Decisions

/-! ### Records -/

/-- `CycleMode`. -/
inductive CycleMode where
  | normal
  | exitsOnly
  deriving DecidableEq

/-- `CycleMode.value`. -/
def CycleMode.value : CycleMode → String
  | .normal => "NORMAL"
  | .exitsOnly => "EXITS_ONLY"

/-- `CyclePreconditions`. -/
structure CyclePreconditions where
  entryKillSwitchClear : Bool
  dailyLossCapacity : Bool
  entrySessionOpen : Bool
  capitalAvailable : Bool
  deriving DecidableEq

/-- `CyclePreconditions.mode`. -/
def CyclePreconditions.mode (p : CyclePreconditions) : CycleMode :=
  if p.entryKillSwitchClear && p.dailyLossCapacity && p.entrySessionOpen && p.capitalAvailable then .normal
  else .exitsOnly

/-- `CyclePreconditions.reason`. -/
def CyclePreconditions.reason (p : CyclePreconditions) : String :=
  if !p.entryKillSwitchClear then "ENTRY_KILL_SWITCH_ACTIVE"
  else if !p.dailyLossCapacity then "DAILY_LOSS_LIMIT_REACHED"
  else if !p.entrySessionOpen then "ENTRY_SESSION_CLOSED"
  else if !p.capitalAvailable then "INSUFFICIENT_CAPITAL"
  else "ENTRY_PRECONDITIONS_PASSED"

/-- `ScoreBreakdown`. -/
structure ScoreBreakdown where
  strategyConfidence : ℚ
  marketRegimeFit : ℚ
  sectorRegimeFit : ℚ
  symbolRegimeFit : ℚ
  mtfAlignment : ℚ
  historicalExpectancyR : ℚ
  mlTiltR : ℚ
  estimatedCostR : ℚ
  expectedRNetOfCosts : ℚ
  deriving DecidableEq

/-- `ScoredCandidate`. -/
structure ScoredCandidate where
  candidate : DeterministicCandidate
  score : ScoreBreakdown
  deriving DecidableEq

/-- `LlmReviewMode`. -/
inductive LlmReviewMode where
  | off
  | shadow
  | enforcedVeto
  deriving DecidableEq

/-- `LlmVerdict`. -/
inductive LlmVerdict where
  | pass
  | block
  | abstain
  | unavailable
  deriving DecidableEq

/-- `LlmVerdict.value`. -/
def LlmVerdict.value : LlmVerdict → String
  | .pass => "PASS"
  | .block => "BLOCK"
  | .abstain => "ABSTAIN"
  | .unavailable => "UNAVAILABLE"

/-- `CandidateReviewer`: its `review`, which may raise. -/
abbrev CandidateReviewer := ScoredCandidate → Except PyError LlmVerdict

/-- `AllocationPolicy`. -/
structure AllocationPolicy where
  equity : ℚ
  riskFractionPerTrade : ℚ
  maxOrderNotional : ℚ
  maxTotalNewNotional : ℚ
  maxPositions : ℕ
  maxSectorPositions : ℕ
  maxPairwiseCorrelation : ℚ := 7 / 10
  minimumExpectedR : ℚ := 0
  maximumEntryDriftFraction : ℚ := 3 / 1000
  minimumRewardRisk : ℚ := 1
  /-- The amounts are positive. -/
  amounts_pos : 0 < equity ∧ 0 < riskFractionPerTrade ∧ 0 < maxOrderNotional ∧ 0 < maxTotalNewNotional
  /-- The counts are positive. -/
  counts_pos : 1 ≤ maxPositions ∧ 1 ≤ maxSectorPositions
  /-- The correlation limit is a correlation. -/
  correlation_mem : 0 ≤ maxPairwiseCorrelation ∧ maxPairwiseCorrelation ≤ 1
  /-- The settings of the entry check. -/
  revalidation : 0 ≤ maximumEntryDriftFraction ∧ 0 < minimumRewardRisk

theorem AllocationPolicy.seven_tenths_mem : (0 : ℚ) ≤ 7 / 10 ∧ (7 / 10 : ℚ) ≤ 1 := by decide +kernel

theorem AllocationPolicy.drift_and_reward : (0 : ℚ) ≤ 3 / 1000 ∧ (0 : ℚ) < 1 := by decide +kernel

/-- The cash at risk in one trade. -/
def AllocationPolicy.riskCash (policy : AllocationPolicy) : ℚ := policy.equity * policy.riskFractionPerTrade

/-- `PortfolioAllocation`. -/
structure PortfolioAllocation where
  candidate : ScoredCandidate
  quantity : ℚ
  expectedEntryPrice : ℚ
  stopPrice : ℚ
  targetPrice : ℚ
  deriving DecidableEq

/-- `PortfolioAllocation.notional`. -/
def PortfolioAllocation.notional (allocation : PortfolioAllocation) : ℚ :=
  allocation.quantity * allocation.expectedEntryPrice

/-- `PipelineResult`. -/
structure PipelineResult where
  cycleId : String
  mode : CycleMode
  candidates : List DeterministicCandidate
  scored : List ScoredCandidate
  allocations : List PortfolioAllocation
  decisions : List Decision
  deriving DecidableEq

/-- `StagedDecisionPipeline`, on ledgers with states in `Λ`. -/
structure StagedDecisionPipeline (Λ : Type) where
  registry : StrategyRegistry
  strategies : StrategyRuntimeCatalog
  ledger : DecisionLedger Λ
  policy : AllocationPolicy
  llmMode : LlmReviewMode
  reviewer : Option CandidateReviewer
  /-- `PositionManager.manage`, if there is a position manager. -/
  positionManager : Option (String → Instant → EStateM PyError Λ (List Decision))
  /-- Review needs a reviewer. -/
  reviewer_given : llmMode ≠ .off → reviewer.isSome = true

/-- What a run works on: the ledger, and the decisions emitted so far. -/
structure Cycle (Λ : Type) where
  ledger : Λ
  emitted : List Decision

/-! ### Identity of a cycle -/

/-- The texts of a context that come before its feature set version in the cycle id. -/
def contextTexts (context : StrategyContext) : List String :=
  [context.market.value, context.symbol, isoformat context.eventTime, context.timeframe, context.tradeHorizon]

/-- The order of the tuples of the cycle id. -/
def contextLe (a b : StrategyContext) : Bool :=
  contextTexts a < contextTexts b ||
    (contextTexts a = contextTexts b &&
      (a.featureSetVersion < b.featureSetVersion ||
        (a.featureSetVersion = b.featureSetVersion &&
          (a.goldSnapshotIds < b.goldSnapshotIds || a.goldSnapshotIds = b.goldSnapshotIds))))

/-- `str` of the tuple that a context contributes to the cycle id. -/
def contextText (host : Host) (context : StrategyContext) : String :=
  reprTuple ((contextTexts context).map host.reprStr ++ [toString context.featureSetVersion] ++
    context.goldSnapshotIds.map host.reprStr)

/-- The cycle id that `run` computes. -/
def decisionCycleId (host : Host) (contexts : List StrategyContext) : String :=
  stableId host
    ["decision-cycle", reprTuple ((contexts.insertionSort fun a b => contextLe a b).map (contextText host))]

/-! ### Emitting decisions -/

section Stages

variable (host : Host) {Λ : Type} (self : StagedDecisionPipeline Λ) (cycleId : String) (t : Instant)

/-- A program on the ledger. -/
def onLedger {Λ α : Type} (x : EStateM PyError Λ α) : EStateM PyError (Cycle Λ) α :=
  Effect.focus Cycle.ledger (fun c ledger => { c with ledger }) x

/-- `self._ledger.append(decision)` and `emitted.append(decision)`. -/
def publish (decision : Decision) : EStateM PyError (Cycle Λ) Unit := do
  onLedger (self.ledger.append decision)
  modify fun c => { c with emitted := c.emitted ++ [decision] }

/-- `_emit`. -/
def emit (context : StrategyContext) (stage : DecisionStage) (status : DecisionStatus) (reason : String)
    (strategyKey : Option String) : EStateM PyError (Cycle Λ) Unit := do
  let decision ← Effect.ofExcept
    (Decision.create host cycleId context.market context.symbol (some context.timeframe) stage status reason
      (.aware t) none strategyKey "" [])
  publish self decision

/-- The metrics of a scored candidate. -/
def ScoreBreakdown.metrics (score : ScoreBreakdown) : List (String × ℚ) :=
  [("strategy_confidence", score.strategyConfidence),
   ("market_regime_fit", score.marketRegimeFit),
   ("sector_regime_fit", score.sectorRegimeFit),
   ("symbol_regime_fit", score.symbolRegimeFit),
   ("mtf_alignment", score.mtfAlignment),
   ("historical_expectancy_r", score.historicalExpectancyR),
   ("ml_tilt_r", score.mlTiltR),
   ("estimated_cost_r", score.estimatedCostR),
   ("expected_r_net_of_costs", score.expectedRNetOfCosts)]

/-- `_emit_candidate`. -/
def emitCandidate (item : ScoredCandidate) (stage : DecisionStage) (status : DecisionStatus) (reason : String)
    (extraMetrics : List (String × ℚ)) : EStateM PyError (Cycle Λ) Unit := do
  let candidate := item.candidate
  let decision ← Effect.ofExcept
    (Decision.create host cycleId candidate.identity.market candidate.symbol (some candidate.identity.timeframe)
      stage status reason (.aware t) (some candidate.candidateId) (some (candidate.identity.key host)) ""
      (item.score.metrics ++ extraMetrics))
  publish self decision

/-- `_portfolio_reject`. -/
def portfolioReject (item : ScoredCandidate) (reason : String) : EStateM PyError (Cycle Λ) Unit :=
  emitCandidate host self cycleId t item .portfolioConstruction .rejected reason []

/-- `_entry_reject`. -/
def entryReject (allocation : PortfolioAllocation) (reason : String) (observed : Option ℚ) :
    EStateM PyError (Cycle Λ) Unit :=
  emitCandidate host self cycleId t allocation.candidate .entryRevalidation .rejected reason
    (observed.toList.map fun value => ("observed", value))

/-- `_manage_positions`. -/
def managePositions : EStateM PyError (Cycle Λ) Unit :=
  match self.positionManager with
  | none => pure ()
  | some manage => do
    let decisions ← onLedger (manage cycleId t)
    let _ ← Effect.each (publish self) decisions

/-! ### Generation -/

/-- `_readiness_reason`. -/
def readinessReason (context : StrategyContext) : Option String :=
  if !context.settled then some "NO_SETTLED_BAR"
  else if !context.complete then some "MISSING_BARS"
  else if !context.adjusted then some "CORP_ACTION_SUSPECT"
  else if !context.fresh then some "STALE_QUOTE"
  else if !context.warm then some "INDICATOR_WARMUP"
  else none

/-- The evidence of a candidate. -/
def evidenceOf (candidate : DeterministicCandidate) : List (String × ℚ) :=
  [("market_regime_fit", candidate.regime.marketFit),
   ("sector_regime_fit", candidate.regime.sectorFit),
   ("symbol_regime_fit", candidate.regime.symbolFit),
   ("mtf_alignment", candidate.regime.mtfAlignment),
   ("historical_expectancy_r", candidate.signal.historicalExpectancyR),
   ("ml_tilt_r", candidate.signal.mlTiltR),
   ("estimated_cost_r", candidate.signal.estimatedCostR)]

/-- The record of a candidate. -/
def candidateRecord (candidate : DeterministicCandidate) : SignalCandidate where
  candidateId := candidate.candidateId
  cycleId := cycleId
  market := candidate.identity.market
  symbol := candidate.symbol
  timeframe := candidate.identity.timeframe
  strategyKey := candidate.identity.key host
  approvalId := candidate.approvalId
  eventTime := candidate.eventTime
  action := candidate.signal.action
  referencePrice := candidate.signal.referencePrice
  stopPrice := candidate.signal.stopPrice
  targetPrice := candidate.signal.targetPrice
  confidence := candidate.signal.confidence
  goldSnapshotIds := candidate.goldSnapshotIds
  evidence := evidenceOf candidate

/-- The decision that a signal was generated. -/
def signalDecision (context : StrategyContext) (definition : StrategyDefinition)
    (candidate : DeterministicCandidate) : Except PyError Decision :=
  let signal := candidate.signal
  Decision.create host cycleId context.market context.symbol (some context.timeframe) .signal .passed
    "SIGNAL_GENERATED" (.aware t) (some candidate.candidateId) (some (definition.identity.key host))
    signal.action.value
    ([("reference_price", signal.referencePrice),
      ("stop_price", signal.stopPrice),
      ("target_price", signal.targetPrice),
      ("strategy_confidence", signal.confidence)] ++ evidenceOf candidate)

/-- The part of `_generate` for a signal that was given. -/
def propose (context : StrategyContext) (definition : StrategyDefinition) (approval : StrategyApproval)
    (signal : StrategySignal) : EStateM PyError (Cycle Λ) DeterministicCandidate := do
  let candidate := DeterministicCandidate.create host definition approval.approvalId context signal
  let record ← Effect.ofExcept (candidateRecord host cycleId candidate).checked
  let decision ← Effect.ofExcept (signalDecision host cycleId t context definition candidate)
  onLedger (self.ledger.appendCandidate record decision)
  modify fun c => { c with emitted := c.emitted ++ [decision] }
  return candidate

/-- The body of the inner loop of `_generate`: one strategy on one context. -/
def generateFrom (context : StrategyContext) (definition : StrategyDefinition) :
    EStateM PyError (Cycle Λ) (Option DeterministicCandidate) := do
  let plugin ← Effect.ofExcept (self.strategies.require definition.identity)
  let (compatible, reason) ← Effect.ofExcept (plugin.compatibility context)
  if compatible = false then do
    emit host self cycleId t context .strategyEligibility .rejected reason (some (definition.identity.key host))
    return none
  else do
    let approval ← Effect.ofExcept (self.registry.requireApproval definition.identity t)
    emit host self cycleId t context .strategyEligibility .passed "STRATEGY_ELIGIBLE"
      (some (definition.identity.key host))
    let signal ← Effect.ofExcept (plugin.generate context)
    match signal with
    | none => do
      emit host self cycleId t context .signal .rejected "NO_TRIGGER" (some (definition.identity.key host))
      return none
    | some signal => do
      let candidate ← propose host self cycleId t context definition approval signal
      return some candidate

/-- The body of the outer loop of `_generate`: all strategies on one context. -/
def generateOne (context : StrategyContext) : EStateM PyError (Cycle Λ) (List DeterministicCandidate) :=
  match readinessReason context with
  | some reason => do
    emit host self cycleId t context .dataReadiness .rejected reason none
    return []
  | none => do
    emit host self cycleId t context .dataReadiness .passed "DATA_READY" none
    if context.tradeable = false then do
      emit host self cycleId t context .tradeability .rejected context.tradeabilityReason none
      return []
    else do
      emit host self cycleId t context .tradeability .passed "SYMBOL_TRADEABLE" none
      match self.registry.eligible context.market context.timeframe context.tradeHorizon
          context.featureSetVersion t with
      | [] => do
        emit host self cycleId t context .strategyEligibility .rejected "NO_APPROVED_STRATEGY" none
        return []
      | definitions => Effect.collect (generateFrom host self cycleId t context) definitions

/-- `_generate`. -/
def generate (contexts : List StrategyContext) : EStateM PyError (Cycle Λ) (List DeterministicCandidate) :=
  List.flatten <$> Effect.each (generateOne host self cycleId t) contexts

/-! ### Scoring -/

/-- The score of a candidate. -/
def scoreOf (candidate : DeterministicCandidate) : ScoreBreakdown :=
  let signal := candidate.signal
  let regime := candidate.regime
  { strategyConfidence := signal.confidence
    marketRegimeFit := regime.marketFit
    sectorRegimeFit := regime.sectorFit
    symbolRegimeFit := regime.symbolFit
    mtfAlignment := regime.mtfAlignment
    historicalExpectancyR := signal.historicalExpectancyR
    mlTiltR := signal.mlTiltR
    estimatedCostR := signal.estimatedCostR
    expectedRNetOfCosts :=
      signal.confidence * regime.marketFit * regime.sectorFit * regime.symbolFit * regime.mtfAlignment +
        signal.historicalExpectancyR + signal.mlTiltR - signal.estimatedCostR }

/-- The texts that rank candidates with the same expectation. -/
def rankTexts (item : ScoredCandidate) : List String :=
  [item.candidate.identity.key host, item.candidate.symbol, item.candidate.candidateId]

/-- The order of the sort keys of scored candidates. -/
def rankLe (a b : ScoredCandidate) : Bool :=
  b.score.expectedRNetOfCosts < a.score.expectedRNetOfCosts ||
    (a.score.expectedRNetOfCosts = b.score.expectedRNetOfCosts &&
      (rankTexts host a < rankTexts host b || rankTexts host a = rankTexts host b))

/-- `sorted` by the sort key. -/
def ranked (items : List ScoredCandidate) : List ScoredCandidate :=
  items.insertionSort fun a b => rankLe host a b

/-- The body of the loop of `_score`. -/
def scoreOne (candidate : DeterministicCandidate) : EStateM PyError (Cycle Λ) (Option ScoredCandidate) :=
  let item : ScoredCandidate := ⟨candidate, scoreOf candidate⟩
  if self.policy.minimumExpectedR < item.score.expectedRNetOfCosts then do
    emitCandidate host self cycleId t item .scoring .passed "POSITIVE_EXPECTED_R" []
    return some item
  else do
    emitCandidate host self cycleId t item .scoring .rejected "NON_POSITIVE_EXPECTED_R" []
    return none

/-- `_score`. -/
def score (candidates : List DeterministicCandidate) : EStateM PyError (Cycle Λ) (List ScoredCandidate) :=
  ranked host <$> Effect.collect (scoreOne host self cycleId t) candidates

/-! ### Conflicts -/

/-- The market and the symbol of a scored candidate. -/
def ScoredCandidate.key (item : ScoredCandidate) : Market × String :=
  (item.candidate.identity.market, item.candidate.symbol)

/-- The candidates by market and symbol, in the order of their first one. -/
def groups (scored : List ScoredCandidate) : Dict (Market × String) (List ScoredCandidate) :=
  scored.foldl (fun d item => d.set item.key ((d.get? item.key).getD [] ++ [item])) .empty

/-- The body of the loop of `_resolve_conflicts` over the groups. -/
def resolveGroup (group : List ScoredCandidate) : EStateM PyError (Cycle Λ) (Option ScoredCandidate) :=
  if 1 < (group.map fun item => item.candidate.signal.action).dedup.length then do
    let _ ← Effect.each (fun item =>
      emitCandidate host self cycleId t item .signalQuality .rejected "CONFLICTING_SIGNALS" []) group
    return none
  else
    match group with
    | [] => throw (.indexError "list index out of range")
    | best :: rest => do
      emitCandidate host self cycleId t best .signalQuality .passed
        (if rest = [] then "NO_CONFLICT" else "BEST_RANKED_DUPLICATE") []
      let _ ← Effect.each (fun item =>
        emitCandidate host self cycleId t item .signalQuality .rejected "DUPLICATE_SIGNAL_LOWER_RANKED" []) rest
      return some best

/-- `_resolve_conflicts`. -/
def resolveConflicts (scored : List ScoredCandidate) : EStateM PyError (Cycle Λ) (List ScoredCandidate) :=
  ranked host <$> Effect.collect (resolveGroup host self cycleId t) (groups scored).values

/-! ### Review -/

/-- The body of the loop of `_review`, with a reviewer. -/
def reviewOne (reviewer : CandidateReviewer) (item : ScoredCandidate) :
    EStateM PyError (Cycle Λ) (Option ScoredCandidate) :=
  let verdict := match reviewer item with
    | .ok verdict => verdict
    | .error _ => .unavailable
  if self.llmMode = .enforcedVeto ∧ verdict = .block then do
    emitCandidate host self cycleId t item .llmReview .rejected ("LLM_" ++ verdict.value) []
    return none
  else do
    emitCandidate host self cycleId t item .llmReview .passed ("LLM_" ++ verdict.value) []
    return some item

/-- `_review`. -/
def review (candidates : List ScoredCandidate) : EStateM PyError (Cycle Λ) (List ScoredCandidate) :=
  if h : self.llmMode = .off then do
    let _ ← Effect.each (fun item =>
      emitCandidate host self cycleId t item .llmReview .skipped "LLM_OFF" []) candidates
    return candidates
  else Effect.collect (reviewOne host self cycleId t (self.reviewer.get (self.reviewer_given h))) candidates

/-! ### Allocation -/

/-- The variables of the loop of `_allocate`. -/
structure Allocating where
  allocations : List PortfolioAllocation
  sectors : Dict String ℕ
  totalNotional : ℚ

/-- `candidate.sector or "UNCLASSIFIED"`. -/
def sectorOf (candidate : DeterministicCandidate) : String :=
  match candidate.sector with
  | none => "UNCLASSIFIED"
  | some sector => if sector = "" then "UNCLASSIFIED" else sector

/-- The correlation that is recorded for a pair of symbols. -/
def correlationOf (correlations : Dict (String × String) ℚ) (symbol other : String) : ℚ :=
  (correlations.get? (symbol, other)).getD ((correlations.get? (other, symbol)).getD 0)

/-- `_correlated`. -/
def correlated (policy : AllocationPolicy) (symbol : String) (allocations : List PortfolioAllocation)
    (correlations : Dict (String × String) ℚ) : Bool :=
  allocations.any fun allocation =>
    policy.maxPairwiseCorrelation < |correlationOf correlations symbol allocation.candidate.candidate.symbol|

/-- The quantity that the risk and the order size allow at the reference price. -/
def sizeOf (policy : AllocationPolicy) (signal : StrategySignal) : ℚ :=
  min (policy.riskCash / |signal.referencePrice - signal.stopPrice|) (policy.maxOrderNotional / signal.referencePrice)

/-- The allocation of a candidate at its reference price. -/
def allocationOf (policy : AllocationPolicy) (item : ScoredCandidate) : PortfolioAllocation :=
  let signal := item.candidate.signal
  ⟨item, sizeOf policy signal, signal.referencePrice, signal.stopPrice, signal.targetPrice⟩

/-- The body of the loop of `_allocate`. -/
def allocateOne (existingSymbols : List (Market × String)) (correlations : Dict (String × String) ℚ)
    (chosen : Allocating) (item : ScoredCandidate) : EStateM PyError (Cycle Λ) Allocating :=
  let candidate := item.candidate
  let sector := sectorOf candidate
  let allocation := allocationOf self.policy item
  let reject (reason : String) : EStateM PyError (Cycle Λ) Allocating := do
    portfolioReject host self cycleId t item reason
    return chosen
  if item.key ∈ existingSymbols then reject "EXISTING_POSITION"
  else if chosen.allocations.any fun a => a.candidate.candidate.symbol = candidate.symbol then
    reject "SYMBOL_ALREADY_SELECTED"
  else if self.policy.maxPositions ≤ chosen.allocations.length then reject "POSITION_CAPACITY_REACHED"
  else if self.policy.maxSectorPositions ≤ (chosen.sectors.get? sector).getD 0 then reject "SECTOR_CONCENTRATION"
  else if correlated self.policy candidate.symbol chosen.allocations correlations then reject "CORRELATION_LIMIT"
  else if self.policy.maxTotalNewNotional < chosen.totalNotional + allocation.notional then
    reject "INSUFFICIENT_BATCH_CAPITAL"
  else do
    emitCandidate host self cycleId t item .portfolioConstruction .passed "PORTFOLIO_SELECTED"
      [("quantity", allocation.quantity), ("notional", allocation.notional)]
    return { allocations := chosen.allocations ++ [allocation]
             sectors := chosen.sectors.set sector ((chosen.sectors.get? sector).getD 0 + 1)
             totalNotional := chosen.totalNotional + allocation.notional }

/-- `_allocate`. -/
def allocate (candidates : List ScoredCandidate) (existingSymbols : List (Market × String))
    (correlations : Dict (String × String) ℚ) : EStateM PyError (Cycle Λ) (List PortfolioAllocation) :=
  Allocating.allocations <$>
    candidates.foldlM (allocateOne host self cycleId t existingSymbols correlations) ⟨[], .empty, 0⟩

/-! ### Entry revalidation -/

/-- The drift of a quote from the reference price. -/
def driftOf (signal : StrategySignal) (quote : ℚ) : ℚ := |quote - signal.referencePrice| / signal.referencePrice

/-- Reward over risk at a quote. -/
def rewardRisk (signal : StrategySignal) (quote : ℚ) : ℚ :=
  if 0 < |quote - signal.stopPrice| then |signal.targetPrice - quote| / |quote - signal.stopPrice| else 0

/-- The quote is between the stop and the target. -/
def geometryValid (signal : StrategySignal) (quote : ℚ) : Bool :=
  if signal.action = .buy then signal.stopPrice < quote && quote < signal.targetPrice
  else signal.targetPrice < quote && quote < signal.stopPrice

/-- The body of the loop of `_revalidate`. -/
def revalidateOne (quotes : Dict (Market × String) ℚ) (allocation : PortfolioAllocation) :
    EStateM PyError (Cycle Λ) (Option PortfolioAllocation) :=
  let signal := allocation.candidate.candidate.signal
  let reject (reason : String) (observed : Option ℚ) : EStateM PyError (Cycle Λ) (Option PortfolioAllocation) := do
    entryReject host self cycleId t allocation reason observed
    return none
  match quotes.get? allocation.candidate.key with
  | none => reject "LIVE_QUOTE_UNAVAILABLE" none
  | some quote =>
    if quote ≤ 0 then reject "LIVE_QUOTE_UNAVAILABLE" none
    else if self.policy.maximumEntryDriftFraction < driftOf signal quote then
      reject "ENTRY_DRIFT_EXCEEDED" (some (driftOf signal quote))
    else if geometryValid signal quote = false ∨ rewardRisk signal quote < self.policy.minimumRewardRisk then
      reject "RR_DEGRADED_AT_ENTRY" (some (rewardRisk signal quote))
    else do
      emitCandidate host self cycleId t allocation.candidate .entryRevalidation .passed "ENTRY_REVALIDATED"
        [("entry_drift", driftOf signal quote), ("reward_risk", rewardRisk signal quote)]
      return some { allocation with expectedEntryPrice := quote }

/-- `_revalidate`. -/
def revalidate (allocations : List PortfolioAllocation) (quotes : Dict (Market × String) ℚ) :
    EStateM PyError (Cycle Λ) (List PortfolioAllocation) :=
  Effect.collect (revalidateOne host self cycleId t quotes) allocations

/-! ### The run -/

/-- The stages of a cycle that admits entries. -/
def stages (contexts : List StrategyContext) (liveQuotes : Dict (Market × String) ℚ)
    (existingSymbols : List (Market × String)) (correlations : Dict (String × String) ℚ) :
    EStateM PyError (Cycle Λ) PipelineResult := do
  let candidates ← generate host self cycleId t contexts
  let scored ← score host self cycleId t candidates
  let resolved ← resolveConflicts host self cycleId t scored
  let reviewed ← review host self cycleId t resolved
  let allocations ← allocate host self cycleId t reviewed existingSymbols correlations
  let valid ← revalidate host self cycleId t allocations liveQuotes
  let c ← get
  return ⟨cycleId, .normal, candidates, scored, valid, c.emitted⟩

/-- The part of a cycle that admits no entries. -/
def exitsOnly (contexts : List StrategyContext) (preconditions : CyclePreconditions) :
    EStateM PyError (Cycle Λ) PipelineResult := do
  let _ ← Effect.each (fun context =>
    emit host self cycleId t context .global .rejected preconditions.reason none) contexts
  let c ← get
  return ⟨cycleId, .exitsOnly, [], [], [], c.emitted⟩

/-- `run`, once the cycle id is known. -/
def cycle (contexts : List StrategyContext) (preconditions : CyclePreconditions)
    (liveQuotes : Dict (Market × String) ℚ) (existingSymbols : List (Market × String))
    (correlations : Dict (String × String) ℚ) : EStateM PyError (Cycle Λ) PipelineResult := do
  managePositions self cycleId t
  if preconditions.mode = .exitsOnly then exitsOnly host self cycleId t contexts preconditions
  else stages host self cycleId t contexts liveQuotes existingSymbols correlations

end Stages

/-- `StagedDecisionPipeline.run`. -/
def run (host : Host) {Λ : Type} (self : StagedDecisionPipeline Λ) (contexts : List StrategyContext)
    (preconditions : CyclePreconditions) (evaluatedAt : DateTime) (liveQuotes : Dict (Market × String) ℚ)
    (existingSymbols : List (Market × String)) (correlations : Dict (String × String) ℚ) :
    EStateM PyError Λ PipelineResult := fun ledger =>
  match utc evaluatedAt "evaluated_at" with
  | .error e => .error e ledger
  | .ok t =>
    Effect.project Cycle.ledger
      (cycle host self (decisionCycleId host contexts) t contexts preconditions liveQuotes existingSymbols
        correlations ⟨ledger, []⟩)

/-! ### Sample values -/

namespace Sample

open Risk.Sample

/-- The approval of the built-in strategy of NSE. -/
def approval : StrategyApproval where
  approvalId := "approval-1"
  identity := momentumIdentity .nse
  validationRunId := "validation-1"
  state := .approved
  approvedAt := noon - seconds 86400
  expiresAt := noon + seconds 86400
  approvedBy := "reviewer"
  reason := "validated"

/-- A registry with the built-in strategy of NSE, approved. -/
def registry : StrategyRegistry where
  definitions := Dict.empty.set (momentumIdentity .nse) (momentumDefinition .nse)
  approvals := Dict.empty.set "approval-1" approval
  keyed := by
    intro e he
    obtain rfl := List.mem_singleton.mp he
    rfl

/-- The catalog of the built-in strategies. -/
def catalog : StrategyRuntimeCatalog :=
  builtinStrategies.foldl (fun d strategy => d.set strategy.definition.identity strategy.plugin) .empty

/-- A bar of one percent up to a close of 100, with a range of two percent. -/
def bar : Dict String ℚ :=
  (((Dict.empty.set "close" 100).set "return_1" (1 / 100)).set "range_pct" (1 / 50)).set "body_pct" (1 / 100)

theorem reliance_ne : "RELIANCE" ≠ "" := by decide

theorem tcs_ne : "TCS" ≠ "" := by decide

/-- The context of that bar in a symbol. -/
def context (symbol gold : String) (h : symbol ≠ "") : StrategyContext where
  market := .nse
  symbol := symbol
  sector := none
  timeframe := "1m"
  tradeHorizon := "intraday"
  featureSetVersion := 1
  eventTime := noon
  goldSnapshotIds := [gold]
  features := bar
  texts := ⟨h, by decide, by decide⟩
  lineage := ⟨by decide, by simp⟩

/-- A pipeline over a ledger, without review. -/
def pipeline {Λ : Type} (ledger : DecisionLedger Λ) (policy : AllocationPolicy) : StagedDecisionPipeline Λ where
  registry := registry
  strategies := catalog
  ledger := ledger
  policy := policy
  llmMode := .off
  reviewer := none
  positionManager := none
  reviewer_given := fun h => absurd rfl h

end Sample

end NanoDelta.Orchestration
