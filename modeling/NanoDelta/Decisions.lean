import NanoDelta.Library.Dict
import NanoDelta.Library.Effect
import NanoDelta.Strategies.Runtime

/-!
# Stage decisions

`decisions.py`: what every stage of a cycle writes about every symbol. A decision
is identified by what it says, so writing it again changes nothing. `DecisionLedger`
is the interface that the stages use; `InMemoryDecisionLedger` is one of its two
implementations.
-/

namespace NanoDelta.Decisions

open Library

/-- `DecisionStage`. -/
inductive DecisionStage where
  | global
  | positionManagement
  | dataReadiness
  | tradeability
  | strategyEligibility
  | signal
  | scoring
  | signalQuality
  | llmReview
  | portfolioConstruction
  | entryRevalidation
  | risk
  | execution
  deriving DecidableEq

/-- `DecisionStage.value`. -/
def DecisionStage.value : DecisionStage → String
  | .global => "global"
  | .positionManagement => "position_management"
  | .dataReadiness => "data_readiness"
  | .tradeability => "tradeability"
  | .strategyEligibility => "strategy_eligibility"
  | .signal => "signal"
  | .scoring => "scoring"
  | .signalQuality => "signal_quality"
  | .llmReview => "llm_review"
  | .portfolioConstruction => "portfolio_construction"
  | .entryRevalidation => "entry_revalidation"
  | .risk => "risk"
  | .execution => "execution"

/-- `DecisionStatus`. -/
inductive DecisionStatus where
  | passed
  | rejected
  | skipped
  | ordered
  | error
  deriving DecidableEq

/-- `DecisionStatus.value`. -/
def DecisionStatus.value : DecisionStatus → String
  | .passed => "passed"
  | .rejected => "rejected"
  | .skipped => "skipped"
  | .ordered => "ordered"
  | .error => "error"

/-- `Decision`. -/
structure Decision where
  decisionId : String
  cycleId : String
  market : Market
  symbol : String
  timeframe : Option String
  stage : DecisionStage
  status : DecisionStatus
  reasonCode : String
  occurredAt : Instant
  candidateId : Option String
  strategyKey : Option String
  detail : String
  metrics : List (String × ℚ)
  deriving DecidableEq

/-- `str(value)` of a text or `None`. -/
def strOption (value : Option String) : String := value.getD "None"

/-- `Decision.create`. -/
def Decision.create (host : Host) (cycleId : String) (market : Market) (symbol : String)
    (timeframe : Option String) (stage : DecisionStage) (status : DecisionStatus) (reasonCode : String)
    (occurredAt : DateTime) (candidateId strategyKey : Option String) (detail : String)
    (metrics : List (String × ℚ)) : Except PyError Decision :=
  if cycleId = "" ∨ symbol = "" ∨ reasonCode = "" then
    .error (.valueError "cycle_id, symbol, and reason_code are required")
  else if ¬ (metrics.map Prod.fst).Nodup then
    .error (.valueError "decision metric names must be unique")
  else
    match utc occurredAt "occurred_at" with
    | .error e => .error e
    | .ok occurredAt =>
      let decisionId := stableId host
        [cycleId, market.value, symbol, strOption timeframe, stage.value, status.value, reasonCode,
          strOption candidateId, strOption strategyKey]
      .ok { decisionId, cycleId, market, symbol, timeframe, stage, status, reasonCode, occurredAt,
            candidateId, strategyKey, detail, metrics }

/-- `SignalCandidate`. -/
structure SignalCandidate where
  candidateId : String
  cycleId : String
  market : Market
  symbol : String
  timeframe : String
  strategyKey : String
  approvalId : String
  eventTime : Instant
  action : AdvisoryAction
  referencePrice : ℚ
  stopPrice : ℚ
  targetPrice : ℚ
  confidence : ℚ
  goldSnapshotIds : List String
  evidence : List (String × ℚ)
  deriving DecidableEq

/-- `SignalCandidate.__post_init__`: the candidate if its checks pass. -/
def SignalCandidate.checked (candidate : SignalCandidate) : Except PyError SignalCandidate :=
  if candidate.candidateId = "" ∨ candidate.cycleId = "" ∨ candidate.symbol = "" ∨ candidate.timeframe = "" ∨
      candidate.strategyKey = "" ∨ candidate.approvalId = "" ∨ candidate.goldSnapshotIds = [] then
    .error (.valueError "signal candidate identity and Gold lineage are required")
  else if candidate.action = .abstain then
    .error (.valueError "signal candidate action must be BUY or SELL")
  else if candidate.referencePrice ≤ 0 ∨ ¬ (0 ≤ candidate.confidence ∧ candidate.confidence ≤ 1) then
    .error (.valueError "signal candidate price or confidence is invalid")
  else if ¬ (candidate.evidence.map Prod.fst).Nodup then
    .error (.valueError "signal candidate evidence names must be unique")
  else .ok candidate

/-- `DecisionLedger`: the interface, for ledgers with states in `Λ`. -/
structure DecisionLedger (Λ : Type) where
  appendCandidate : SignalCandidate → Decision → EStateM PyError Λ Unit
  append : Decision → EStateM PyError Λ Unit

/-! ### The ledger in memory -/

/-- `InMemoryDecisionLedger`. -/
structure InMemoryDecisionLedger where
  decisions : Dict String Decision
  candidates : Dict String SignalCandidate

/-- The ledger as it is constructed. -/
def InMemoryDecisionLedger.new : InMemoryDecisionLedger := ⟨.empty, .empty⟩

namespace InMemoryDecisionLedger

/-- `InMemoryDecisionLedger.append`. -/
def append (decision : Decision) : EStateM PyError InMemoryDecisionLedger Unit := fun self =>
  match self.decisions.get? decision.decisionId with
  | some existing =>
    if existing ≠ decision then .error (.valueError "decision identity is immutable") self
    else .ok () { self with decisions := self.decisions.set decision.decisionId decision }
  | none => .ok () { self with decisions := self.decisions.set decision.decisionId decision }

/-- `InMemoryDecisionLedger.append_candidate`. -/
def appendCandidate (candidate : SignalCandidate) (decision : Decision) :
    EStateM PyError InMemoryDecisionLedger Unit := do
  let self ← get
  if ∃ existing ∈ self.candidates.get? candidate.candidateId, existing ≠ candidate then
    throw (.valueError "signal candidate identity is immutable")
  else if decision.candidateId ≠ some candidate.candidateId ∨ decision.cycleId ≠ candidate.cycleId then
    throw (.valueError "signal decision does not match candidate identity")
  else do
    modify fun self => { self with candidates := self.candidates.set candidate.candidateId candidate }
    append decision

/-- The ledger in memory, behind the interface. -/
def ledger : DecisionLedger InMemoryDecisionLedger := ⟨appendCandidate, append⟩

end InMemoryDecisionLedger

end NanoDelta.Decisions
