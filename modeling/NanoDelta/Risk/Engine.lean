import Mathlib.Algebra.Order.Field.Rat
import Mathlib.Algebra.BigOperators.Group.List.Basic
import NanoDelta.Strategies.Registry

/-!
# The risk engine

`risk/engine.py`: trade intents, portfolio snapshots and limits, and the pure
evaluation of an intent. `evaluate` decides entries; `evaluate_exit` decides
protective exits, which may only reduce one existing position.

The records carry what their `__post_init__` checks as fields, so a value of the
type is a value the constructor accepts.
-/

namespace NanoDelta.Risk

open Strategies

/-! ### Records -/

/-- `TradeIntent`. -/
structure TradeIntent where
  intentId : String
  market : Market
  accountId : String
  symbol : String
  action : AdvisoryAction
  quantity : ℚ
  referencePrice : ℚ
  eventTime : Instant
  candidateId : String
  approvalId : String
  identity : StrategyIdentity
  goldSnapshotIds : List String
  agentEvidenceId : Option String
  /-- `ABSTAIN` cannot become a trade intent. -/
  action_ne : action ≠ .abstain
  /-- The market is the strategy's. -/
  market_eq : market = identity.market
  /-- The account, the symbol and the Gold lineage are given. -/
  lineage : accountId ≠ "" ∧ symbol ≠ "" ∧ goldSnapshotIds ≠ []
  /-- The quantity is positive. -/
  quantity_pos : 0 < quantity
  /-- The reference price is positive. -/
  referencePrice_pos : 0 < referencePrice
  deriving DecidableEq

/-- The constructor of `TradeIntent`, with the checks of `__post_init__` in their order. -/
def TradeIntent.create (intentId : String) (market : Market) (accountId symbol : String)
    (action : AdvisoryAction) (quantity referencePrice : ℚ) (eventTime : DateTime)
    (candidateId approvalId : String) (identity : StrategyIdentity) (goldSnapshotIds : List String)
    (agentEvidenceId : Option String) : Except PyError TradeIntent :=
  if h₁ : action = .abstain then .error (.valueError "ABSTAIN cannot become a trade intent")
  else if h₂ : market ≠ identity.market then
    .error (.valueError "trade intent market must match strategy identity")
  else if h₃ : accountId = "" ∨ symbol = "" ∨ goldSnapshotIds = [] then
    .error (.valueError "account_id, symbol, and Gold lineage are required")
  else if h₄ : quantity ≤ 0 then .error (.valueError "quantity must be finite and positive")
  else if h₅ : referencePrice ≤ 0 then .error (.valueError "reference_price must be finite and positive")
  else
    match utc eventTime "event_time" with
    | .error e => .error e
    | .ok eventTime => .ok
      { intentId, market, accountId, symbol, action, quantity, referencePrice, eventTime, candidateId,
        approvalId, identity, goldSnapshotIds, agentEvidenceId,
        action_ne := h₁, market_eq := not_not.mp h₂, lineage := by simpa [not_or] using h₃,
        quantity_pos := not_le.mp h₄, referencePrice_pos := not_le.mp h₅ }

/-- The signed quantity of an order: `quantity` if it buys, `-quantity` if it sells. -/
def signed (action : AdvisoryAction) (quantity : ℚ) : ℚ := if action = .buy then quantity else -quantity

/-- The signed change an intent asks for. -/
def TradeIntent.delta (intent : TradeIntent) : ℚ := signed intent.action intent.quantity

/-- `PortfolioPosition`. -/
structure PortfolioPosition where
  market : Market
  accountId : String
  symbol : String
  signedQuantity : ℚ
  markPrice : ℚ
  deriving DecidableEq

/-- `PortfolioPosition.gross_notional`. -/
def PortfolioPosition.grossNotional (p : PortfolioPosition) : ℚ := |p.signedQuantity * p.markPrice|

/-- `PortfolioSnapshot`. -/
structure PortfolioSnapshot where
  snapshotId : String
  accountId : String
  equity : ℚ
  realizedPnlToday : ℚ
  positions : List PortfolioPosition
  capturedAt : Instant
  /-- The equity is positive. -/
  equity_pos : 0 < equity
  /-- The positions are of the snapshot's account. -/
  account : ∀ p ∈ positions, p.accountId = accountId
  deriving DecidableEq

/-- The constructor of `PortfolioSnapshot`, with the checks of `__post_init__` in their order. -/
def PortfolioSnapshot.create (snapshotId accountId : String) (equity realizedPnlToday : ℚ)
    (positions : List PortfolioPosition) (capturedAt : Instant) : Except PyError PortfolioSnapshot :=
  if h₁ : equity ≤ 0 then .error (.valueError "equity must be finite and positive")
  else if h₂ : ∃ p ∈ positions, p.accountId ≠ accountId then
    .error (.valueError "portfolio positions must belong to the snapshot account")
  else .ok
    { snapshotId, accountId, equity, realizedPnlToday, positions, capturedAt,
      equity_pos := not_le.mp h₁, account := by simpa using h₂ }

/-- `RiskLimits`. -/
@[ext] structure RiskLimits where
  maxOrderNotional : ℚ
  maxPositionNotional : ℚ
  maxMarketGrossExposure : ℚ
  maxTotalGrossExposure : ℚ
  maxDailyLoss : ℚ
  maxOpenPositions : ℕ
  maxSnapshotAgeSeconds : ℕ := 30
  /-- The amounts are positive. -/
  amounts_pos : 0 < maxOrderNotional ∧ 0 < maxPositionNotional ∧ 0 < maxMarketGrossExposure ∧
    0 < maxTotalGrossExposure ∧ 0 < maxDailyLoss
  /-- At least one position may be open. -/
  open_pos : 1 ≤ maxOpenPositions

instance : DecidableEq RiskLimits := fun _ _ => decidable_of_iff _ RiskLimits.ext_iff.symm

/-- `str(limits)`, the text of the dataclass. -/
def RiskLimits.text (host : Host) (limits : RiskLimits) : String :=
  "RiskLimits(max_order_notional=" ++ host.reprFloat limits.maxOrderNotional ++
    ", max_position_notional=" ++ host.reprFloat limits.maxPositionNotional ++
    ", max_market_gross_exposure=" ++ host.reprFloat limits.maxMarketGrossExposure ++
    ", max_total_gross_exposure=" ++ host.reprFloat limits.maxTotalGrossExposure ++
    ", max_daily_loss=" ++ host.reprFloat limits.maxDailyLoss ++
    ", max_open_positions=" ++ toString limits.maxOpenPositions ++
    ", max_snapshot_age_seconds=" ++ toString limits.maxSnapshotAgeSeconds ++ ")"

/-- `RiskDecisionState`. -/
inductive RiskDecisionState where
  | approved
  | rejected
  deriving DecidableEq

/-- `RiskDecisionState.value`. -/
def RiskDecisionState.value : RiskDecisionState → String
  | .approved => "APPROVED"
  | .rejected => "REJECTED"

/-- `RiskDecision`. -/
structure RiskDecision where
  decisionId : String
  intent : TradeIntent
  portfolioSnapshotId : String
  state : RiskDecisionState
  rejectionReasons : List String
  evaluatedAt : Instant
  limits : RiskLimits
  deriving DecidableEq

/-- `RiskDecision.approved`. -/
def RiskDecision.approved (decision : RiskDecision) : Bool := decision.state = .approved

/-! ### Exposure -/

/-- The position is in the market and symbol of the intent. -/
def TradeIntent.targets (intent : TradeIntent) (p : PortfolioPosition) : Bool :=
  p.market = intent.market && p.symbol = intent.symbol

/-- The first position in the market and symbol of the intent. -/
def target (intent : TradeIntent) (positions : List PortfolioPosition) : Option PortfolioPosition :=
  positions.find? intent.targets

/-- The signed quantity held before the order. -/
def currentSigned (intent : TradeIntent) (positions : List PortfolioPosition) : ℚ :=
  ((target intent positions).map PortfolioPosition.signedQuantity).getD 0

/-- The notional held before the order. -/
def currentNotional (intent : TradeIntent) (positions : List PortfolioPosition) : ℚ :=
  ((target intent positions).map PortfolioPosition.grossNotional).getD 0

/-- The signed quantity held after the order. -/
def projectedSigned (intent : TradeIntent) (positions : List PortfolioPosition) : ℚ :=
  currentSigned intent positions + intent.delta

/-- The notional held after the order, at its reference price. -/
def projectedNotional (intent : TradeIntent) (positions : List PortfolioPosition) : ℚ :=
  |projectedSigned intent positions * intent.referencePrice|

/-- The gross notional of all positions. -/
def totalGross (positions : List PortfolioPosition) : ℚ :=
  (positions.map PortfolioPosition.grossNotional).sum

/-- The gross notional of the positions in one market. -/
def marketGross (market : Market) (positions : List PortfolioPosition) : ℚ :=
  totalGross (positions.filter fun p => p.market = market)

/-- How many positions are open. -/
def existingOpen (positions : List PortfolioPosition) : ℕ :=
  positions.countP fun p => p.signedQuantity ≠ 0

/-- The order opens a position. -/
def opensNew (intent : TradeIntent) (positions : List PortfolioPosition) : Bool :=
  currentSigned intent positions = 0 && projectedSigned intent positions ≠ 0

/-! ### Evaluation -/

/-- `reasons.append(reason)` under a condition. -/
def reasonIf (condition : Prop) [Decidable condition] (reason : String) : List String :=
  if condition then [reason] else []

/-- The age of the snapshot, in seconds. -/
def snapshotAge (portfolio : PortfolioSnapshot) (evaluatedAt : Instant) : ℚ :=
  ((evaluatedAt - portfolio.capturedAt : ℤ) : ℚ) / 1000000

/-- The age of the snapshot is outside the limits. -/
def stale (limits : RiskLimits) (portfolio : PortfolioSnapshot) (evaluatedAt : Instant) : Prop :=
  snapshotAge portfolio evaluatedAt < 0 ∨ limits.maxSnapshotAgeSeconds < snapshotAge portfolio evaluatedAt

instance (limits : RiskLimits) (portfolio : PortfolioSnapshot) (t : Instant) :
    Decidable (stale limits portfolio t) := by
  unfold stale; infer_instance

/-- The approval is not the one the intent names. -/
def mismatched (intent : TradeIntent) (approval : StrategyApproval) : Prop :=
  approval.approvalId ≠ intent.approvalId ∨ approval.identity ≠ intent.identity

instance (intent : TradeIntent) (approval : StrategyApproval) : Decidable (mismatched intent approval) := by
  unfold mismatched; infer_instance

/-- The reasons `evaluate` collects, in its order. -/
def evaluateReasons (limits : RiskLimits) (intent : TradeIntent) (approval : StrategyApproval)
    (portfolio : PortfolioSnapshot) (evaluatedAt : Instant) : List String :=
  let positions := portfolio.positions
  (if mismatched intent approval then ["STRATEGY_APPROVAL_MISMATCH"]
    else reasonIf (approval.isCurrent evaluatedAt = false) "STRATEGY_APPROVAL_NOT_CURRENT") ++
  reasonIf (portfolio.accountId ≠ intent.accountId) "ACCOUNT_MISMATCH" ++
  reasonIf (stale limits portfolio evaluatedAt) "STALE_PORTFOLIO_SNAPSHOT" ++
  reasonIf (portfolio.realizedPnlToday ≤ -limits.maxDailyLoss) "DAILY_LOSS_LIMIT_REACHED" ++
  reasonIf (limits.maxOrderNotional < intent.quantity * intent.referencePrice) "ORDER_NOTIONAL_LIMIT_EXCEEDED" ++
  reasonIf (limits.maxPositionNotional < projectedNotional intent positions)
    "POSITION_NOTIONAL_LIMIT_EXCEEDED" ++
  reasonIf (limits.maxTotalGrossExposure <
      totalGross positions - currentNotional intent positions + projectedNotional intent positions)
    "TOTAL_GROSS_EXPOSURE_LIMIT_EXCEEDED" ++
  reasonIf (limits.maxMarketGrossExposure <
      marketGross intent.market positions - currentNotional intent positions + projectedNotional intent positions)
    "MARKET_GROSS_EXPOSURE_LIMIT_EXCEEDED" ++
  reasonIf (opensNew intent positions = true ∧ limits.maxOpenPositions ≤ existingOpen positions)
    "OPEN_POSITION_LIMIT_REACHED"

/-- The decision that a list of reasons gives. -/
def decisionOf (decisionId : String) (limits : RiskLimits) (intent : TradeIntent) (portfolio : PortfolioSnapshot)
    (reasons : List String) (evaluatedAt : Instant) : RiskDecision :=
  ⟨decisionId, intent, portfolio.snapshotId, if reasons = [] then .approved else .rejected, reasons,
    evaluatedAt, limits⟩

/-- `RiskEngine.evaluate`. -/
def evaluate (host : Host) (limits : RiskLimits) (intent : TradeIntent) (approval : StrategyApproval)
    (portfolio : PortfolioSnapshot) (evaluatedAt : DateTime) : Except PyError RiskDecision := do
  let evaluatedAt ← utc evaluatedAt "evaluated_at"
  let reasons := evaluateReasons limits intent approval portfolio evaluatedAt
  let decisionId := stableId host
    [intent.intentId, portfolio.snapshotId, isoformat evaluatedAt, limits.text host]
  return decisionOf decisionId limits intent portfolio reasons evaluatedAt

/-- The reasons `evaluate_exit` collects, in its order. -/
def evaluateExitReasons (limits : RiskLimits) (intent : TradeIntent) (portfolio : PortfolioSnapshot)
    (evaluatedAt : Instant) : List String :=
  reasonIf (portfolio.accountId ≠ intent.accountId) "ACCOUNT_MISMATCH" ++
  reasonIf (stale limits portfolio evaluatedAt) "STALE_PORTFOLIO_SNAPSHOT" ++
  match target intent portfolio.positions with
  | none => ["OPEN_POSITION_NOT_FOUND"]
  | some current =>
    if current.signedQuantity = 0 then ["OPEN_POSITION_NOT_FOUND"]
    else if 0 ≤ current.signedQuantity * intent.delta then ["EXIT_MUST_REDUCE_POSITION"]
    else reasonIf (|current.signedQuantity| < |intent.delta|) "EXIT_CANNOT_REVERSE_POSITION"

/-- `RiskEngine.evaluate_exit`. -/
def evaluateExit (host : Host) (limits : RiskLimits) (intent : TradeIntent) (portfolio : PortfolioSnapshot)
    (evaluatedAt : DateTime) : Except PyError RiskDecision := do
  let evaluatedAt ← utc evaluatedAt "evaluated_at"
  let reasons := evaluateExitReasons limits intent portfolio evaluatedAt
  let decisionId := stableId host
    ["protective-exit", intent.intentId, portfolio.snapshotId, isoformat evaluatedAt]
  return decisionOf decisionId limits intent portfolio reasons evaluatedAt

/-! ### Basic facts -/

theorem TradeIntent.delta_ne_zero (intent : TradeIntent) : intent.delta ≠ 0 := by
  have h := intent.quantity_pos
  unfold TradeIntent.delta signed
  split
  · exact h.ne'
  · exact neg_ne_zero.mpr h.ne'

theorem reasonIf_eq_nil {condition : Prop} [Decidable condition] {reason : String} :
    reasonIf condition reason = [] ↔ ¬ condition := by
  by_cases h : condition <;> simp [reasonIf, h]

theorem decisionOf_approved {decisionId : String} {limits : RiskLimits} {intent : TradeIntent}
    {portfolio : PortfolioSnapshot} {reasons : List String} {t : Instant} :
    (decisionOf decisionId limits intent portfolio reasons t).approved = true ↔ reasons = [] := by
  by_cases h : reasons = [] <;> simp [decisionOf, RiskDecision.approved, h]

/-- What `evaluate` returns is about the intent it was given. -/
theorem evaluate_ok {host : Host} {limits : RiskLimits} {intent : TradeIntent} {approval : StrategyApproval}
    {portfolio : PortfolioSnapshot} {evaluatedAt : DateTime} {decision : RiskDecision}
    (h : evaluate host limits intent approval portfolio evaluatedAt = .ok decision) :
    ∃ t, evaluatedAt = .aware t ∧ decision.intent = intent ∧
      (decision.approved = true ↔ evaluateReasons limits intent approval portfolio t = []) := by
  cases evaluatedAt with
  | naive w => cases h
  | aware t =>
    cases h
    exact ⟨t, rfl, rfl, decisionOf_approved⟩

/-- The id that `evaluate` gives a decision. -/
theorem decisionId_of_evaluate {host : Host} {limits : RiskLimits} {intent : TradeIntent}
    {approval : StrategyApproval} {portfolio : PortfolioSnapshot} {t : Instant} {decision : RiskDecision}
    (h : evaluate host limits intent approval portfolio (.aware t) = .ok decision) :
    decision.decisionId =
      stableId host [intent.intentId, portfolio.snapshotId, isoformat t, limits.text host] := by
  cases h
  rfl

/-- What `evaluate_exit` returns is about the intent it was given, under the id of an exit. -/
theorem evaluateExit_ok {host : Host} {limits : RiskLimits} {intent : TradeIntent} {portfolio : PortfolioSnapshot}
    {t : Instant} {decision : RiskDecision}
    (h : evaluateExit host limits intent portfolio (.aware t) = .ok decision) :
    decision.intent = intent ∧ decision.decisionId =
      stableId host ["protective-exit", intent.intentId, portfolio.snapshotId, isoformat t] := by
  cases h
  exact ⟨rfl, rfl⟩

/-! ### Sample values -/

namespace Sample

/-- 2026-08-15T12:00:00Z. -/
def noon : Instant := seconds 1786795200

/-- The same time, as a `datetime`. -/
def now : DateTime := .aware noon

def identity : StrategyIdentity :=
  ⟨.nse, "vwap_pullback", "1.0.0", "5m", "30m", 1, by decide, by decide⟩

def limits : RiskLimits where
  maxOrderNotional := 10000
  maxPositionNotional := 20000
  maxMarketGrossExposure := 50000
  maxTotalGrossExposure := 80000
  maxDailyLoss := 2000
  maxOpenPositions := 5
  amounts_pos := by decide
  open_pos := by decide

/-- An intent of the sample strategy for the account `paper-1`. -/
def intent (suffix symbol : String) (action : AdvisoryAction) (quantity referencePrice : ℚ)
    (h : action ≠ .abstain ∧ symbol ≠ "" ∧ 0 < quantity ∧ 0 < referencePrice) : TradeIntent where
  intentId := "intent-" ++ suffix
  market := .nse
  accountId := "paper-1"
  symbol := symbol
  action := action
  quantity := quantity
  referencePrice := referencePrice
  eventTime := noon
  candidateId := "candidate-" ++ suffix
  approvalId := "approval-1"
  identity := identity
  goldSnapshotIds := ["gold-" ++ suffix]
  agentEvidenceId := none
  action_ne := h.1
  market_eq := rfl
  lineage := ⟨by decide, h.2.1, by simp⟩
  quantity_pos := h.2.2.1
  referencePrice_pos := h.2.2.2

/-- An approved decision on an intent. -/
def decision (suffix : String) (intent : TradeIntent) : RiskDecision where
  decisionId := "decision-" ++ suffix
  intent := intent
  portfolioSnapshotId := "snapshot-1"
  state := .approved
  rejectionReasons := []
  evaluatedAt := noon
  limits := limits

end Sample

end NanoDelta.Risk
