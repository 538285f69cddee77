import NanoDelta.Strategies.Registry

/-!
# The validation gates

`strategies/validation.py`: what the trades of a strategy amount to, and the thresholds that it has to meet
before it can be approved.
-/

namespace NanoDelta.Strategies

open Library

/-- `ValidationMetrics`. -/
structure ValidationMetrics where
  tradeCount : ℕ
  walkForwardWindows : ℕ
  profitableWindows : ℕ
  grossExpectancy : ℚ
  estimatedCostPerTrade : ℚ
  maximumDrawdown : ℚ
  pValue : ℚ
  testedHypotheses : ℕ
  deriving DecidableEq

/-- `ValidationMetrics.net_expectancy`. -/
def ValidationMetrics.netExpectancy (metrics : ValidationMetrics) : ℚ :=
  metrics.grossExpectancy - metrics.estimatedCostPerTrade

/-- `str(metrics)`. -/
def ValidationMetrics.text (host : Host) (metrics : ValidationMetrics) : String :=
  "ValidationMetrics(trade_count=" ++ toString metrics.tradeCount ++
    ", walk_forward_windows=" ++ toString metrics.walkForwardWindows ++
    ", profitable_windows=" ++ toString metrics.profitableWindows ++
    ", gross_expectancy=" ++ host.reprFloat metrics.grossExpectancy ++
    ", estimated_cost_per_trade=" ++ host.reprFloat metrics.estimatedCostPerTrade ++
    ", maximum_drawdown=" ++ host.reprFloat metrics.maximumDrawdown ++
    ", p_value=" ++ host.reprFloat metrics.pValue ++
    ", tested_hypotheses=" ++ toString metrics.testedHypotheses ++ ")"

namespace ValidationPolicy

theorem samples_ge : 1 ≤ 30 ∧ 1 ≤ 3 := by decide

theorem six_tenths_mem : (0 : ℚ) < 6 / 10 ∧ (6 / 10 : ℚ) ≤ 1 := by decide +kernel

theorem five_hundredths_mem : (0 : ℚ) < 5 / 100 ∧ (5 / 100 : ℚ) < 1 := by decide +kernel

end ValidationPolicy

/-- `ValidationPolicy`. -/
structure ValidationPolicy where
  minimumTrades : ℕ := 30
  minimumWalkForwardWindows : ℕ := 3
  minimumProfitableWindowRatio : ℚ := 6 / 10
  minimumNetExpectancy : ℚ := 0
  maximumDrawdown : ℚ := 25 / 100
  familyWiseAlpha : ℚ := 5 / 100
  /-- The sample sizes are positive. -/
  samples_pos : 1 ≤ minimumTrades ∧ 1 ≤ minimumWalkForwardWindows
  /-- The ratio is a positive fraction. -/
  ratio_mem : 0 < minimumProfitableWindowRatio ∧ minimumProfitableWindowRatio ≤ 1
  /-- The error rate is between zero and one. -/
  alpha_mem : 0 < familyWiseAlpha ∧ familyWiseAlpha < 1
  deriving DecidableEq

/-- `str(policy)`. -/
def ValidationPolicy.text (host : Host) (policy : ValidationPolicy) : String :=
  "ValidationPolicy(minimum_trades=" ++ toString policy.minimumTrades ++
    ", minimum_walk_forward_windows=" ++ toString policy.minimumWalkForwardWindows ++
    ", minimum_profitable_window_ratio=" ++ host.reprFloat policy.minimumProfitableWindowRatio ++
    ", minimum_net_expectancy=" ++ host.reprFloat policy.minimumNetExpectancy ++
    ", maximum_drawdown=" ++ host.reprFloat policy.maximumDrawdown ++
    ", family_wise_alpha=" ++ host.reprFloat policy.familyWiseAlpha ++ ")"

/-- `ValidationResult`. -/
structure ValidationResult where
  validationRunId : String
  identity : StrategyIdentity
  evaluatedAt : Instant
  passed : Bool
  rejectionReasons : List String
  metrics : ValidationMetrics
  policy : ValidationPolicy
  deriving DecidableEq

/-- The reasons of `validate_strategy`, in its order. -/
def rejectionsOf (metrics : ValidationMetrics) (policy : ValidationPolicy) : List String :=
  (if metrics.tradeCount < policy.minimumTrades then ["INSUFFICIENT_TRADES"] else []) ++
  (if metrics.walkForwardWindows < policy.minimumWalkForwardWindows then ["INSUFFICIENT_WALK_FORWARD_WINDOWS"]
    else if (metrics.profitableWindows : ℚ) / metrics.walkForwardWindows < policy.minimumProfitableWindowRatio then
      ["UNSTABLE_WALK_FORWARD_PERFORMANCE"]
    else []) ++
  (if metrics.netExpectancy ≤ policy.minimumNetExpectancy then ["NON_POSITIVE_COST_ADJUSTED_EXPECTANCY"] else []) ++
  (if policy.maximumDrawdown < metrics.maximumDrawdown then ["MAXIMUM_DRAWDOWN_EXCEEDED"] else []) ++
  (if policy.familyWiseAlpha / metrics.testedHypotheses < metrics.pValue then ["BONFERRONI_SIGNIFICANCE_FAILED"]
    else [])

/-- `validate_strategy`. -/
def validateStrategy (host : Host) (identity : StrategyIdentity) (metrics : ValidationMetrics)
    (policy : ValidationPolicy) (evaluatedAt : DateTime) : Except PyError ValidationResult :=
  if metrics.walkForwardWindows < 1 ∨ metrics.testedHypotheses < 1 then
    .error (.valueError "walk-forward windows and tested hypotheses must be positive")
  else if metrics.walkForwardWindows < metrics.profitableWindows then
    .error (.valueError "profitable_windows is outside the evaluated window count")
  else if metrics.estimatedCostPerTrade < 0 ∨ metrics.maximumDrawdown < 0 then
    .error (.valueError "cost and drawdown cannot be negative")
  else if ¬ (0 ≤ metrics.pValue ∧ metrics.pValue ≤ 1) then .error (.valueError "p_value must be in [0, 1]")
  else do
    let evaluatedAt ← utc evaluatedAt "evaluated_at"
    let reasons := rejectionsOf metrics policy
    return {
      validationRunId := stableId host [identity.key host, isoformat evaluatedAt, metrics.text host, policy.text host]
      identity, evaluatedAt
      passed := reasons.isEmpty
      rejectionReasons := reasons
      metrics, policy }

section Rules

variable {host : Host} {identity : StrategyIdentity} {metrics : ValidationMetrics} {policy : ValidationPolicy}
  {evaluatedAt : DateTime} {result : ValidationResult}

/-- A validation is of the metrics it is given, and has passed if there is no reason against it. -/
theorem of_validateStrategy (h : validateStrategy host identity metrics policy evaluatedAt = .ok result) :
    result.metrics = metrics ∧ result.rejectionReasons = rejectionsOf metrics policy ∧
      result.passed = (rejectionsOf metrics policy).isEmpty := by
  unfold validateStrategy at h
  split_ifs at h
  cases hutc : utc evaluatedAt "evaluated_at" with
  | error e =>
    rw [hutc] at h
    cases h
  | ok t =>
    rw [hutc] at h
    cases h
    exact ⟨rfl, rfl, rfl⟩

/-- With too few trades it has not passed. -/
theorem not_passed_of_few_trades (hfew : metrics.tradeCount < policy.minimumTrades)
    (h : validateStrategy host identity metrics policy evaluatedAt = .ok result) : result.passed = false := by
  rw [(of_validateStrategy h).2.2]
  simp [rejectionsOf, if_pos hfew]

end Rules

end NanoDelta.Strategies
