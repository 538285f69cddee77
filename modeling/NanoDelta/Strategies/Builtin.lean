import NanoDelta.Strategies.Runtime

/-!
# The built-in strategy

`strategies/builtin.py`: momentum continuation, one per market. It trades in the
direction of the last bar when the return and the body of the bar agree, with the
stop one bar range away.
-/

namespace NanoDelta.Strategies

/-- `MomentumContinuationStrategy`. -/
structure MomentumContinuationStrategy where
  definition : StrategyDefinition
  minimumReturn : ℚ := 1 / 1000
  minimumBody : ℚ := 1 / 2000
  stopRangeMultiple : ℚ := 1
  rewardRisk : ℚ := 3 / 2

namespace MomentumContinuationStrategy

/-- `context.features[name]`. -/
def feature (context : StrategyContext) (name : String) : Except PyError ℚ :=
  match context.features.get? name with
  | some value => .ok value
  | none => .error (.keyError name)

/-- `MomentumContinuationStrategy.compatibility`. -/
def compatibility (context : StrategyContext) : Except PyError (Bool × String) :=
  if ["close", "return_1", "range_pct", "body_pct"].all fun name => (context.features.get? name).isSome then
    .ok (true, "COMPATIBLE")
  else .ok (false, "REQUIRED_FEATURES_MISSING")

/-- `MomentumContinuationStrategy.generate`. -/
def generate (self : MomentumContinuationStrategy) (context : StrategyContext) :
    Except PyError (Option StrategySignal) := do
  let close ← feature context "close"
  let change ← feature context "return_1"
  let body ← feature context "body_pct"
  if |change| < self.minimumReturn ∨ |body| < self.minimumBody then return none
  else if change * body ≤ 0 then return none
  else do
    let range ← feature context "range_pct"
    let distance := close * max range (1 / 2000) * self.stopRangeMultiple
    let confidence := min (95 / 100) (1 / 2 + |change| * 20 + |body| * 10)
    let signal ←
      if 0 < change then
        StrategySignal.create .buy confidence close (close - distance) (close + distance * self.rewardRisk)
          (1 / 20) 0 0
      else
        StrategySignal.create .sell confidence close (close + distance) (close - distance * self.rewardRisk)
          (1 / 20) 0 0
    return some signal

/-- The strategy as a plugin. -/
def plugin (self : MomentumContinuationStrategy) : StrategyPlugin :=
  ⟨self.definition, compatibility, self.generate⟩

end MomentumContinuationStrategy

/-- The identity of the built-in strategy of a market. -/
def momentumIdentity (market : Market) : StrategyIdentity :=
  ⟨market, "momentum_continuation", "1.0.0", "1m", "intraday", 1, by decide, Nat.one_pos⟩

/-- The definition of the built-in strategy of a market. -/
def momentumDefinition (market : Market) : StrategyDefinition where
  identity := momentumIdentity market
  family := "momentum"
  parameters := [("minimum_return", "0.001"), ("minimum_body", "0.0005"), ("stop_range_multiple", "1.0"),
    ("reward_risk", "1.5")]
  implementationRef := "nanodelta.strategies.builtin:MomentumContinuationStrategy"

/-- `builtin_strategies`. -/
def builtinStrategies : List MomentumContinuationStrategy :=
  [Market.nse, Market.forex, Market.crypto].map fun market => { definition := momentumDefinition market }

end NanoDelta.Strategies
