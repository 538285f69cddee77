import NanoDelta.Strategies.Runtime
import NanoDelta.Strategies.SymbolRegime

/-!
# The technical plugins

`strategies/technical.py`: nine strategies over the indicators of technical features, each for one label of the
regime of a symbol. They share their compatibility check and, all but one, the geometry of their signals.

* `of_compatible`: a context that a plugin is compatible with has one of its labels.
* `TechnicalStrategy.plugin_eq`: each plugin is for one of the labels that `classify_regime_label` gives.
* `TechnicalStrategy.incompatible_of_unknown`: none is compatible with a context without a label.
-/

namespace NanoDelta.Strategies

open Library

/-- `TECHNICAL_FEATURE_VERSION`. -/
def technicalFeatureVersion : ℕ := 2

/-! ### What they share -/

/-- `_compatibility`. -/
def technicalCompatibility (definition : StrategyDefinition) (required labels : List String)
    (context : StrategyContext) : Bool × String :=
  if context.market ≠ definition.identity.market then (false, "MARKET_MISMATCH")
  else if context.timeframe ≠ definition.identity.timeframe then (false, "TIMEFRAME_MISMATCH")
  else if context.tradeHorizon ≠ definition.identity.tradeHorizon then (false, "TRADE_HORIZON_MISMATCH")
  else if context.featureSetVersion ≠ definition.identity.featureSetVersion then (false, "FEATURE_VERSION_MISMATCH")
  else if ¬ required.all fun name => (context.features.get? name).isSome then (false, "REQUIRED_FEATURES_MISSING")
  else if context.regime.symbolRegimeLabel ∉ labels then (false, "REGIME_MISMATCH")
  else (true, "COMPATIBLE")

/-- `_signal`. -/
def technicalSignal (action : AdvisoryAction) (close atr stopAtr rewardRisk confidence : ℚ) :
    Except PyError StrategySignal :=
  let distance := max (atr * stopAtr) (close * (5 / 10000))
  let stop := if action = .buy then close - distance else close + distance
  let target := if action = .buy then close + distance * rewardRisk else close - distance * rewardRisk
  StrategySignal.create action (max 0 (min confidence (95 / 100))) close stop target (5 / 100) 0 0

/-- A plugin with these features, labels and rule. Its `generate` asks for compatibility once more. -/
def technicalPlugin (definition : StrategyDefinition) (required labels : List String)
    (rule : Dict String ℚ → Except PyError (Option StrategySignal)) : StrategyPlugin where
  definition := definition
  compatibility context := .ok (technicalCompatibility definition required labels context)
  generate context :=
    if (technicalCompatibility definition required labels context).1 then rule context.features else .ok none

/-- The side on which a close is outside of a range. -/
def breakAction (close high low : ℚ) : Option AdvisoryAction :=
  if high < close then some .buy else if close < low then some .sell else none

/-- The side of a range that a bar has touched and closed inside of. -/
def touchAction (close high low rangeHigh rangeLow tolerance : ℚ) : Option AdvisoryAction :=
  if low ≤ rangeLow * (1 + tolerance) ∧ rangeLow < close then some .buy
  else if rangeHigh * (1 - tolerance) ≤ high ∧ close < rangeHigh then some .sell
  else none

/-- The signal of an action, if there is one. -/
def signalOf (action : Option AdvisoryAction) (close atr stopAtr rewardRisk confidence : ℚ) :
    Except PyError (Option StrategySignal) :=
  match action with
  | none => .ok none
  | some action => (technicalSignal action close atr stopAtr rewardRisk confidence).map some

/-! ### Trending -/

/-- `VwapPullbackStrategy`. -/
structure VwapPullbackStrategy where
  definition : StrategyDefinition
  pullbackTolerance : ℚ := 15 / 10000
  minimumVolumeRatio : ℚ := 8 / 10
  stopAtr : ℚ := 12 / 10
  rewardRisk : ℚ := 15 / 10

/-- `VwapPullbackStrategy.generate`, for a context that is compatible. -/
def VwapPullbackStrategy.rule (self : VwapPullbackStrategy) (feature : Dict String ℚ) :
    Except PyError (Option StrategySignal) := do
  let close ← featureValue feature "close"
  let vwap ← featureValue feature "vwap"
  let ema ← featureValue feature "ema_21"
  let high ← featureValue feature "high"
  let low ← featureValue feature "low"
  let atr ← featureValue feature "atr_14"
  if (← featureValue feature "volume_ratio_20") < self.minimumVolumeRatio then return none
  else
    let action : Option AdvisoryAction :=
      if (vwap < close ∧ ema < close) ∧ low ≤ vwap * (1 + self.pullbackTolerance) then some .buy
      else if (close < vwap ∧ close < ema) ∧ vwap * (1 - self.pullbackTolerance) ≤ high then some .sell
      else none
    match action with
    | none => return none
    | some action => do
      let displacement ← divide |close - vwap| close
      let signal ← technicalSignal action close atr self.stopAtr self.rewardRisk
        (55 / 100 + min (displacement * 20) (2 / 10))
      return some signal

/-- `VwapPullbackStrategy`, as a plugin. -/
def VwapPullbackStrategy.plugin (self : VwapPullbackStrategy) : StrategyPlugin :=
  technicalPlugin self.definition ["close", "high", "low", "vwap", "ema_21", "atr_14", "volume_ratio_20"] ["TRENDING"]
    self.rule

/-- `EmaRsiContinuationStrategy`. -/
structure EmaRsiContinuationStrategy where
  definition : StrategyDefinition
  buyRsiMinimum : ℚ := 52
  buyRsiMaximum : ℚ := 70
  sellRsiMinimum : ℚ := 30
  sellRsiMaximum : ℚ := 48
  stopAtr : ℚ := 13 / 10
  rewardRisk : ℚ := 18 / 10

/-- `EmaRsiContinuationStrategy.generate`, for a context that is compatible. -/
def EmaRsiContinuationStrategy.rule (self : EmaRsiContinuationStrategy) (feature : Dict String ℚ) :
    Except PyError (Option StrategySignal) := do
  let close ← featureValue feature "close"
  let fast ← featureValue feature "ema_9"
  let slow ← featureValue feature "ema_21"
  let rsi ← featureValue feature "rsi_14"
  let atr ← featureValue feature "atr_14"
  let body ← featureValue feature "body_pct"
  let action : Option AdvisoryAction :=
    if slow < fast ∧ (self.buyRsiMinimum ≤ rsi ∧ rsi ≤ self.buyRsiMaximum) ∧ 0 < body then some .buy
    else if fast < slow ∧ (self.sellRsiMinimum ≤ rsi ∧ rsi ≤ self.sellRsiMaximum) ∧ body < 0 then some .sell
    else none
  match action with
  | none => return none
  | some action => do
    let separation ← divide |fast - slow| close
    let signal ← technicalSignal action close atr self.stopAtr self.rewardRisk
      (55 / 100 + min (separation * 30) (2 / 10))
    return some signal

/-- `EmaRsiContinuationStrategy`, as a plugin. -/
def EmaRsiContinuationStrategy.plugin (self : EmaRsiContinuationStrategy) : StrategyPlugin :=
  technicalPlugin self.definition ["close", "ema_9", "ema_21", "rsi_14", "atr_14", "body_pct"] ["TRENDING"] self.rule

/-- `SuperTrendAdxStrategy`. -/
structure SuperTrendAdxStrategy where
  definition : StrategyDefinition
  minimumAdx : ℚ := 25
  stopAtr : ℚ := 15 / 10
  rewardRisk : ℚ := 2

/-- `SuperTrendAdxStrategy.generate`, for a context that is compatible. -/
def SuperTrendAdxStrategy.rule (self : SuperTrendAdxStrategy) (feature : Dict String ℚ) :
    Except PyError (Option StrategySignal) := do
  let close ← featureValue feature "close"
  let trend ← featureValue feature "supertrend"
  let direction ← featureValue feature "supertrend_direction"
  let adx ← featureValue feature "adx_14"
  let atr ← featureValue feature "atr_14"
  if adx < self.minimumAdx then return none
  else
    let action : Option AdvisoryAction :=
      if 0 < direction ∧ trend < close then some .buy
      else if direction < 0 ∧ close < trend then some .sell
      else none
    signalOf action close atr self.stopAtr self.rewardRisk (55 / 100 + min ((adx - self.minimumAdx) / 100) (25 / 100))

/-- `SuperTrendAdxStrategy`, as a plugin. -/
def SuperTrendAdxStrategy.plugin (self : SuperTrendAdxStrategy) : StrategyPlugin :=
  technicalPlugin self.definition ["close", "supertrend", "supertrend_direction", "adx_14", "atr_14"] ["TRENDING"]
    self.rule

/-! ### Ranging -/

/-- `MeanReversionStrategy`. -/
structure MeanReversionStrategy where
  definition : StrategyDefinition
  oversoldRsi : ℚ := 30
  overboughtRsi : ℚ := 70
  minimumStretchAtr : ℚ := 15 / 10
  stopAtr : ℚ := 1
  baseConfidence : ℚ := 55 / 100

/-- The signal of `MeanReversionStrategy`, back to the mean; there is none if the mean is not beyond the close. -/
def MeanReversionStrategy.signal (self : MeanReversionStrategy) (action : AdvisoryAction) (close atr mean : ℚ) :
    Except PyError (Option StrategySignal) :=
  let distance := max (self.stopAtr * atr) (close * (5 / 10000))
  let stop := if action = .buy then close - distance else close + distance
  if action = .buy ∧ ¬ (stop < close ∧ close < mean) then .ok none
  else if action = .sell ∧ ¬ (mean < close ∧ close < stop) then .ok none
  else
    let confidence := self.baseConfidence + min (|(close - mean) / atr| * (5 / 100)) (2 / 10)
    (StrategySignal.create action (max 0 (min confidence (95 / 100))) close stop mean (5 / 100) 0 0).map some

/-- `MeanReversionStrategy.generate`, for a context that is compatible. -/
def MeanReversionStrategy.rule (self : MeanReversionStrategy) (feature : Dict String ℚ) :
    Except PyError (Option StrategySignal) := do
  let close ← featureValue feature "close"
  let rsi ← featureValue feature "rsi_14"
  let atr ← featureValue feature "atr_14"
  let mean ← featureValue feature "ema_21"
  if atr ≤ 0 then return none
  else if rsi ≤ self.oversoldRsi ∧ (close - mean) / atr ≤ -self.minimumStretchAtr then self.signal .buy close atr mean
  else if self.overboughtRsi ≤ rsi ∧ self.minimumStretchAtr ≤ (close - mean) / atr then self.signal .sell close atr mean
  else return none

/-- `MeanReversionStrategy`, as a plugin. -/
def MeanReversionStrategy.plugin (self : MeanReversionStrategy) : StrategyPlugin :=
  technicalPlugin self.definition ["close", "rsi_14", "atr_14", "ema_21"] ["RANGING"] self.rule

/-- `RangeReversalStrategy`. -/
structure RangeReversalStrategy where
  definition : StrategyDefinition
  touchTolerancePct : ℚ := 2 / 1000
  stopAtr : ℚ := 1
  rewardRisk : ℚ := 15 / 10
  confidence : ℚ := 55 / 100

/-- `RangeReversalStrategy.generate`, for a context that is compatible. -/
def RangeReversalStrategy.rule (self : RangeReversalStrategy) (feature : Dict String ℚ) :
    Except PyError (Option StrategySignal) := do
  let close ← featureValue feature "close"
  let high ← featureValue feature "high"
  let low ← featureValue feature "low"
  let rangeHigh ← featureValue feature "range_high_20"
  let rangeLow ← featureValue feature "range_low_20"
  let atr ← featureValue feature "atr_14"
  signalOf (touchAction close high low rangeHigh rangeLow self.touchTolerancePct) close atr self.stopAtr self.rewardRisk
    self.confidence

/-- `RangeReversalStrategy`, as a plugin. -/
def RangeReversalStrategy.plugin (self : RangeReversalStrategy) : StrategyPlugin :=
  technicalPlugin self.definition ["close", "high", "low", "range_high_20", "range_low_20", "atr_14"] ["RANGING"]
    self.rule

/-- `SupportReversalStrategy`. -/
structure SupportReversalStrategy where
  definition : StrategyDefinition
  touchTolerancePct : ℚ := 15 / 10000
  minimumVolumeRatio : ℚ := 12 / 10
  stopAtr : ℚ := 8 / 10
  rewardRisk : ℚ := 13 / 10
  confidence : ℚ := 55 / 100

/-- `SupportReversalStrategy.generate`, for a context that is compatible. -/
def SupportReversalStrategy.rule (self : SupportReversalStrategy) (feature : Dict String ℚ) :
    Except PyError (Option StrategySignal) := do
  if (← featureValue feature "volume_ratio_20") < self.minimumVolumeRatio then return none
  else
    let close ← featureValue feature "close"
    let high ← featureValue feature "high"
    let low ← featureValue feature "low"
    let rangeHigh ← featureValue feature "range_high_10"
    let rangeLow ← featureValue feature "range_low_10"
    let atr ← featureValue feature "atr_14"
    signalOf (touchAction close high low rangeHigh rangeLow self.touchTolerancePct) close atr self.stopAtr
      self.rewardRisk self.confidence

/-- `SupportReversalStrategy`, as a plugin. -/
def SupportReversalStrategy.plugin (self : SupportReversalStrategy) : StrategyPlugin :=
  technicalPlugin self.definition
    ["close", "high", "low", "range_high_10", "range_low_10", "atr_14", "volume_ratio_20"] ["RANGING"] self.rule

/-! ### Compression -/

/-- `BreakoutStrategy`. -/
structure BreakoutStrategy where
  definition : StrategyDefinition
  minimumVolumeRatio : ℚ := 13 / 10
  stopAtr : ℚ := 12 / 10
  rewardRisk : ℚ := 2
  confidence : ℚ := 55 / 100

/-- `BreakoutStrategy.generate`, for a context that is compatible. -/
def BreakoutStrategy.rule (self : BreakoutStrategy) (feature : Dict String ℚ) :
    Except PyError (Option StrategySignal) := do
  if (← featureValue feature "volume_ratio_20") < self.minimumVolumeRatio then return none
  else
    let close ← featureValue feature "close"
    let high ← featureValue feature "range_high_20"
    let low ← featureValue feature "range_low_20"
    let atr ← featureValue feature "atr_14"
    signalOf (breakAction close high low) close atr self.stopAtr self.rewardRisk self.confidence

/-- `BreakoutStrategy`, as a plugin. -/
def BreakoutStrategy.plugin (self : BreakoutStrategy) : StrategyPlugin :=
  technicalPlugin self.definition ["close", "range_high_20", "range_low_20", "atr_14", "volume_ratio_20"]
    ["COMPRESSION"] self.rule

/-- `OpeningRangeBreakoutStrategy`. -/
structure OpeningRangeBreakoutStrategy where
  definition : StrategyDefinition
  stopAtr : ℚ := 1
  rewardRisk : ℚ := 18 / 10
  confidence : ℚ := 6 / 10

/-- `OpeningRangeBreakoutStrategy.generate`, for a context that is compatible. -/
def OpeningRangeBreakoutStrategy.rule (self : OpeningRangeBreakoutStrategy) (feature : Dict String ℚ) :
    Except PyError (Option StrategySignal) := do
  let close ← featureValue feature "close"
  let high ← featureValue feature "opening_range_high"
  let low ← featureValue feature "opening_range_low"
  let atr ← featureValue feature "atr_14"
  signalOf (breakAction close high low) close atr self.stopAtr self.rewardRisk self.confidence

/-- `OpeningRangeBreakoutStrategy`, as a plugin. -/
def OpeningRangeBreakoutStrategy.plugin (self : OpeningRangeBreakoutStrategy) : StrategyPlugin :=
  technicalPlugin self.definition ["close", "opening_range_high", "opening_range_low", "atr_14"] ["COMPRESSION"]
    self.rule

/-- `VolumeBreakoutStrategy`. -/
structure VolumeBreakoutStrategy where
  definition : StrategyDefinition
  minimumVolumeRatio : ℚ := 2
  stopAtr : ℚ := 1
  rewardRisk : ℚ := 18 / 10
  confidence : ℚ := 55 / 100

/-- `VolumeBreakoutStrategy.generate`, for a context that is compatible. -/
def VolumeBreakoutStrategy.rule (self : VolumeBreakoutStrategy) (feature : Dict String ℚ) :
    Except PyError (Option StrategySignal) := do
  if (← featureValue feature "volume_ratio_20") < self.minimumVolumeRatio then return none
  else
    let close ← featureValue feature "close"
    let high ← featureValue feature "range_high_5"
    let low ← featureValue feature "range_low_5"
    let atr ← featureValue feature "atr_14"
    signalOf (breakAction close high low) close atr self.stopAtr self.rewardRisk self.confidence

/-- `VolumeBreakoutStrategy`, as a plugin. -/
def VolumeBreakoutStrategy.plugin (self : VolumeBreakoutStrategy) : StrategyPlugin :=
  technicalPlugin self.definition ["close", "range_high_5", "range_low_5", "atr_14", "volume_ratio_20"]
    ["COMPRESSION"] self.rule

/-! ### The strategies -/

/-- `TechnicalStrategy`. -/
inductive TechnicalStrategy where
  | vwapPullback (strategy : VwapPullbackStrategy)
  | emaRsiContinuation (strategy : EmaRsiContinuationStrategy)
  | superTrendAdx (strategy : SuperTrendAdxStrategy)
  | meanReversion (strategy : MeanReversionStrategy)
  | rangeReversal (strategy : RangeReversalStrategy)
  | supportReversal (strategy : SupportReversalStrategy)
  | breakout (strategy : BreakoutStrategy)
  | openingRangeBreakout (strategy : OpeningRangeBreakoutStrategy)
  | volumeBreakout (strategy : VolumeBreakoutStrategy)

/-- The strategy as a plugin. -/
def TechnicalStrategy.plugin : TechnicalStrategy → StrategyPlugin
  | .vwapPullback strategy => strategy.plugin
  | .emaRsiContinuation strategy => strategy.plugin
  | .superTrendAdx strategy => strategy.plugin
  | .meanReversion strategy => strategy.plugin
  | .rangeReversal strategy => strategy.plugin
  | .supportReversal strategy => strategy.plugin
  | .breakout strategy => strategy.plugin
  | .openingRangeBreakout strategy => strategy.plugin
  | .volumeBreakout strategy => strategy.plugin

/-- `_definition`. -/
def technicalDefinition (market : Market) (strategyId timeframe family : String) (parameters : List (String × String))
    (implementation : String)
    (texts : isBlank strategyId = false ∧ isBlank timeframe = false := by decide) : StrategyDefinition where
  identity := ⟨market, strategyId, "1.0.0", timeframe, "intraday", technicalFeatureVersion,
    ⟨texts.1, by decide, texts.2, by decide⟩, by decide⟩
  family := family
  parameters := parameters
  implementationRef := "nanodelta.strategies.technical:" ++ implementation

/-- `technical_strategies`. -/
def technicalStrategies : List TechnicalStrategy :=
  let vwap (market : Market) := technicalDefinition market "vwap_pullback" "5m" "mean_reversion"
    [("pullback_tolerance", "0.0015"), ("minimum_volume_ratio", "0.8")] "VwapPullbackStrategy"
  let emaRsi (market : Market) := technicalDefinition market "ema_rsi_continuation" "15m" "momentum"
    [("ema_fast", "9"), ("ema_slow", "21"), ("rsi_period", "14")] "EmaRsiContinuationStrategy"
  let superTrend (market : Market) (timeframe : String) (h : isBlank timeframe = false) :=
    technicalDefinition market "supertrend_adx" timeframe "trend"
      [("atr_period", "14"), ("atr_multiplier", "3"), ("adx_period", "14")] "SuperTrendAdxStrategy" ⟨by decide, h⟩
  let meanReversion := technicalDefinition .nse "mean_reversion_rsi" "15m" "mean_reversion_rsi"
    [("oversold_rsi", "30"), ("overbought_rsi", "70")] "MeanReversionStrategy"
  let rangeReversal := technicalDefinition .nse "range_reversal" "15m" "range_reversal"
    [("range_period", "20"), ("touch_tolerance_pct", "0.002")] "RangeReversalStrategy"
  let supportReversal := technicalDefinition .nse "support_reversal" "15m" "support_reversal"
    [("range_period", "10"), ("minimum_volume_ratio", "1.2")] "SupportReversalStrategy"
  let breakout := technicalDefinition .nse "breakout" "15m" "breakout"
    [("range_period", "20"), ("minimum_volume_ratio", "1.3")] "BreakoutStrategy"
  let openingRange := technicalDefinition .nse "opening_range_breakout" "15m" "orb"
    [("opening_range_minutes", "15")] "OpeningRangeBreakoutStrategy"
  let volumeBreakout := technicalDefinition .nse "volume_breakout" "15m" "volume_breakout"
    [("range_period", "5"), ("minimum_volume_ratio", "2.0")] "VolumeBreakoutStrategy"
  [.vwapPullback { definition := vwap .nse }, .vwapPullback { definition := vwap .crypto },
   .emaRsiContinuation { definition := emaRsi .nse }, .emaRsiContinuation { definition := emaRsi .forex },
   .emaRsiContinuation { definition := emaRsi .crypto },
   .superTrendAdx { definition := superTrend .nse "15m" (by decide) },
   .superTrendAdx { definition := superTrend .forex "1h" (by decide) },
   .superTrendAdx { definition := superTrend .crypto "15m" (by decide) },
   .meanReversion { definition := meanReversion }, .rangeReversal { definition := rangeReversal },
   .supportReversal { definition := supportReversal }, .breakout { definition := breakout },
   .openingRangeBreakout { definition := openingRange }, .volumeBreakout { definition := volumeBreakout }]

/-! ### Labels -/

section Labels

variable {definition : StrategyDefinition} {required labels : List String}
  {rule : Dict String ℚ → Except PyError (Option StrategySignal)} {context : StrategyContext}

/-- A context that is compatible has the strategy's market, timeframe and horizon, and one of its labels. -/
theorem of_compatible (h : (technicalCompatibility definition required labels context).1 = true) :
    (context.market = definition.identity.market ∧ context.timeframe = definition.identity.timeframe ∧
      context.tradeHorizon = definition.identity.tradeHorizon ∧
      context.featureSetVersion = definition.identity.featureSetVersion) ∧
      context.regime.symbolRegimeLabel ∈ labels := by
  unfold technicalCompatibility at h
  split_ifs at h with hmarket htimeframe hhorizon hversion _ hlabel
  exact ⟨⟨not_not.mp hmarket, not_not.mp htimeframe, not_not.mp hhorizon, not_not.mp hversion⟩, hlabel⟩

/-- A label that the plugin does not take: it does not signal. -/
theorem incompatible_of_label (h : context.regime.symbolRegimeLabel ∉ labels) :
    (technicalCompatibility definition required labels context).1 = false := by
  by_contra hcompatible
  exact h (of_compatible (Bool.not_eq_false _ ▸ hcompatible)).2

end Labels

/-- Every plugin is made of features, of one label that a regime can have, and of a rule. -/
theorem TechnicalStrategy.plugin_eq (strategy : TechnicalStrategy) :
    ∃ required rule, ∃ label ∈ ["COMPRESSION", "RANGING", "TRENDING"],
      strategy.plugin = technicalPlugin strategy.plugin.definition required [label] rule := by
  cases strategy
  all_goals exact ⟨_, _, _, by decide, rfl⟩

/-- Without a label, no plugin is compatible. -/
theorem TechnicalStrategy.incompatible_of_unknown (strategy : TechnicalStrategy) {context : StrategyContext}
    (h : context.regime.symbolRegimeLabel = "UNKNOWN") :
    ∃ reason, strategy.plugin.compatibility context = .ok (false, reason) := by
  obtain ⟨required, rule, label, hlabel, heq⟩ := strategy.plugin_eq
  have hnot : context.regime.symbolRegimeLabel ∉ [label] := by
    intro hmem
    rw [h] at hmem
    rw [← List.mem_singleton.mp hmem] at hlabel
    exact absurd hlabel (by decide)
  rw [heq]
  refine ⟨(technicalCompatibility strategy.plugin.definition required [label] context).2, ?_⟩
  exact congrArg Except.ok (Prod.ext (incompatible_of_label hnot) rfl)

end NanoDelta.Strategies
