import NanoDelta.Strategies.TechnicalFeatures

/-!
# The regime and the tradeability of a symbol

`strategies/symbol_regime.py` and `strategies/tradeability.py`: the trend score and the regime
label of a symbol from its technical values, how far two timeframes agree, and the screen that a
symbol passes before a strategy sees it.

* `classifyRegimeLabel_mem`: there are three labels.
-/

namespace NanoDelta.Strategies

open Library

/-- `features[name]`. -/
def featureValue (features : Dict String ℚ) (name : String) : Except PyError ℚ :=
  match features.get? name with
  | some value => .ok value
  | none => .error (.keyError name)

/-! ### Regime -/

/-- `SymbolRegimeLimits`. -/
structure SymbolRegimeLimits where
  adxNoTrend : ℚ
  adxStrongTrend : ℚ
  minimumFit : ℚ
  maximumFit : ℚ
  misalignedPenalty : ℚ := 7 / 10
  minimumVolumeRatio : ℚ := 8 / 10
  lowVolumePenalty : ℚ := 8 / 10
  compressionRangePct : ℚ := 3 / 100
  /-- The thresholds are positive and in order. -/
  adx_pos : 0 < adxNoTrend ∧ adxNoTrend < adxStrongTrend
  /-- So are the fits. -/
  fit_pos : 0 < minimumFit ∧ minimumFit < maximumFit
  /-- The penalties are fractions. -/
  penalties : (0 < misalignedPenalty ∧ misalignedPenalty ≤ 1) ∧ 0 < lowVolumePenalty ∧ lowVolumePenalty ≤ 1
  /-- The other settings are positive. -/
  settings_pos : 0 < minimumVolumeRatio ∧ 0 < compressionRangePct

/-- `build_symbol_regime_limits`, with nothing set in the environment. -/
def defaultSymbolRegimeLimits : SymbolRegimeLimits where
  adxNoTrend := 20
  adxStrongTrend := 35
  minimumFit := 4 / 10
  maximumFit := 12 / 10
  adx_pos := by decide +kernel
  fit_pos := by decide +kernel
  penalties := by decide +kernel
  settings_pos := by decide +kernel

/-- The part of the trend in the score, and its label. -/
def trendComponent (adx : ℚ) (limits : SymbolRegimeLimits) : ℚ × String :=
  if adx ≤ limits.adxNoTrend then (0, "NO_TREND")
  else if limits.adxStrongTrend ≤ adx then (1, "STRONG_TREND")
  else ((adx - limits.adxNoTrend) / (limits.adxStrongTrend - limits.adxNoTrend), "DEVELOPING_TREND")

/-- `evaluate_symbol_regime`. -/
def evaluateSymbolRegime (features : Dict String ℚ) (limits : SymbolRegimeLimits) : Except PyError (ℚ × String) := do
  let (trend, label) := trendComponent (← featureValue features "adx_14") limits
  let ema9 ← featureValue features "ema_9"
  let ema21 ← featureValue features "ema_21"
  let emaBullish : Bool := ema21 < ema9
  let supertrendBullish : Bool := 0 < (← featureValue features "supertrend_direction")
  let fit := limits.minimumFit + (limits.maximumFit - limits.minimumFit) * trend
  let (fit, label) :=
    if emaBullish ≠ supertrendBullish then (fit * limits.misalignedPenalty, label ++ "_MISALIGNED") else (fit, label)
  if (← featureValue features "volume_ratio_20") < limits.minimumVolumeRatio then
    return (fit * limits.lowVolumePenalty, label ++ "_LOW_VOLUME")
  else return (fit, label)

/-- The range of the last twenty bars is narrow. -/
def isCompressed (features : Dict String ℚ) (limits : SymbolRegimeLimits) : Bool :=
  match features.get? "range_high_20", features.get? "range_low_20", features.get? "close" with
  | some high, some low, some close => close ≠ 0 && (high - low) / close < limits.compressionRangePct
  | _, _, _ => false

/-- `classify_regime_label`. -/
def classifyRegimeLabel (features : Dict String ℚ) (limits : SymbolRegimeLimits) : Except PyError String :=
  if isCompressed features limits then .ok "COMPRESSION"
  else do
    let adx ← featureValue features "adx_14"
    return if adx < limits.adxNoTrend then "RANGING" else "TRENDING"

/-- There are three labels. -/
theorem classifyRegimeLabel_mem {features : Dict String ℚ} {limits : SymbolRegimeLimits} {label : String}
    (h : classifyRegimeLabel features limits = .ok label) : label ∈ ["COMPRESSION", "RANGING", "TRENDING"] := by
  unfold classifyRegimeLabel at h
  split_ifs at h
  · cases h
    simp
  · cases hadx : featureValue features "adx_14" with
    | error e => rw [hadx] at h; cases h
    | ok adx =>
      rw [hadx] at h
      cases h
      split_ifs
      · simp
      · simp

/-- `evaluate_mtf_alignment`. -/
def evaluateMtfAlignment : Option Bool → ℚ
  | none => 1
  | some true => 115 / 100
  | some false => 75 / 100

/-! ### Tradeability -/

/-- `TradeabilityLimits`. -/
structure TradeabilityLimits where
  minimumPrice : ℚ
  minimumAverageVolume : ℚ
  minimumAverageTradedValue : ℚ
  minimumAtrPct : ℚ
  maximumAtrPct : ℚ
  maximumGapPct : ℚ
  averageWindow : ℕ := 20
  maximumBarGapMultiple : ℚ := 3 / 2
  maximumRepricePct : ℚ := 30 / 100
  maximumSpreadPct : ℚ := 1 / 100
  circuitProximityPct : ℚ := 2 / 100
  /-- The limits are positive. -/
  limits_pos : 0 < minimumPrice ∧ 0 < minimumAverageVolume ∧ 0 < minimumAverageTradedValue ∧ 0 < minimumAtrPct ∧
    0 < maximumAtrPct ∧ 0 < maximumGapPct ∧ 0 < maximumRepricePct ∧ 0 < maximumSpreadPct ∧ 0 < circuitProximityPct
  /-- The range limits are in order. -/
  atr_lt : minimumAtrPct < maximumAtrPct
  /-- A window has at least two candles. -/
  window_ge : 2 ≤ averageWindow
  /-- A gap is longer than a bar. -/
  gap_gt : 1 < maximumBarGapMultiple

/-- `build_tradeability_limits`, with nothing set in the environment. -/
def defaultTradeabilityLimits : TradeabilityLimits where
  minimumPrice := 20
  minimumAverageVolume := 10000
  minimumAverageTradedValue := 1000000
  minimumAtrPct := 1 / 1000
  maximumAtrPct := 8 / 100
  maximumGapPct := 5 / 100
  limits_pos := by decide +kernel
  atr_lt := by decide +kernel
  window_ge := by decide
  gap_gt := by decide +kernel

/-- `_BAR_SECONDS`. -/
def barSeconds : String → Option ℤ
  | "1m" => some 60
  | "5m" => some 300
  | "15m" => some 900
  | "30m" => some 1800
  | "1h" => some 3600
  | "4h" => some 14400
  | "1d" => some 86400
  | _ => none

/-- What a quote adds to the screen. -/
structure QuoteScreen where
  circuitLimits : Option (ℚ × ℚ) := none
  bestBid : Option ℚ := none
  bestAsk : Option ℚ := none

/-- The distance of the last two candles is more than a bar and its tolerance. -/
def missingBar (limits : TradeabilityLimits) (timeframe : String) (latest previous : TechnicalCandle) : Bool :=
  match barSeconds timeframe with
  | none => false
  | some expected =>
    (expected : ℚ) * limits.maximumBarGapMultiple < ((latest.eventTime - previous.eventTime : ℤ) : ℚ) / 1000000

/-- The latest close is near a circuit limit. -/
def circuitReason (limits : TradeabilityLimits) (close : ℚ) : Option (ℚ × ℚ) → Option String
  | none => none
  | some (lower, upper) =>
    if 0 < lower ∧ lower < upper then
      if close - lower < (upper - lower) * limits.circuitProximityPct then some "NEAR_LOWER_CIRCUIT"
      else if upper - close < (upper - lower) * limits.circuitProximityPct then some "NEAR_UPPER_CIRCUIT"
      else none
    else none

/-- The best bid and the best ask are far apart. -/
def spreadTooWide (limits : TradeabilityLimits) (bestBid bestAsk : Option ℚ) : Bool :=
  match bestBid, bestAsk with
  | some bid, some ask => 0 < bid && bid < ask && limits.maximumSpreadPct < (ask - bid) / bid
  | _, _ => false

/-- `evaluate_tradeability`, with a timeframe. The prices of a candle are positive. -/
def evaluateTradeability (candles : List TechnicalCandle) (atr14 : ℚ) (limits : TradeabilityLimits) (timeframe : String)
    (screen : QuoteScreen) : Bool × String :=
  match (settledByTime candles).reverse with
  | latest :: previous :: earlier =>
    let window := ((latest :: previous :: earlier).take limits.averageWindow).reverse
    let averagePriorClose := mean (window.dropLast.map TechnicalCandle.close)
    if missingBar limits timeframe latest previous then (false, "MISSING_BAR_DETECTED")
    else if latest.close < limits.minimumPrice then (false, "BELOW_MINIMUM_PRICE")
    else if mean (window.map TechnicalCandle.volume) < limits.minimumAverageVolume then (false, "BELOW_MINIMUM_VOLUME")
    else if mean (window.map fun candle => candle.close * candle.volume) < limits.minimumAverageTradedValue then
      (false, "BELOW_MINIMUM_TRADED_VALUE")
    else if atr14 / latest.close < limits.minimumAtrPct then (false, "RANGE_TOO_TIGHT")
    else if limits.maximumAtrPct < atr14 / latest.close then (false, "RANGE_TOO_WIDE")
    else if limits.maximumGapPct < |latest.openPrice - previous.close| / previous.close then (false, "GAP_TOO_WIDE")
    else if limits.maximumRepricePct < |latest.close - averagePriorClose| / averagePriorClose then
      (false, "PRICE_DISCONTINUITY_SUSPECTED")
    else
      match circuitReason limits latest.close screen.circuitLimits with
      | some reason => (false, reason)
      | none =>
        if spreadTooWide limits screen.bestBid screen.bestAsk then (false, "SPREAD_TOO_WIDE") else (true, "TRADEABLE")
  | _ => (false, "INSUFFICIENT_HISTORY")

end NanoDelta.Strategies
