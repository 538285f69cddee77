import NanoDelta.Records
import NanoDelta.Runtime.PaperDecision
import NanoDelta.Strategies.SymbolRegime

/-!
# Technical readings

`runtime/technical_context.py`, and the readings of `_technical_context` and `_mtf_alignment` of the
paper decision service: what is known of a symbol from its newest settled candles in Silver, in the
timeframe of a row and in the next one up.

* `fetchSettledCandles_congr`, `technicalReading_congr`: candles of other series change nothing.
-/

namespace NanoDelta.Runtime

open Library Strategies

/-! ### Candles -/

/-- `CANDLE_WINDOW`. -/
def candleWindow : ℕ := 100

/-- The settled candles of a series. -/
def seriesOf (silver : List CanonicalCandle) (market : Market) (symbol timeframe : String) : List CanonicalCandle :=
  silver.filter fun c => c.market = market ∧ c.symbol = symbol ∧ c.timeframe = timeframe ∧ c.isSettled = true

/-- The candle as the indicators see it. -/
def technicalCandle (candle : CanonicalCandle) : Except PyError TechnicalCandle :=
  TechnicalCandle.create (.aware candle.openTime) candle.openPrice candle.high candle.low candle.close candle.volume true

/-- The newest candles of a series, the latest one first. -/
def newestCandles (silver : List CanonicalCandle) (market : Market) (symbol timeframe : String) :
    List CanonicalCandle :=
  ((seriesOf silver market symbol timeframe).insertionSort fun a b => b.openTime ≤ a.openTime).take candleWindow

/-- `fetch_settled_candles`. -/
def fetchSettledCandles (silver : List CanonicalCandle) (market : Market) (symbol timeframe : String) :
    Except PyError (List TechnicalCandle) := (newestCandles silver market symbol timeframe).mapM technicalCandle

/-- `latest_technical_snapshot`. -/
def latestTechnicalSnapshot (silver : List CanonicalCandle) (market : Market) (symbol timeframe : String) :
    Except PyError (Option (Dict String ℚ × List TechnicalCandle)) := do
  let candles ← fetchSettledCandles silver market symbol timeframe
  if candles = [] then return none
  else do
    let snapshots ← materializeTechnicalFeatures candles {}
    return snapshots.getLast?.map fun snapshot => (snapshot.values, candles)

/-- `latest_technical_features`. -/
def latestTechnicalFeatures (silver : List CanonicalCandle) (market : Market) (symbol timeframe : String) :
    Except PyError (Option (Dict String ℚ)) := do
  let snapshot ← latestTechnicalSnapshot silver market symbol timeframe
  return snapshot.map Prod.fst

/-! ### Readings -/

/-- `_HIGHER_TIMEFRAME`. -/
def higherTimeframe : String → Option String
  | "1m" => some "5m"
  | "5m" => some "15m"
  | "15m" => some "1h"
  | "30m" => some "1h"
  | "1h" => some "1d"
  | _ => none

/-- The fast average is above the slow one. -/
def isBullish (values : Dict String ℚ) : Except PyError Bool := do
  let ema9 ← featureValue values "ema_9"
  let ema21 ← featureValue values "ema_21"
  return decide (ema21 < ema9)

/-- `_mtf_alignment`. -/
def mtfAlignment (silver : List CanonicalCandle) (feature : FeatureRecord) (values : Dict String ℚ) :
    Except PyError ℚ :=
  match higherTimeframe feature.timeframe with
  | none => .ok (evaluateMtfAlignment none)
  | some higher => do
    match ← latestTechnicalFeatures silver feature.market feature.symbol higher with
    | none => return evaluateMtfAlignment none
    | some higherValues =>
      let current ← isBullish values
      let higher ← isBullish higherValues
      return evaluateMtfAlignment (some (current = higher))

/-- `QuoteSnapshot`. -/
structure QuoteSnapshot where
  upperCircuitLimit : ℚ
  lowerCircuitLimit : ℚ
  bestBid : Option ℚ
  bestAsk : Option ℚ

/-- What the screen takes from the quote of a symbol. -/
def screenOf : Option QuoteSnapshot → QuoteScreen
  | none => {}
  | some quote => ⟨some (quote.lowerCircuitLimit, quote.upperCircuitLimit), quote.bestBid, quote.bestAsk⟩

/-- The settings of the readings. -/
structure ReadingLimits where
  tradeability : TradeabilityLimits
  symbolRegime : SymbolRegimeLimits

/-- The part of `_technical_context` that reads the timeframe of the row, its values first. -/
def ownReading (silver : List CanonicalCandle) (limits : ReadingLimits) (quote : Option QuoteSnapshot)
    (feature : FeatureRecord) : Except PyError (Option (Dict String ℚ × (Bool × String) × ℚ × String)) := do
  match ← latestTechnicalSnapshot silver feature.market feature.symbol feature.timeframe with
  | none => return none
  | some (values, candles) =>
    let atr14 ← featureValue values "atr_14"
    let screened := evaluateTradeability candles atr14 limits.tradeability feature.timeframe (screenOf quote)
    let (symbolFit, _) ← evaluateSymbolRegime values limits.symbolRegime
    let label ← classifyRegimeLabel values limits.symbolRegime
    return some (values, screened, symbolFit, label)

/-- What `_technical_context` reads of candles and quotes for a row. -/
def technicalReading (silver : List CanonicalCandle) (limits : ReadingLimits) (quote : Option QuoteSnapshot)
    (feature : FeatureRecord) : Except PyError (Option TechnicalReading) := do
  match ← ownReading silver limits quote feature with
  | none => return none
  | some (values, screened, symbolFit, label) =>
    let alignment ← mtfAlignment silver feature values
    return some ⟨values, screened.1, screened.2, symbolFit, alignment, label⟩

/-! ### Candles of other series -/

section Series

variable {silver : List CanonicalCandle}

/-- Silver in which a series has the same candles. -/
theorem fetchSettledCandles_congr {silver' : List CanonicalCandle} {market : Market} {symbol timeframe : String}
    (h : seriesOf silver' market symbol timeframe = seriesOf silver market symbol timeframe) :
    fetchSettledCandles silver' market symbol timeframe = fetchSettledCandles silver market symbol timeframe := by
  unfold fetchSettledCandles newestCandles
  rw [h]

theorem latestTechnicalSnapshot_congr {silver' : List CanonicalCandle} {market : Market} {symbol timeframe : String}
    (h : seriesOf silver' market symbol timeframe = seriesOf silver market symbol timeframe) :
    latestTechnicalSnapshot silver' market symbol timeframe = latestTechnicalSnapshot silver market symbol timeframe := by
  unfold latestTechnicalSnapshot
  rw [fetchSettledCandles_congr h]

/-- A reading is made of the series of the row and of its series in the next timeframe up. -/
theorem technicalReading_congr {silver' : List CanonicalCandle} {limits : ReadingLimits} {quote : Option QuoteSnapshot}
    {feature : FeatureRecord}
    (hown : seriesOf silver' feature.market feature.symbol feature.timeframe =
      seriesOf silver feature.market feature.symbol feature.timeframe)
    (hhigher : ∀ higher ∈ higherTimeframe feature.timeframe,
      seriesOf silver' feature.market feature.symbol higher = seriesOf silver feature.market feature.symbol higher) :
    technicalReading silver' limits quote feature = technicalReading silver limits quote feature := by
  have hreading : ownReading silver' limits quote feature = ownReading silver limits quote feature := by
    unfold ownReading
    rw [latestTechnicalSnapshot_congr hown]
  have hmtf : ∀ values, mtfAlignment silver' feature values = mtfAlignment silver feature values := by
    intro values
    unfold mtfAlignment
    cases hh : higherTimeframe feature.timeframe with
    | none => rfl
    | some higher =>
      dsimp only
      unfold latestTechnicalFeatures
      rw [latestTechnicalSnapshot_congr (hhigher higher hh)]
  unfold technicalReading
  simp only [hreading, hmtf]

end Series

end NanoDelta.Runtime
