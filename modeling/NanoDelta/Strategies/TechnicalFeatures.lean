import Mathlib.Algebra.Order.Field.Rat
import Mathlib.Data.List.Sort
import Mathlib.Data.List.TakeDrop
import NanoDelta.Contracts
import NanoDelta.Library.Dict

/-!
# Technical features

`strategies/technical_features.py`: indicators of a series of settled candles, and a snapshot of
them at every candle at which all of them have warmed up. An indicator is a list with a value, or
nothing, for each candle of the series.

* `length_seeded`: a smoothed series is as long as the series it smooths.
-/

namespace NanoDelta.Strategies

open Library

/-! ### Candles -/

/-- `TechnicalCandle`. -/
@[ext] structure TechnicalCandle where
  eventTime : Instant
  openPrice : ℚ
  high : ℚ
  low : ℚ
  close : ℚ
  volume : ℚ
  settled : Bool := true
  /-- The offset from UTC of the time zone of its time. -/
  utcOffset : ℤ := 0
  /-- The prices are positive. -/
  prices_pos : 0 < openPrice ∧ 0 < close ∧ 0 < low
  /-- The open and the close are between the low and the high. -/
  range : max openPrice close ≤ high ∧ low ≤ min openPrice close
  /-- The volume is not negative. -/
  volume_nonneg : 0 ≤ volume

instance : DecidableEq TechnicalCandle := fun _ _ => decidable_of_iff _ TechnicalCandle.ext_iff.symm

/-- The constructor of `TechnicalCandle` for a time in UTC, with the checks of `__post_init__` in their order. -/
def TechnicalCandle.create (eventTime : DateTime) (openPrice high low close volume : ℚ) (settled : Bool) :
    Except PyError TechnicalCandle :=
  match eventTime with
  | .naive _ => .error (.valueError "technical candle timestamp must be timezone-aware")
  | .aware eventTime =>
    if h₁ : openPrice ≤ 0 ∨ close ≤ 0 ∨ low ≤ 0 ∨ high < low then
      .error (.valueError "technical candle prices are invalid")
    else if h₂ : high < max openPrice close ∨ min openPrice close < low then
      .error (.valueError "technical candle OHLC is inconsistent")
    else if h₃ : volume < 0 then .error (.valueError "technical candle volume cannot be negative")
    else .ok
      { eventTime, openPrice, high, low, close, volume, settled
        prices_pos := by
          obtain ⟨hopen, hclose, hlow, -⟩ := by simpa only [not_or, not_le] using h₁
          exact ⟨hopen, hclose, hlow⟩
        range := by simpa only [not_or, not_lt] using h₂
        volume_nonneg := nonneg_of_not_neg h₃ }

/-- `candle.event_time.date()`, as a day counted from the epoch. -/
def TechnicalCandle.date (candle : TechnicalCandle) : ℤ := (candle.eventTime + candle.utcOffset) / seconds 86400

/-! ### Averages -/

/-- A smoothed series: nothing before the period is full, then the mean of the first values, which every later value
updates. -/
def seeded (period : ℕ) (update : ℚ → ℚ → ℚ) (values : List ℚ) : List (Option ℚ) :=
  if values.length < period then List.replicate values.length none
  else List.replicate (period - 1) none ++
    ((values.drop period).scanl update ((values.take period).sum / period)).map some

/-- `_ema`. -/
def ema (period : ℕ) : List ℚ → List (Option ℚ) :=
  seeded period fun current value => current + 2 / (period + 1) * (value - current)

/-- `_wilder`. -/
def wilder (period : ℕ) : List ℚ → List (Option ℚ) :=
  seeded period fun current value => (current * (period - 1) + value) / period

/-- A smoothed series is as long as the series that it smooths. -/
theorem length_seeded {period : ℕ} (hperiod : 1 ≤ period) (update : ℚ → ℚ → ℚ) (values : List ℚ) :
    (seeded period update values).length = values.length := by
  unfold seeded
  split_ifs with h
  · exact List.length_replicate
  · simp only [List.length_append, List.length_replicate, List.length_map, List.length_scanl, List.length_drop]
    omega

/-! ### Relative strength -/

/-- The change from each value to the next one. -/
def changes (values : List ℚ) : List ℚ := List.zipWith (fun previous current => current - previous) values values.tail

/-- The strength of an average gain against an average loss. -/
def strength : Option ℚ → Option ℚ → Option ℚ
  | some gain, some loss => some (if loss = 0 then 100 else 100 - 100 / (1 + gain / loss))
  | _, _ => none

/-- `_rsi`. -/
def rsi (closes : List ℚ) (period : ℕ) : List (Option ℚ) :=
  match closes with
  | [] => []
  | _ :: _ =>
    let gains := wilder period ((changes closes).map fun change => max change 0)
    let losses := wilder period ((changes closes).map fun change => max (-change) 0)
    none :: List.zipWith strength gains losses

/-! ### Ranges and directional movement -/

/-- The candles, each with the one before it; the first with itself. -/
def withPrevious : List TechnicalCandle → List (TechnicalCandle × TechnicalCandle)
  | [] => []
  | candle :: candles => (candle, candle) :: (candle :: candles).zip candles

/-- The true range of a candle after the one before it. -/
def trueRange (previous candle : TechnicalCandle) : ℚ :=
  max (max (candle.high - candle.low) |candle.high - previous.close|) |candle.low - previous.close|

/-- The upward movement. Of the first candle, which is after itself, it is zero. -/
def positiveMove (previous candle : TechnicalCandle) : ℚ :=
  let up := candle.high - previous.high
  let down := previous.low - candle.low
  if down < up ∧ 0 < up then up else 0

/-- The downward movement. -/
def negativeMove (previous candle : TechnicalCandle) : ℚ :=
  let up := candle.high - previous.high
  let down := previous.low - candle.low
  if up < down ∧ 0 < down then down else 0

/-- The directional index from the smoothed range and movements. -/
def directionalIndex : Option ℚ × Option ℚ × Option ℚ → Option ℚ
  | (some averageRange, plus, minus) =>
    if averageRange = 0 then none
    else
      let plusDi := 100 * plus.getD 0 / averageRange
      let minusDi := 100 * minus.getD 0 / averageRange
      some (if plusDi + minusDi = 0 then 0 else 100 * |plusDi - minusDi| / (plusDi + minusDi))
  | _ => none

/-- The values of a second series, in its order, at the places where the first one has a value. -/
def spread : List (Option ℚ) → List (Option ℚ) → List (Option ℚ)
  | some _ :: slots, value :: values => value :: spread slots values
  | _ :: slots, values => none :: spread slots values
  | [], _ => []

/-- `_atr_adx`. The average of the directional index is over the candles that have one, with the rule of `_wilder`. -/
def atrAdx (candles : List TechnicalCandle) (atrPeriod adxPeriod : ℕ) : List (Option ℚ) × List (Option ℚ) :=
  let pairs := withPrevious candles
  let ranges := pairs.map fun e => trueRange e.1 e.2
  let directionalRange := wilder adxPeriod ranges
  let plus := wilder adxPeriod (pairs.map fun e => positiveMove e.1 e.2)
  let minus := wilder adxPeriod (pairs.map fun e => negativeMove e.1 e.2)
  let dx := (directionalRange.zip (plus.zip minus)).map directionalIndex
  (wilder atrPeriod ranges, spread dx (wilder adxPeriod (dx.filterMap id)))

/-! ### The super trend -/

/-- The variables of the loop of `_supertrend`. -/
structure TrendState where
  upper : Option ℚ := none
  lower : Option ℚ := none
  previousTrend : Option ℚ := none

/-- One candle with an average range: the trend and the bands after it. -/
def trendStep (multiplier : ℚ) (state : TrendState) (previousClose : ℚ) (candle : TechnicalCandle) (averageRange : ℚ) :
    ℚ × TrendState :=
  let midpoint := (candle.high + candle.low) / 2
  let basicUpper := midpoint + multiplier * averageRange
  let basicLower := midpoint - multiplier * averageRange
  let upper := match state.upper with
    | none => basicUpper
    | some upper => if basicUpper < upper ∨ upper < previousClose then basicUpper else upper
  let lower := match state.lower with
    | none => basicLower
    | some lower => if lower < basicLower ∨ previousClose < lower then basicLower else lower
  let trend := match state.previousTrend with
    | none => if midpoint ≤ candle.close then lower else upper
    | some previousTrend =>
      if some previousTrend = state.upper then if upper < candle.close then lower else upper
      else if candle.close < lower then upper else lower
  (trend, ⟨some upper, some lower, some trend⟩)

/-- The loop of `_supertrend`, over pairs of candles and their average ranges. -/
def trendLoop (multiplier : ℚ) (state : TrendState) :
    List ((TechnicalCandle × TechnicalCandle) × Option ℚ) → List (Option (ℚ × ℚ))
  | [] => []
  | (_, none) :: rest => none :: trendLoop multiplier state rest
  | ((previous, candle), some averageRange) :: rest =>
    let (trend, state) := trendStep multiplier state previous.close candle averageRange
    some (trend, if trend < candle.close then 1 else -1) :: trendLoop multiplier state rest

/-- `_supertrend`: the trend and its direction. -/
def supertrend (candles : List TechnicalCandle) (atr : List (Option ℚ)) (multiplier : ℚ) : List (Option (ℚ × ℚ)) :=
  trendLoop multiplier {} ((withPrevious candles).zip atr)

/-! ### Sessions -/

/-- The variables of the loop of `_session_values`. -/
structure SessionState where
  session : Option ℤ := none
  weighted : ℚ := 0
  volume : ℚ := 0

/-- The state of the session with one more candle. -/
def SessionState.add (state : SessionState) (candle : TechnicalCandle) : SessionState :=
  let state := if state.session = some candle.date then state else ⟨some candle.date, 0, 0⟩
  { state with
    weighted := state.weighted + (candle.high + candle.low + candle.close) / 3 * candle.volume
    volume := state.volume + candle.volume }

/-- The volume weighted average price of the session so far. -/
def SessionState.vwap (state : SessionState) : Option ℚ :=
  if 0 < state.volume then some (state.weighted / state.volume) else none

/-- The first part of `_session_values`: the average prices. -/
def vwaps (candles : List TechnicalCandle) : List (Option ℚ) :=
  ((candles.scanl SessionState.add {}).tail).map SessionState.vwap

/-- The last `period` candles up to an index. -/
def windowUpTo (candles : List TechnicalCandle) (period index : ℕ) : List TechnicalCandle :=
  (candles.take (index + 1)).drop (index + 1 - period)

/-- The mean of a list. -/
def mean (values : List ℚ) : ℚ := values.sum / values.length

/-- The second part of `_session_values`: the volumes against their average. -/
def volumeRatios (candles : List TechnicalCandle) (period : ℕ) : List (Option ℚ) :=
  candles.mapIdx fun index candle =>
    let average := mean ((windowUpTo candles period index).map TechnicalCandle.volume)
    if 0 < average then some (candle.volume / average) else none

/-! ### Ranges of prices -/

/-- The greatest of some values. -/
def maximum : List ℚ → Option ℚ
  | [] => none
  | value :: values => some (values.foldl max value)

/-- The least of some values. -/
def minimum : List ℚ → Option ℚ
  | [] => none
  | value :: values => some (values.foldl min value)

/-- `_rolling_range`: the high and the low of the `period` candles before each one. -/
def rollingRange (candles : List TechnicalCandle) (period : ℕ) : List (Option ℚ × Option ℚ) :=
  candles.mapIdx fun index _ =>
    if index < period then (none, none)
    else
      let window := (candles.take index).drop (index - period)
      (maximum (window.map TechnicalCandle.high), minimum (window.map TechnicalCandle.low))

/-- `_NSE_SESSION_OPEN_UTC_SECONDS`. -/
def nseSessionOpenUtcSeconds : ℤ := 3 * 3600 + 45 * 60

/-- `_opening_range`: the high and the low of the first minutes of the session, after they are over. -/
def openingRange (candles : List TechnicalCandle) (minutes : ℤ) : List (Option ℚ × Option ℚ) :=
  candles.mapIdx fun index candle =>
    let sessionOpen := candle.date * seconds 86400 - candle.utcOffset + seconds nseSessionOpenUtcSeconds
    let windowEnd := sessionOpen + seconds (60 * minutes)
    let window := (candles.take index).filter fun prior =>
      prior.date = candle.date ∧ sessionOpen ≤ prior.eventTime ∧ prior.eventTime < windowEnd
    if window ≠ [] ∧ windowEnd ≤ candle.eventTime then
      (maximum (window.map TechnicalCandle.high), minimum (window.map TechnicalCandle.low))
    else (none, none)

/-! ### Snapshots -/

/-- `TechnicalFeatureSnapshot`. -/
structure TechnicalFeatureSnapshot where
  eventTime : Instant
  values : Dict String ℚ
  featureSetVersion : ℕ := 2

/-- The periods of the indicators. -/
structure TechnicalPeriods where
  rsiPeriod : ℕ := 14
  atrPeriod : ℕ := 14
  adxPeriod : ℕ := 14
  supertrendMultiplier : ℚ := 3

/-- The value of a series at an index. -/
def valueAt (series : List (Option ℚ)) (index : ℕ) : Option ℚ := (series[index]?).join

/-- Set a key, if there is a value for it. -/
def setSome (values : Dict String ℚ) (e : String × Option ℚ) : Dict String ℚ :=
  match e.2 with
  | some value => values.set e.1 value
  | none => values

/-- The series of the indicators of a list of candles, by name: those that a snapshot needs, and those that it may
have. -/
def indicatorSeries (candles : List TechnicalCandle) (periods : TechnicalPeriods) :
    List (String × List (Option ℚ)) × List (String × List (Option ℚ)) :=
  let closes := candles.map TechnicalCandle.close
  let (atr, adx) := atrAdx candles periods.atrPeriod periods.adxPeriod
  let trend := supertrend candles atr periods.supertrendMultiplier
  let range20 := rollingRange candles 20
  let range10 := rollingRange candles 10
  let range5 := rollingRange candles 5
  let opening := openingRange candles 15
  ([("ema_9", ema 9 closes), ("ema_21", ema 21 closes), ("rsi_14", rsi closes periods.rsiPeriod), ("atr_14", atr),
    ("adx_14", adx), ("supertrend", trend.map fun e => e.map Prod.fst),
    ("supertrend_direction", trend.map fun e => e.map Prod.snd), ("vwap", vwaps candles),
    ("volume_ratio_20", volumeRatios candles 20)],
   [("range_high_20", range20.map Prod.fst), ("range_low_20", range20.map Prod.snd),
    ("range_high_10", range10.map Prod.fst), ("range_low_10", range10.map Prod.snd),
    ("range_high_5", range5.map Prod.fst), ("range_low_5", range5.map Prod.snd),
    ("opening_range_high", opening.map Prod.fst), ("opening_range_low", opening.map Prod.snd)])

/-- The values of a candle itself. -/
def candleValues (candle : TechnicalCandle) : Dict String ℚ :=
  (((Dict.empty.set "close" candle.close).set "high" candle.high).set "low" candle.low).set "body_pct"
    ((candle.close - candle.openPrice) / candle.openPrice)

/-- The snapshot at a candle, if all indicators that it needs have warmed up. -/
def snapshotAt (needed optional : List (String × List (Option ℚ))) (index : ℕ) (candle : TechnicalCandle) :
    Option TechnicalFeatureSnapshot :=
  let indicators := needed.map fun e => (e.1, valueAt e.2 index)
  if indicators.any fun e => e.2.isNone then none
  else
    let values := indicators.foldl setSome (candleValues candle)
    some { eventTime := candle.eventTime
           values := (optional.map fun e => (e.1, valueAt e.2 index)).foldl setSome values }

/-- The settled candles, by time. -/
def settledByTime (candles : List TechnicalCandle) : List TechnicalCandle :=
  (candles.filter fun candle => candle.settled).insertionSort fun a b => a.eventTime ≤ b.eventTime

/-- `materialize_technical_features`. -/
def materializeTechnicalFeatures (candles : List TechnicalCandle) (periods : TechnicalPeriods) :
    Except PyError (List TechnicalFeatureSnapshot) :=
  if periods.rsiPeriod < 2 ∨ periods.atrPeriod < 2 ∨ periods.adxPeriod < 2 ∨ periods.supertrendMultiplier ≤ 0 then
    .error (.valueError "technical feature periods and multiplier are invalid")
  else
    let ordered := settledByTime candles
    let (needed, optional) := indicatorSeries ordered periods
    .ok ((ordered.mapIdx (snapshotAt needed optional)).filterMap id)

end NanoDelta.Strategies
