import NanoDelta.Library.Machine
import NanoDelta.Strategies.TechnicalFeatures

/-!
# The band of the super trend

`strategies/technical_features.py`, `_supertrend`. The loop keeps two bands and the trend, which is one of them, but not
which one: before each candle it takes the trend for the upper band if the two numbers are equal. This module compares
the loop with one that keeps the band.

* `trend_agrees_iff`: the two give the same trend for every series and every average range just if no candle is
  misread: the bands were equal, the trend was the lower one, and the new close does not settle which band is next.
* `flat_market_misread`: an average range of zero makes the bands equal; the trend goes to the other band at the second
  candle after a flat market.
-/

namespace NanoDelta.Strategies

open Library

/-! ### The reference -/

/-- The band that is the trend. -/
inductive Band where
  | upper
  | lower
deriving DecidableEq

/-- The two bands, and which one is the trend. -/
structure Bands where
  upper : ℚ
  lower : ℚ
  current : Band
deriving DecidableEq

namespace Bands

/-- The trend: the current band. -/
def trend (bands : Bands) : ℚ :=
  match bands.current with
  | .upper => bands.upper
  | .lower => bands.lower

end Bands

/-- A candle after the one before it, and its average range. -/
abbrev TrendInput := (TechnicalCandle × TechnicalCandle) × Option ℚ

/-- The middle of a candle. -/
def TechnicalCandle.midpoint (candle : TechnicalCandle) : ℚ := (candle.high + candle.low) / 2

/-- The upper band after a candle: it comes down with the basic band, and starts again after a close above it. -/
def nextUpper (multiplier previousClose : ℚ) (candle : TechnicalCandle) (averageRange : ℚ) : Option ℚ → ℚ
  | none => candle.midpoint + multiplier * averageRange
  | some upper =>
    if candle.midpoint + multiplier * averageRange < upper ∨ upper < previousClose then
      candle.midpoint + multiplier * averageRange
    else upper

/-- The lower band after a candle. -/
def nextLower (multiplier previousClose : ℚ) (candle : TechnicalCandle) (averageRange : ℚ) : Option ℚ → ℚ
  | none => candle.midpoint - multiplier * averageRange
  | some lower =>
    if lower < candle.midpoint - multiplier * averageRange ∨ previousClose < lower then
      candle.midpoint - multiplier * averageRange
    else lower

/-- The current band after a close: the upper one is left by a close above it, the lower one by a close below it. -/
def Band.next (upper lower close : ℚ) : Band → Band
  | .upper => if upper < close then .lower else .upper
  | .lower => if close < lower then .upper else .lower

/-- The bands after a candle with an average range. -/
def Bands.after (multiplier : ℚ) (bands : Option Bands) (previous candle : TechnicalCandle) (averageRange : ℚ) : Bands :=
  let upper := nextUpper multiplier previous.close candle averageRange (bands.map Bands.upper)
  let lower := nextLower multiplier previous.close candle averageRange (bands.map Bands.lower)
  ⟨upper, lower, match bands with
    | none => if candle.midpoint ≤ candle.close then .lower else .upper
    | some bands => bands.current.next upper lower candle.close⟩

/-- The super trend that keeps the current band. -/
def flagged (multiplier : ℚ) : Machine (Option Bands) TrendInput (Option ℚ) where
  step
    | bands, (_, none) => (bands, none)
    | bands, ((previous, candle), some averageRange) =>
      let bands := Bands.after multiplier bands previous candle averageRange
      (some bands, some bands.trend)

/-! ### The loop -/

/-- A turn of the loop of `_supertrend`. -/
def trendMachine (multiplier : ℚ) : Machine TrendState TrendInput (Option (ℚ × ℚ)) where
  step
    | state, (_, none) => (state, none)
    | state, ((previous, candle), some averageRange) =>
      let (trend, state) := trendStep multiplier state previous.close candle averageRange
      (state, some (trend, if trend < candle.close then 1 else -1))

/-- The loop is a run of its turns. -/
theorem trendLoop_eq_outputs (multiplier : ℚ) (state : TrendState) (inputs : List TrendInput) :
    trendLoop multiplier state inputs = (trendMachine multiplier).outputs state inputs := by
  induction inputs generalizing state with
  | nil => rfl
  | cons input inputs ih =>
    obtain ⟨⟨previous, candle⟩, averageRange⟩ := input
    cases averageRange with
    | none => exact congrArg _ (ih _)
    | some averageRange => exact congrArg _ (ih _)

/-- The trend that the loop takes after a candle, from the bands after it and the trend and the upper band before. -/
def takenTrend (upper lower : ℚ) (candle : TechnicalCandle) (previousUpper : Option ℚ) : Option ℚ → ℚ
  | none => if candle.midpoint ≤ candle.close then lower else upper
  | some previousTrend =>
    if some previousTrend = previousUpper then if upper < candle.close then lower else upper
    else if candle.close < lower then upper else lower

/-- The bands of the loop are those of the reference. -/
theorem trendStep_eq (multiplier : ℚ) (state : TrendState) (previousClose : ℚ) (candle : TechnicalCandle)
    (averageRange : ℚ) :
    trendStep multiplier state previousClose candle averageRange =
      (takenTrend (nextUpper multiplier previousClose candle averageRange state.upper)
          (nextLower multiplier previousClose candle averageRange state.lower) candle state.upper state.previousTrend,
        ⟨some (nextUpper multiplier previousClose candle averageRange state.upper),
          some (nextLower multiplier previousClose candle averageRange state.lower),
          some (takenTrend (nextUpper multiplier previousClose candle averageRange state.upper)
            (nextLower multiplier previousClose candle averageRange state.lower) candle state.upper
            state.previousTrend)⟩) := by
  obtain ⟨upper, lower, previousTrend⟩ := state
  cases upper <;> cases lower <;> cases previousTrend <;> rfl

/-! ### The candles that the loop misreads -/

/-- What the loop keeps of the bands. -/
def TrendState.ofBands : Option Bands → TrendState
  | none => {}
  | some bands => ⟨some bands.upper, some bands.lower, some bands.trend⟩

/-- With the bands `upper` and `lower` after it, a close is misread as one after the upper band: the band that a trend at
the upper band would take is another number than the one that a trend at the lower band takes. -/
def Ambiguous (upper lower close : ℚ) : Prop :=
  upper < close ∧ close < lower ∨ close ≤ upper ∧ lower ≤ close ∧ lower ≠ upper

/-- The loop misreads a candle: the bands before it are equal, the lower one is current, and the close is ambiguous. -/
def Misread (multiplier : ℚ) : Option Bands → TrendInput → Prop
  | some bands, ((previous, candle), some averageRange) =>
    bands.upper = bands.lower ∧ bands.current = .lower ∧
      Ambiguous (nextUpper multiplier previous.close candle averageRange (some bands.upper))
        (nextLower multiplier previous.close candle averageRange (some bands.lower)) candle.close
  | _, _ => False

/-- The two bands that a close leads to are the same number just if the close is not ambiguous. -/
theorem trend_next_eq_iff (upper lower close : ℚ) :
    (if upper < close then lower else upper) = (if close < lower then upper else lower) ↔
      ¬Ambiguous upper lower close := by
  unfold Ambiguous
  split_ifs with hupper hlower hlower <;> grind

/-- The trend after a candle is the band that the reference names. -/
theorem trend_after (multiplier : ℚ) (bands : Bands) (previous candle : TechnicalCandle) (averageRange : ℚ) :
    (Bands.after multiplier (some bands) previous candle averageRange).trend =
      match bands.current with
      | .upper =>
        if nextUpper multiplier previous.close candle averageRange (some bands.upper) < candle.close then
          nextLower multiplier previous.close candle averageRange (some bands.lower)
        else nextUpper multiplier previous.close candle averageRange (some bands.upper)
      | .lower =>
        if candle.close < nextLower multiplier previous.close candle averageRange (some bands.lower) then
          nextUpper multiplier previous.close candle averageRange (some bands.upper)
        else nextLower multiplier previous.close candle averageRange (some bands.lower) := by
  obtain ⟨upper, lower, current⟩ := bands
  cases current with
  | upper =>
    simp only [Bands.after, Bands.trend, Band.next, Option.map_some]
    split_ifs <;> rfl
  | lower =>
    simp only [Bands.after, Bands.trend, Band.next, Option.map_some]
    split_ifs <;> rfl

/-- The trend that the loop takes is that of the reference just if it does not misread the candle. -/
theorem taken_eq_trend_iff (multiplier : ℚ) (bands : Option Bands) (previous candle : TechnicalCandle)
    (averageRange : ℚ) :
    (trendStep multiplier (.ofBands bands) previous.close candle averageRange).1 =
        (Bands.after multiplier bands previous candle averageRange).trend ↔
      ¬Misread multiplier bands ((previous, candle), some averageRange) := by
  rw [trendStep_eq]
  cases bands with
  | none =>
    -- the first trend is chosen the same way
    refine iff_of_true ?_ id
    simp only [TrendState.ofBands, takenTrend, Bands.after, Bands.trend, Option.map_none]
    split_ifs <;> rfl
  | some bands =>
    rw [trend_after]
    obtain ⟨upper, lower, current⟩ := bands
    cases current with
    | upper =>
      -- a trend at the upper band equals it
      refine iff_of_true ?_ ?_
      · simp only [TrendState.ofBands, takenTrend, Bands.trend, if_true]
        rfl
      · simp [Misread]
    | lower =>
      by_cases hband : upper = lower
      · subst hband
        simp only [TrendState.ofBands, takenTrend, Bands.trend, if_true, Misread, true_and]
        exact trend_next_eq_iff ..
      · refine iff_of_true ?_ ?_
        · have hlower : ¬some lower = some upper := by simpa using Ne.symm hband
          simp only [TrendState.ofBands, takenTrend, Bands.trend, hlower, if_false]
          rfl
        · simp [Misread, hband]

/-- The bands of the loop after a candle are those of the reference. -/
theorem trendStep_ofBands {multiplier : ℚ} {bands : Option Bands} {previous candle : TechnicalCandle} {averageRange : ℚ}
    (h : ¬Misread multiplier bands ((previous, candle), some averageRange)) :
    trendStep multiplier (.ofBands bands) previous.close candle averageRange =
      ((Bands.after multiplier bands previous candle averageRange).trend,
        .ofBands (some (Bands.after multiplier bands previous candle averageRange))) := by
  have htrend := (taken_eq_trend_iff multiplier bands previous candle averageRange).mpr h
  rw [trendStep_eq] at htrend ⊢
  simp only at htrend
  rw [htrend]
  cases bands <;> rfl

/-- **The super trend keeps no band**: for every series of candles and average ranges, the trends of `_supertrend` are
those of the algorithm that keeps which band is current just if no candle of the series is misread. A candle is misread
when the two bands before it are the same number, the lower one is current, and its close is above the upper and below
the lower band after it, or between the lower and the upper band after it and these differ. -/
theorem trend_agrees_iff (multiplier : ℚ) (candles : List TechnicalCandle) (atr : List (Option ℚ)) :
    (supertrend candles atr multiplier).map (Option.map Prod.fst) =
        (flagged multiplier).outputs none ((withPrevious candles).zip atr) ↔
      (flagged multiplier).Along (fun bands input => ¬Misread multiplier bands input) none
        ((withPrevious candles).zip atr) := by
  unfold supertrend
  rw [trendLoop_eq_outputs, ← Machine.outputs_observe]
  refine Machine.outputs_eq_iff (R := fun state bands => state = .ofBands bands) ?_ ?_ rfl _
  · rintro _ bands ⟨⟨previous, candle⟩, averageRange⟩ rfl
    cases averageRange with
    | none => exact iff_of_true rfl (by cases bands <;> exact id)
    | some averageRange =>
      rw [← taken_eq_trend_iff]
      exact Option.some_inj
  · rintro _ bands ⟨⟨previous, candle⟩, averageRange⟩ rfl h
    cases averageRange with
    | none => rfl
    | some averageRange => exact congrArg Prod.snd (trendStep_ofBands h)

/-- A candle that opens at its low and closes at its high. -/
def risingCandle (minute : ℤ) (openPrice close : ℚ) (hopen : 0 < openPrice) (hclose : openPrice ≤ close) :
    TechnicalCandle where
  eventTime := minute * seconds 60
  openPrice := openPrice
  high := close
  low := openPrice
  close := close
  volume := 10
  prices_pos := ⟨hopen, hopen.trans_le hclose, hopen⟩
  range := ⟨max_le hclose le_rfl, le_min le_rfl hclose⟩
  volume_nonneg := Amounts.ten_nonneg

/-- Three minutes at 100, one from 100 to 101 and one at 101. -/
def steppedMarket : List TechnicalCandle :=
  [risingCandle 0 100 100 Amounts.hundred_pos le_rfl, risingCandle 1 100 100 Amounts.hundred_pos le_rfl,
    risingCandle 2 100 100 Amounts.hundred_pos le_rfl, risingCandle 3 100 101 Amounts.hundred_pos (by decide),
    risingCandle 4 101 101 (by decide) le_rfl]

/-- **A flat market**, with the average ranges of the candles themselves: after the rise to 101 both bands are still 100
and the lower one is current. The close of the last candle is between its bands, 100.25 and 101.75; the loop takes it for
a close that has not left the upper band, and the trend is 101.75. -/
theorem flat_market_misread :
    ¬((supertrend steppedMarket (atrAdx steppedMarket 2 2).1 3).map (Option.map Prod.fst) =
      (flagged 3).outputs none ((withPrevious steppedMarket).zip (atrAdx steppedMarket 2 2).1)) := by
  decide +kernel

end NanoDelta.Strategies
