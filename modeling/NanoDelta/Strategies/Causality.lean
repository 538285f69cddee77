import NanoDelta.Library.Causal
import NanoDelta.Library.Series
import NanoDelta.Strategies.TechnicalFeatures

/-!
# No look-ahead

Every indicator of `strategies/technical_features.py` is a causal operator on the series of candles, so the snapshots up
to a time are those of the candles up to that time.

* `causal_indicators`: the indicators, and `causal_snapshots`: the snapshots made of them.
* `materialize_has_no_lookahead`: later candles, unsettled ones and the order of the input change nothing.
-/

namespace NanoDelta.Strategies

open Library

/-! ### Averages -/

/-- A smoothed series is causal: the seed is made of the first values, and each later value updates it. -/
theorem causal_seeded {period : ℕ} (hperiod : 1 ≤ period) (update : ℚ → ℚ → ℚ) : Causal (seeded period update) := by
  refine ⟨length_seeded hperiod update, fun values n => ?_⟩
  unfold seeded
  rw [List.length_take]
  by_cases hlong : values.length < period
  · rw [if_pos (by omega), if_pos hlong, List.take_replicate]
  · rw [if_neg hlong]
    by_cases hn : n < period
    · rw [if_pos (by omega), List.take_append_of_le_length (by rw [List.length_replicate]; omega), List.take_replicate]
      congr 1
      omega
    · have hseed : (values.take n).take period = values.take period := by
        rw [List.take_take, Nat.min_eq_left (by omega)]
      have hlater : (values.take n).drop period = (values.drop period).take (n - period) := List.drop_take
      have hblank : min n (period - 1) = period - 1 := by omega
      have hwarm : n - period + 1 = n - (period - 1) := by omega
      rw [if_neg (by omega), hseed, hlater, ← List.take_scanl, List.take_append, List.length_replicate,
        List.take_replicate, List.map_take, hblank, hwarm]

theorem causal_ema {period : ℕ} (hperiod : 1 ≤ period) : Causal (ema period) := causal_seeded hperiod _

theorem causal_wilder {period : ℕ} (hperiod : 1 ≤ period) : Causal (wilder period) := causal_seeded hperiod _

/-! ### Relative strength -/

theorem causal_rsi {period : ℕ} (hperiod : 1 ≤ period) : Causal fun closes => rsi closes period := by
  have hwilder := causal_wilder hperiod
  have hlength : ∀ (close : ℚ) (closes : List ℚ), (changes (close :: closes)).length = closes.length := by
    intro close closes
    simp [changes]
  refine ⟨fun closes => ?_, fun closes n => ?_⟩
  · cases closes with
    | nil => rfl
    | cons close closes =>
      simp only [rsi, List.length_cons, List.length_zipWith, hwilder.length, List.length_map, hlength, Nat.min_self]
  · cases closes with
    | nil => rw [List.take_nil, rsi, List.take_nil]
    | cons close closes =>
      cases n with
      | zero => rfl
      | succ n =>
        have hchanges : changes (close :: closes.take n) = (changes (close :: closes)).take n :=
          zipWith_cons_take _ close closes n
        simp only [List.take_succ_cons, rsi, hchanges, List.map_take, hwilder.take, List.take_zipWith]

/-! ### Ranges and directional movement -/

theorem causal_withPrevious : Causal withPrevious := by
  refine ⟨fun candles => ?_, fun candles n => ?_⟩
  · cases candles with
    | nil => rfl
    | cons candle candles => simp [withPrevious]
  · cases candles with
    | nil => rw [List.take_nil, withPrevious, List.take_nil]
    | cons candle candles =>
      cases n with
      | zero => rfl
      | succ n =>
        rw [List.take_succ_cons, withPrevious, withPrevious, List.take_succ_cons]
        exact congrArg _ (zipWith_cons_take _ candle candles n)

/-- Values at the places of the first slots. -/
theorem spread_take (slots values : List (Option ℚ)) (n : ℕ) :
    spread (slots.take n) (values.take ((slots.take n).filterMap id).length) = (spread slots values).take n := by
  induction slots generalizing values n with
  | nil => simp [spread]
  | cons slot slots ih =>
    cases n with
    | zero => cases values <;> rfl
    | succ n =>
      cases slot with
      | none => exact congrArg _ (ih values n)
      | some value =>
        cases values with
        | nil => simpa [spread] using ih [] n
        | cons v values => exact congrArg _ (ih values n)

theorem length_spread (slots values : List (Option ℚ)) : (spread slots values).length = slots.length := by
  induction slots generalizing values with
  | nil => rfl
  | cons slot slots ih =>
    cases slot with
    | none => exact congrArg Nat.succ (ih values)
    | some value =>
      cases values with
      | nil => exact congrArg Nat.succ (ih [])
      | cons v values => exact congrArg Nat.succ (ih values)

/-- Smoothing the values that are there, each at its place. -/
theorem causal_spread {F : List ℚ → List (Option ℚ)} (hF : Causal F) :
    Causal fun slots : List (Option ℚ) => spread slots (F (slots.filterMap id)) := by
  refine ⟨fun slots => length_spread _ _, fun slots n => ?_⟩
  have hsplit : slots.filterMap id = (slots.take n).filterMap id ++ (slots.drop n).filterMap id := by
    rw [← List.filterMap_append, List.take_append_drop]
  have hfirst : F ((slots.take n).filterMap id) =
      (F (slots.filterMap id)).take ((slots.take n).filterMap id).length := by
    rw [← hF.take, hsplit, List.take_left]
  rw [← spread_take, ← hfirst]

theorem causal_atr {period : ℕ} (hperiod : 1 ≤ period) (adxPeriod : ℕ) :
    Causal fun candles => (atrAdx candles period adxPeriod).1 :=
  (causal_wilder hperiod).comp (causal_withPrevious.map _)

theorem causal_adx {period : ℕ} (hperiod : 1 ≤ period) (atrPeriod : ℕ) :
    Causal fun candles => (atrAdx candles atrPeriod period).2 := by
  have hwilder := causal_wilder hperiod
  have hdx := ((hwilder.comp (causal_withPrevious.map fun e => trueRange e.1 e.2)).zip
    ((hwilder.comp (causal_withPrevious.map fun e => positiveMove e.1 e.2)).zip
      (hwilder.comp (causal_withPrevious.map fun e => negativeMove e.1 e.2)))).map directionalIndex
  exact (causal_spread hwilder).comp hdx

/-! ### The super trend -/

theorem causal_trendLoop (multiplier : ℚ) (state : TrendState) : Causal (trendLoop multiplier state) := by
  have hboth : ∀ rows state, (trendLoop multiplier state rows).length = rows.length ∧
      ∀ n, trendLoop multiplier state (rows.take n) = (trendLoop multiplier state rows).take n := by
    intro rows
    induction rows with
    | nil => exact fun state => ⟨rfl, fun n => by rw [List.take_nil, trendLoop, List.take_nil]⟩
    | cons row rows ih =>
      intro state
      obtain ⟨⟨previous, candle⟩, averageRange⟩ := row
      cases averageRange with
      | none =>
        refine ⟨congrArg Nat.succ (ih state).1, fun n => ?_⟩
        cases n with
        | zero => rfl
        | succ n => exact congrArg _ ((ih state).2 n)
      | some averageRange =>
        have hrest := ih (trendStep multiplier state previous.close candle averageRange).2
        refine ⟨congrArg Nat.succ hrest.1, fun n => ?_⟩
        cases n with
        | zero => rfl
        | succ n => exact congrArg _ (hrest.2 n)
  exact ⟨fun rows => (hboth rows state).1, fun rows => (hboth rows state).2⟩

theorem supertrend_take (candles : List TechnicalCandle) (atr : List (Option ℚ)) (multiplier : ℚ) (n : ℕ) :
    supertrend (candles.take n) (atr.take n) multiplier = (supertrend candles atr multiplier).take n := by
  unfold supertrend
  rw [← (causal_trendLoop multiplier {}).take, causal_withPrevious.take, List.zip_eq_zipWith, List.zip_eq_zipWith,
    List.take_zipWith]

/-! ### Sessions and ranges -/

theorem causal_vwaps : Causal vwaps := (causal_scan SessionState.add {}).map SessionState.vwap

theorem causal_volumeRatios (period : ℕ) : Causal fun candles => volumeRatios candles period := by
  refine causal_mapIdx fun candles n index candle hindex => ?_
  unfold windowUpTo
  rw [List.take_take, Nat.min_eq_left (by omega)]

theorem causal_rollingRange (period : ℕ) : Causal fun candles => rollingRange candles period := by
  refine causal_mapIdx fun candles n index candle hindex => ?_
  rw [List.take_take, Nat.min_eq_left (by omega)]

theorem causal_openingRange (minutes : ℤ) : Causal fun candles => openingRange candles minutes := by
  refine causal_mapIdx fun candles n index candle hindex => ?_
  rw [List.take_take, Nat.min_eq_left (by omega)]

/-! ### Snapshots -/

/-- Named series, cut off. -/
def cut (n : ℕ) (series : List (String × List (Option ℚ))) : List (String × List (Option ℚ)) :=
  series.map fun e => (e.1, e.2.take n)

/-- **Every indicator** is causal. -/
theorem causal_indicators {periods : TechnicalPeriods} (hrsi : 1 ≤ periods.rsiPeriod) (hatr : 1 ≤ periods.atrPeriod)
    (hadx : 1 ≤ periods.adxPeriod) (candles : List TechnicalCandle) (n : ℕ) :
    indicatorSeries (candles.take n) periods =
      (cut n (indicatorSeries candles periods).1, cut n (indicatorSeries candles periods).2) := by
  have hema9 := (causal_ema (by omega : 1 ≤ 9)).take
  have hema21 := (causal_ema (by omega : 1 ≤ 21)).take
  simp only [indicatorSeries, cut, List.map_cons, List.map_nil, List.map_take, hema9, hema21, (causal_rsi hrsi).take,
    (causal_atr hatr _).take, (causal_adx hadx _).take, supertrend_take, causal_vwaps.take,
    (causal_volumeRatios 20).take, (causal_rollingRange _).take, (causal_openingRange 15).take]

/-- The values at an index before the cut. -/
theorem valueAt_cut {n index : ℕ} (hindex : index < n) (series : List (String × List (Option ℚ))) :
    ((cut n series).map fun e => (e.1, valueAt e.2 index)) = series.map fun e => (e.1, valueAt e.2 index) := by
  unfold cut
  rw [List.map_map]
  refine List.map_congr_left fun e _ => ?_
  simp only [Function.comp, valueAt, List.getElem?_take, if_pos hindex]

/-- The snapshot of each candle, if there is one. -/
def snapshotSlots (periods : TechnicalPeriods) (candles : List TechnicalCandle) :
    List (Option TechnicalFeatureSnapshot) :=
  candles.mapIdx (snapshotAt (indicatorSeries candles periods).1 (indicatorSeries candles periods).2)

/-- **The snapshots** are causal. -/
theorem causal_snapshots {periods : TechnicalPeriods} (hrsi : 1 ≤ periods.rsiPeriod) (hatr : 1 ≤ periods.atrPeriod)
    (hadx : 1 ≤ periods.adxPeriod) : Causal (snapshotSlots periods) := by
  refine causal_mapIdx fun candles n index candle hindex => ?_
  rw [causal_indicators hrsi hatr hadx candles n]
  simp only [snapshotAt, valueAt_cut hindex]

/-- A snapshot has the time of its candle. -/
theorem eventTime_of_snapshotAt {needed optional : List (String × List (Option ℚ))} {index : ℕ}
    {candle : TechnicalCandle} {snapshot : TechnicalFeatureSnapshot}
    (h : snapshotAt needed optional index candle = some snapshot) : snapshot.eventTime = candle.eventTime := by
  unfold snapshotAt at h
  simp only at h
  split_ifs at h
  cases h
  rfl

/-! ### The candles by time -/

section Sorted

variable {candles others : List TechnicalCandle}

/-- Settled candles with different times have increasing times once they are sorted. -/
theorem pairwise_settledByTime (hdistinct : candles.Pairwise fun a b => a.eventTime ≠ b.eventTime) :
    (settledByTime candles).Pairwise fun a b => a.eventTime < b.eventTime :=
  pairwise_lt_insertionSort (hdistinct.sublist List.filter_sublist)

/-- Candles with increasing times are in one order only. -/
theorem eq_of_increasing (hcandles : candles.Pairwise fun a b => a.eventTime < b.eventTime)
    (hothers : others.Pairwise fun a b => a.eventTime < b.eventTime) (hperm : others.Perm candles) :
    others = candles :=
  hperm.eq_of_pairwise (fun _ _ _ _ hlt hgt => absurd hlt (not_lt.mpr hgt.le)) hothers hcandles

/-- The order of the candles, and the unsettled ones, do not matter. -/
theorem settledByTime_congr (hdistinct : candles.Pairwise fun a b => a.eventTime ≠ b.eventTime)
    (hperm : (others.filter fun candle => candle.settled).Perm (candles.filter fun candle => candle.settled)) :
    settledByTime others = settledByTime candles := by
  have hothers : (others.filter fun candle => candle.settled).Pairwise fun a b => a.eventTime ≠ b.eventTime :=
    hperm.symm.pairwise (hdistinct.sublist List.filter_sublist) fun h => Ne.symm h
  refine eq_of_increasing (pairwise_settledByTime hdistinct) (pairwise_lt_insertionSort hothers) ?_
  exact (List.perm_insertionSort _ _).trans (hperm.trans (List.perm_insertionSort _ _).symm)

/-- The candles up to a time, sorted. -/
theorem settledByTime_filter (hdistinct : candles.Pairwise fun a b => a.eventTime ≠ b.eventTime)
    (p : TechnicalCandle → Bool) : settledByTime (candles.filter p) = (settledByTime candles).filter p := by
  refine eq_of_increasing ((pairwise_settledByTime hdistinct).sublist List.filter_sublist)
    (pairwise_settledByTime (hdistinct.sublist List.filter_sublist)) ?_
  refine (List.perm_insertionSort _ _).trans ?_
  rw [List.filter_filter, funext fun candle => Bool.and_comm _ _, ← List.filter_filter]
  exact ((List.perm_insertionSort _ _).filter p).symm

end Sorted

/-- **No look-ahead**: the snapshots of the candles up to a time are the snapshots up to that time; and the order of the
candles and the unsettled ones change nothing. -/
theorem materialize_has_no_lookahead {candles : List TechnicalCandle}
    (hdistinct : candles.Pairwise fun a b => a.eventTime ≠ b.eventTime) (periods : TechnicalPeriods) :
    (∀ t : Instant, materializeTechnicalFeatures (candles.filter fun candle => candle.eventTime ≤ t) periods =
      (materializeTechnicalFeatures candles periods).map fun snapshots =>
        snapshots.filter fun snapshot => snapshot.eventTime ≤ t) ∧
    ∀ others : List TechnicalCandle,
      (others.filter fun candle => candle.settled).Perm (candles.filter fun candle => candle.settled) →
      materializeTechnicalFeatures others periods = materializeTechnicalFeatures candles periods := by
  refine ⟨fun t => ?_, fun others hperm => ?_⟩
  · unfold materializeTechnicalFeatures
    split_ifs with hinvalid
    · rfl
    · simp only [not_or, not_lt] at hinvalid
      obtain ⟨hrsi, hatr, hadx, -⟩ := hinvalid
      have hcausal : Causal (snapshotSlots periods) := causal_snapshots (by omega) (by omega) (by omega)
      have hsorted : (settledByTime candles).Pairwise fun a b =>
          decide (b.eventTime ≤ t) = true → decide (a.eventTime ≤ t) = true := by
        refine (pairwise_settledByTime hdistinct).imp fun hlt hle => ?_
        rw [decide_eq_true_eq] at hle ⊢
        exact hlt.le.trans hle
      rw [settledByTime_filter hdistinct]
      refine congrArg Except.ok (hcausal.keep (fun as i candle snapshot hcandle hsnapshot => ?_) hsorted)
      rw [snapshotSlots, List.getElem?_mapIdx, hcandle] at hsnapshot
      rw [eventTime_of_snapshotAt (Option.some.inj hsnapshot)]
  · unfold materializeTechnicalFeatures
    rw [settledByTime_congr hdistinct hperm]

namespace Sample

/-- A candle of a minute. -/
def minuteCandle (minute : ℤ) : TechnicalCandle where
  eventTime := seconds (60 * minute)
  openPrice := 100
  high := 102
  low := 99
  close := 101
  volume := 10
  prices_pos := by decide +kernel
  range := by decide +kernel
  volume_nonneg := by decide +kernel

/-- The candles of half an hour, the newest one first. -/
def halfHour : List TechnicalCandle := ((List.range 30).map fun minute => minuteCandle minute).reverse

end Sample

/-- The snapshots of the first twenty minutes. -/
theorem half_hour_has_no_lookahead :
    materializeTechnicalFeatures (Sample.halfHour.filter fun candle => candle.eventTime ≤ seconds (60 * 20)) {} =
      (materializeTechnicalFeatures Sample.halfHour {}).map fun snapshots =>
        snapshots.filter fun snapshot => snapshot.eventTime ≤ seconds (60 * 20) :=
  (materialize_has_no_lookahead (by decide +kernel) {}).1 (seconds (60 * 20))

end NanoDelta.Strategies
