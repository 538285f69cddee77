import NanoDelta.Library.Effect
import NanoDelta.Strategies.IndicatorBounds

/-!
# Divisions of the indicators

The functions of `strategies/technical_features.py` that divide by something that is not a literal, with divisions that
raise if the divisor is zero. None of them ever does: a period is not zero, the source asks about an average range, a
total or a volume before it divides by it, and the averages under a relative strength are not negative.

* `Raising.materialize_eq`: the snapshots with divisions that raise are the snapshots.
* `snapshots_are_bounded`: valid periods give snapshots, and every one of them is within its bounds.
-/

namespace NanoDelta.Strategies

open Library Library.Effect

theorem divide_eq {a b : ℚ} (hb : b ≠ 0) : divide a b = .ok (a / b) := if_neg hb

namespace Raising

/-! ### Averages -/

/-- A smoothed series whose updates may raise. -/
def seeded (period : ℕ) (update : ℚ → ℚ → Except PyError ℚ) (values : List ℚ) : Except PyError (List (Option ℚ)) :=
  if values.length < period then .ok (List.replicate values.length none)
  else do
    let seed ← divide (values.take period).sum period
    let smoothed ← (values.drop period).scanlM update seed
    return List.replicate (period - 1) none ++ smoothed.map some

/-- `_ema`. Its weight is computed for every series, also for one that is too short to need it. -/
def ema (period : ℕ) (values : List ℚ) : Except PyError (List (Option ℚ)) := do
  let alpha ← divide 2 (period + 1)
  seeded period (fun current value => .ok (current + alpha * (value - current))) values

/-- `_wilder`. -/
def wilder (period : ℕ) : List ℚ → Except PyError (List (Option ℚ)) :=
  seeded period fun current value => divide (current * (period - 1) + value) period

theorem seeded_eq {period : ℕ} (hperiod : 1 ≤ period) {update : ℚ → ℚ → Except PyError ℚ} {update' : ℚ → ℚ → ℚ}
    (hupdate : ∀ current value, update current value = .ok (update' current value)) (values : List ℚ) :
    seeded period update values = .ok (Strategies.seeded period update' values) := by
  have hpos : (period : ℚ) ≠ 0 := by exact_mod_cast Nat.one_le_iff_ne_zero.mp hperiod
  obtain rfl : update = fun current value => pure (update' current value) := funext₂ hupdate
  unfold seeded Strategies.seeded
  split_ifs
  · rfl
  · rw [divide_eq hpos]
    simp only [bind, Except.bind, List.scanlM_pure]
    rfl

theorem ema_eq {period : ℕ} (hperiod : 1 ≤ period) (values : List ℚ) :
    ema period values = .ok (Strategies.ema period values) := by
  have hpos : (period + 1 : ℚ) ≠ 0 := by positivity
  unfold ema
  rw [divide_eq hpos]
  exact seeded_eq hperiod (fun _ _ => rfl) values

theorem wilder_eq {period : ℕ} (hperiod : 1 ≤ period) (values : List ℚ) :
    wilder period values = .ok (Strategies.wilder period values) := by
  have hpos : (period : ℚ) ≠ 0 := by exact_mod_cast Nat.one_le_iff_ne_zero.mp hperiod
  exact seeded_eq hperiod (fun _ _ => divide_eq hpos) values

/-! ### Relative strength -/

/-- The strength of an average gain against an average loss. -/
def strength : Option ℚ × Option ℚ → Except PyError (Option ℚ)
  | (some gain, some loss) =>
    if loss = 0 then .ok (some 100)
    else do
      let ratio ← divide gain loss
      let part ← divide 100 (1 + ratio)
      return some (100 - part)
  | _ => .ok none

/-- `_rsi`. -/
def rsi (closes : List ℚ) (period : ℕ) : Except PyError (List (Option ℚ)) :=
  match closes with
  | [] => .ok []
  | _ :: _ => do
    let gains ← wilder period ((changes closes).map fun change => max change 0)
    let losses ← wilder period ((changes closes).map fun change => max (-change) 0)
    let strengths ← (gains.zip losses).mapM strength
    return none :: strengths

/-- Averages that are not negative have a strength. -/
theorem strength_eq {gain loss : Option ℚ} (hgain : ∀ v, gain = some v → 0 ≤ v) (hloss : ∀ v, loss = some v → 0 ≤ v) :
    strength (gain, loss) = .ok (Strategies.strength gain loss) := by
  cases gain with
  | none => rfl
  | some gain =>
    cases loss with
    | none => rfl
    | some loss =>
      have hratio : 0 ≤ gain / loss := div_nonneg (hgain gain rfl) (hloss loss rfl)
      simp only [strength, Strategies.strength]
      split_ifs with hzero
      · rfl
      · rw [divide_eq hzero]
        change (divide 100 (1 + gain / loss) >>= _) = _
        rw [divide_eq (by positivity)]
        rfl

theorem rsi_eq {period : ℕ} (hperiod : 1 ≤ period) (closes : List ℚ) :
    rsi closes period = .ok (Strategies.rsi closes period) := by
  cases closes with
  | nil => rfl
  | cons close closes =>
    have hnonneg := @averages_nonneg period hperiod (close :: closes)
    have hstrengths : ∀ e ∈ (Strategies.wilder period ((changes (close :: closes)).map fun change => max change 0)).zip
        (Strategies.wilder period ((changes (close :: closes)).map fun change => max (-change) 0)),
        strength e = .ok (Strategies.strength e.1 e.2) := by
      intro e he
      obtain ⟨hgain, hloss⟩ := List.of_mem_zip he
      exact strength_eq (fun v hv => hnonneg.1 (hv ▸ hgain)) (fun v hv => hnonneg.2 (hv ▸ hloss))
    simp only [rsi, wilder_eq hperiod, Strategies.rsi, bind, Except.bind, mapM_eq_ok_map hstrengths,
      ← List.map_uncurry_zip_eq_zipWith]
    rfl

/-! ### Directional movement -/

/-- The directional index from the smoothed range and movements. -/
def directionalIndex : Option ℚ × Option ℚ × Option ℚ → Except PyError (Option ℚ)
  | (some averageRange, plus, minus) =>
    if averageRange = 0 then .ok none
    else do
      let plusDi ← divide (100 * plus.getD 0) averageRange
      let minusDi ← divide (100 * minus.getD 0) averageRange
      let total := plusDi + minusDi
      if total = 0 then return some 0
      let value ← divide (100 * |plusDi - minusDi|) total
      return some value
  | _ => .ok none

/-- `_atr_adx`. -/
def atrAdx (candles : List TechnicalCandle) (atrPeriod adxPeriod : ℕ) :
    Except PyError (List (Option ℚ) × List (Option ℚ)) := do
  let pairs := withPrevious candles
  let ranges := pairs.map fun e => trueRange e.1 e.2
  let atr ← wilder atrPeriod ranges
  let directionalRange ← wilder adxPeriod ranges
  let plus ← wilder adxPeriod (pairs.map fun e => positiveMove e.1 e.2)
  let minus ← wilder adxPeriod (pairs.map fun e => negativeMove e.1 e.2)
  let dx ← (directionalRange.zip (plus.zip minus)).mapM directionalIndex
  let adx ← wilder adxPeriod (dx.filterMap id)
  return (atr, spread dx adx)

theorem directionalIndex_eq (e : Option ℚ × Option ℚ × Option ℚ) :
    directionalIndex e = .ok (Strategies.directionalIndex e) := by
  obtain ⟨_ | averageRange, plus, minus⟩ := e
  · rfl
  · simp only [directionalIndex, Strategies.directionalIndex]
    split_ifs with hflat hstill
    · rfl
    · simp [divide_eq hflat, bind, Except.bind, hstill, pure, Except.pure]
    · simp [divide_eq hflat, bind, Except.bind, hstill, pure, Except.pure, divide_eq hstill]

theorem atrAdx_eq {atrPeriod adxPeriod : ℕ} (hatr : 1 ≤ atrPeriod) (hadx : 1 ≤ adxPeriod)
    (candles : List TechnicalCandle) :
    atrAdx candles atrPeriod adxPeriod = .ok (Strategies.atrAdx candles atrPeriod adxPeriod) := by
  simp only [atrAdx, wilder_eq hatr, wilder_eq hadx, bind, Except.bind, mapM_eq_ok_map fun e _ => directionalIndex_eq e]
  rfl

/-! ### Sessions -/

/-- The volume weighted average price of a session so far. -/
def vwap (state : SessionState) : Except PyError (Option ℚ) :=
  if 0 < state.volume then do
    let average ← divide state.weighted state.volume
    return some average
  else .ok none

/-- The first part of `_session_values`. -/
def vwaps (candles : List TechnicalCandle) : Except PyError (List (Option ℚ)) :=
  (candles.scanl SessionState.add {}).tail.mapM vwap

/-- The volume of a candle against the average of a window. -/
def volumeRatio (window : List TechnicalCandle) (candle : TechnicalCandle) : Except PyError (Option ℚ) := do
  let average ← divide (window.map TechnicalCandle.volume).sum window.length
  if 0 < average then
    let ratio ← divide candle.volume average
    return some ratio
  else return none

/-- The second part of `_session_values`. -/
def volumeRatios (candles : List TechnicalCandle) (period : ℕ) : Except PyError (List (Option ℚ)) :=
  candles.zipIdx.mapM fun e => volumeRatio (windowUpTo candles period e.2) e.1

theorem vwaps_eq (candles : List TechnicalCandle) : vwaps candles = .ok (Strategies.vwaps candles) := by
  apply mapM_eq_ok_map
  intro state _
  unfold vwap SessionState.vwap
  split_ifs with hpos
  · rw [divide_eq hpos.ne']
    rfl
  · rfl

theorem volumeRatio_eq {window : List TechnicalCandle} (hne : window ≠ []) (candle : TechnicalCandle) :
    volumeRatio window candle = .ok (if 0 < mean (window.map TechnicalCandle.volume) then
      some (candle.volume / mean (window.map TechnicalCandle.volume)) else none) := by
  have hlength : (window.length : ℚ) ≠ 0 := by exact_mod_cast (List.length_pos_iff.mpr hne).ne'
  have hmean : mean (window.map TechnicalCandle.volume) = (window.map TechnicalCandle.volume).sum / window.length := by
    rw [mean, List.length_map]
  unfold volumeRatio
  rw [divide_eq hlength, ← hmean]
  simp only [bind, Except.bind]
  split_ifs with hpos
  · rw [divide_eq hpos.ne']
    rfl
  · rfl

theorem volumeRatios_eq {period : ℕ} (hperiod : 1 ≤ period) (candles : List TechnicalCandle) :
    volumeRatios candles period = .ok (Strategies.volumeRatios candles period) := by
  unfold volumeRatios Strategies.volumeRatios
  rw [List.mapIdx_eq_zipIdx_map]
  apply mapM_eq_ok_map
  intro e he
  have hindex : e.2 < candles.length := List.snd_lt_of_mem_zipIdx he
  have hne : windowUpTo candles period e.2 ≠ [] := by
    apply List.ne_nil_of_length_pos
    rw [windowUpTo, List.length_drop, List.length_take]
    omega
  exact volumeRatio_eq hne e.1

/-! ### Snapshots -/

/-- The series of the indicators of a list of candles, by name. -/
def indicatorSeries (candles : List TechnicalCandle) (periods : TechnicalPeriods) :
    Except PyError (List (String × List (Option ℚ)) × List (String × List (Option ℚ))) := do
  let closes := candles.map TechnicalCandle.close
  let ema9 ← ema 9 closes
  let ema21 ← ema 21 closes
  let rsi ← rsi closes periods.rsiPeriod
  let (atr, adx) ← atrAdx candles periods.atrPeriod periods.adxPeriod
  let trend := supertrend candles atr periods.supertrendMultiplier
  let vwap ← vwaps candles
  let volumeRatio ← volumeRatios candles 20
  let range20 := rollingRange candles 20
  let range10 := rollingRange candles 10
  let range5 := rollingRange candles 5
  let opening := openingRange candles 15
  return ([("ema_9", ema9), ("ema_21", ema21), ("rsi_14", rsi), ("atr_14", atr), ("adx_14", adx),
      ("supertrend", trend.map fun e => e.map Prod.fst), ("supertrend_direction", trend.map fun e => e.map Prod.snd),
      ("vwap", vwap), ("volume_ratio_20", volumeRatio)],
    [("range_high_20", range20.map Prod.fst), ("range_low_20", range20.map Prod.snd),
      ("range_high_10", range10.map Prod.fst), ("range_low_10", range10.map Prod.snd),
      ("range_high_5", range5.map Prod.fst), ("range_low_5", range5.map Prod.snd),
      ("opening_range_high", opening.map Prod.fst), ("opening_range_low", opening.map Prod.snd)])

/-- The values of a candle itself. -/
def candleValues (candle : TechnicalCandle) : Except PyError (Dict String ℚ) := do
  let body ← divide (candle.close - candle.openPrice) candle.openPrice
  return (((Dict.empty.set "close" candle.close).set "high" candle.high).set "low" candle.low).set "body_pct" body

/-- The snapshot at a candle, if all indicators that it needs have warmed up. -/
def snapshotAt (needed optional : List (String × List (Option ℚ))) (e : TechnicalCandle × ℕ) :
    Except PyError (Option TechnicalFeatureSnapshot) :=
  let indicators := needed.map fun series => (series.1, valueAt series.2 e.2)
  if indicators.any fun indicator => indicator.2.isNone then .ok none
  else do
    let own ← candleValues e.1
    let values := indicators.foldl setSome own
    return some
      { eventTime := e.1.eventTime
        values := (optional.map fun series => (series.1, valueAt series.2 e.2)).foldl setSome values }

/-- `materialize_technical_features`, with divisions that raise. -/
def materialize (candles : List TechnicalCandle) (periods : TechnicalPeriods) :
    Except PyError (List TechnicalFeatureSnapshot) :=
  if periods.rsiPeriod < 2 ∨ periods.atrPeriod < 2 ∨ periods.adxPeriod < 2 ∨ periods.supertrendMultiplier ≤ 0 then
    .error (.valueError "technical feature periods and multiplier are invalid")
  else do
    let ordered := settledByTime candles
    let (needed, optional) ← indicatorSeries ordered periods
    let slots ← ordered.zipIdx.mapM (snapshotAt needed optional)
    return slots.filterMap id

theorem indicatorSeries_eq {periods : TechnicalPeriods} (hrsi : 1 ≤ periods.rsiPeriod) (hatr : 1 ≤ periods.atrPeriod)
    (hadx : 1 ≤ periods.adxPeriod) (candles : List TechnicalCandle) :
    indicatorSeries candles periods = .ok (Strategies.indicatorSeries candles periods) := by
  have hema9 := fun closes => ema_eq (by omega : 1 ≤ 9) closes
  have hema21 := fun closes => ema_eq (by omega : 1 ≤ 21) closes
  have hvolume := volumeRatios_eq (by omega : 1 ≤ 20) candles
  simp only [indicatorSeries, hema9, hema21, rsi_eq hrsi, atrAdx_eq hatr hadx, vwaps_eq, hvolume, bind, Except.bind]
  rfl

theorem candleValues_eq (candle : TechnicalCandle) : candleValues candle = .ok (Strategies.candleValues candle) := by
  unfold candleValues
  rw [divide_eq candle.prices_pos.1.ne']
  rfl

theorem snapshotAt_eq (needed optional : List (String × List (Option ℚ))) (e : TechnicalCandle × ℕ) :
    snapshotAt needed optional e = .ok (Strategies.snapshotAt needed optional e.2 e.1) := by
  simp only [snapshotAt, Strategies.snapshotAt, candleValues_eq, bind, Except.bind]
  split_ifs <;> rfl

/-- **No division by zero**: with divisions that raise, the snapshots are the same ones, for all candles and periods. -/
theorem materialize_eq (candles : List TechnicalCandle) (periods : TechnicalPeriods) :
    materialize candles periods = materializeTechnicalFeatures candles periods := by
  unfold materialize materializeTechnicalFeatures
  split_ifs with hinvalid
  · rfl
  · simp only [not_or, not_lt] at hinvalid
    obtain ⟨hrsi, hatr, hadx, -⟩ := hinvalid
    have hslots : ∀ needed optional, (settledByTime candles).zipIdx.mapM (snapshotAt needed optional) =
        .ok ((settledByTime candles).zipIdx.map fun e => Strategies.snapshotAt needed optional e.2 e.1) :=
      fun needed optional => mapM_eq_ok_map fun e _ => snapshotAt_eq needed optional e
    simp only [indicatorSeries_eq (by omega : 1 ≤ periods.rsiPeriod) (by omega : 1 ≤ periods.atrPeriod)
      (by omega : 1 ≤ periods.adxPeriod), bind, Except.bind, hslots, List.mapIdx_eq_zipIdx_map]
    rfl

end Raising

/-! ### The bounds of the snapshots -/

/-- Each snapshot is that of one of the settled candles, after those before it. -/
theorem exists_of_mem_snapshots {ordered : List TechnicalCandle} {needed optional : List (String × List (Option ℚ))}
    {snapshot : TechnicalFeatureSnapshot}
    (h : snapshot ∈ (ordered.mapIdx (snapshotAt needed optional)).filterMap id) :
    ∃ past candle rest, ordered = past ++ candle :: rest ∧
      snapshotAt needed optional past.length candle = some snapshot := by
  obtain ⟨slot, hslot, rfl⟩ := List.mem_filterMap.mp h
  obtain ⟨index, hindex, hsnapshot⟩ := List.mem_mapIdx.mp hslot
  refine ⟨ordered.take index, ordered[index], ordered.drop (index + 1), ?_, ?_⟩
  · rw [List.cons_getElem_drop_succ, List.take_append_drop]
  · rw [List.length_take, Nat.min_eq_left hindex.le]
    exact hsnapshot

/-- **Every snapshot is within its bounds**: valid periods give snapshots, without a division by zero, and each one is
that of a settled candle, with values that are bounded by the candles up to it. -/
theorem snapshots_are_bounded (candles : List TechnicalCandle) {periods : TechnicalPeriods} (hvalid : periods.Valid) :
    ∃ snapshots, Raising.materialize candles periods = .ok snapshots ∧
      materializeTechnicalFeatures candles periods = .ok snapshots ∧
      ∀ snapshot ∈ snapshots, ∃ past candle rest, settledByTime candles = past ++ candle :: rest ∧
        snapshotAt (indicatorSeries (settledByTime candles) periods).1
          (indicatorSeries (settledByTime candles) periods).2 past.length candle = some snapshot ∧
        Bounded past candle snapshot.values := by
  have hperiods : ¬(periods.rsiPeriod < 2 ∨ periods.atrPeriod < 2 ∨ periods.adxPeriod < 2 ∨
      periods.supertrendMultiplier ≤ 0) := by
    simpa only [not_or, not_lt, not_le] using ⟨hvalid.rsi, hvalid.atr, hvalid.adx, hvalid.multiplier⟩
  rw [Raising.materialize_eq]
  unfold materializeTechnicalFeatures
  rw [if_neg hperiods]
  refine ⟨_, rfl, rfl, fun snapshot hsnapshot => ?_⟩
  obtain ⟨past, candle, rest, hordered, hat⟩ := exists_of_mem_snapshots hsnapshot
  exact ⟨past, candle, rest, hordered, hat, bounded_of_snapshotAt hvalid hordered hat⟩

/-- The snapshots of half an hour. -/
theorem half_hour_is_bounded :
    (∃ snapshots, Raising.materialize Sample.halfHour {} = .ok snapshots ∧
      materializeTechnicalFeatures Sample.halfHour {} = .ok snapshots ∧
      ∀ snapshot ∈ snapshots, ∃ past candle rest, settledByTime Sample.halfHour = past ++ candle :: rest ∧
        snapshotAt (indicatorSeries (settledByTime Sample.halfHour) {}).1
          (indicatorSeries (settledByTime Sample.halfHour) {}).2 past.length candle = some snapshot ∧
        Bounded past candle snapshot.values) ∧
      (materializeTechnicalFeatures Sample.halfHour {}).map List.length = .ok 4 := by
  refine ⟨snapshots_are_bounded Sample.halfHour ⟨by decide, by decide, by decide, by decide +kernel⟩, ?_⟩
  decide +kernel

end NanoDelta.Strategies
