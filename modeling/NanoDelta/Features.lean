import Mathlib.Data.Prod.Lex
import Mathlib.Data.String.Basic
import NanoDelta.Library.Series
import NanoDelta.Records

/-!
# Features

`features.py`: the rows of the Gold layer from the candles of the Silver layer. A series is the
settled candles of a market, symbol and timeframe; a candle gets its features from itself and the
candle before it in its series.

* `mem_materializeFeatures_iff`: the features are those of the adjacent candles of each series.
-/

namespace NanoDelta

open Library

/-- What the candles of a series have in common. -/
def CanonicalCandle.series (candle : CanonicalCandle) : String × String × String :=
  (candle.market.value, candle.symbol, candle.timeframe)

section Features

variable (host : Host)

/-- The features of a candle, after the candle before it; none if a price that divides is zero. -/
def featureOf (previous current : CanonicalCandle) : Option FeatureRecord :=
  if previous.close = 0 ∨ current.openPrice = 0 then none
  else some
    { recordId := stableId host [current.recordId, "features", "1"]
      candleRecordId := current.recordId
      market := current.market
      symbol := current.symbol
      timeframe := current.timeframe
      eventTime := .aware current.openTime
      close := current.close
      return1 := current.close / previous.close - 1
      rangePct := (current.high - current.low) / current.openPrice
      bodyPct := (current.close - current.openPrice) / current.openPrice
      volumeChange := if 0 < previous.volume then some (current.volume / previous.volume - 1) else none }

/-- The features of a group of candles. -/
def featuresOf (group : List CanonicalCandle) : List FeatureRecord :=
  (adjacent (group.insertionSort fun a b => a.openTime ≤ b.openTime)).filterMap fun e => featureOf host e.1 e.2

/-- The order of the rows that `materialize_features` returns. -/
def featureOrder (row : FeatureRecord) : String ×ₗ String ×ₗ Instant :=
  toLex (row.market.value, toLex (row.symbol, row.eventTime.astimezone))

/-- `materialize_features`. -/
def materializeFeatures (candles : List CanonicalCandle) : List FeatureRecord :=
  ((groupBy CanonicalCandle.series (candles.filter fun c => c.isSettled)).values.flatMap (featuresOf host)).insertionSort
    fun a b => featureOrder a ≤ featureOrder b

variable {host}

/-- Candles of one series are distinguished by their open times. -/
theorem key_eq_of_series_eq {a b : CanonicalCandle} (hseries : a.series = b.series) (hopen : a.openTime = b.openTime) :
    a.key = b.key := by
  obtain ⟨hmarket, hsymbol, htimeframe⟩ : a.market.value = b.market.value ∧ a.symbol = b.symbol ∧
      a.timeframe = b.timeframe := by
    simpa [CanonicalCandle.series, Prod.ext_iff] using hseries
  have hmarket' : a.market = b.market := Market.value_injective hmarket
  simp [CanonicalCandle.key, hmarket', hsymbol, htimeframe, hopen]

/-- The features of a group: those of its adjacent candles. -/
theorem mem_featuresOf_iff {group : List CanonicalCandle} (hopens : group.Pairwise fun a b => a.openTime ≠ b.openTime)
    {feature : FeatureRecord} :
    feature ∈ featuresOf host group ↔
      ∃ previous ∈ group, ∃ current ∈ group, previous.openTime < current.openTime ∧
        (∀ c ∈ group, c.openTime ≤ previous.openTime ∨ current.openTime ≤ c.openTime) ∧
        featureOf host previous current = some feature := by
  unfold featuresOf
  rw [List.mem_filterMap]
  constructor
  · rintro ⟨⟨previous, current⟩, hpair, hfeature⟩
    obtain ⟨hp, hc, hlt, hbetween⟩ := (mem_adjacent_insertionSort_iff hopens).mp hpair
    exact ⟨previous, hp, current, hc, hlt, hbetween, hfeature⟩
  · rintro ⟨previous, hp, current, hc, hlt, hbetween, hfeature⟩
    exact ⟨(previous, current), (mem_adjacent_insertionSort_iff hopens).mpr ⟨hp, hc, hlt, hbetween⟩, hfeature⟩

/-- The features of candles with different keys: those of the adjacent candles of each series. -/
theorem mem_materializeFeatures_iff {candles : List CanonicalCandle} (hkeys : candles.Pairwise fun a b => a.key ≠ b.key)
    {feature : FeatureRecord} :
    feature ∈ materializeFeatures host candles ↔
      ∃ previous ∈ candles, ∃ current ∈ candles, previous.isSettled = true ∧ current.isSettled = true ∧
        previous.series = current.series ∧ previous.openTime < current.openTime ∧
        (∀ c ∈ candles, c.isSettled = true → c.series = current.series →
          c.openTime ≤ previous.openTime ∨ current.openTime ≤ c.openTime) ∧
        featureOf host previous current = some feature := by
  have hgroup : ∀ k, ((candles.filter fun c => c.isSettled).filter fun c => c.series = k).Pairwise
      fun a b => a.openTime ≠ b.openTime := by
    intro k
    refine List.Pairwise.imp_of_mem ?_ ((hkeys.filter _).filter _)
    intro a b ha hb hne hopen
    have hseries : a.series = b.series :=
      (of_decide_eq_true (List.mem_filter.mp ha).2).trans (of_decide_eq_true (List.mem_filter.mp hb).2).symm
    exact hne (key_eq_of_series_eq hseries hopen)
  have hmem : ∀ k c, c ∈ (candles.filter fun c => c.isSettled).filter (fun c => c.series = k) ↔
      c ∈ candles ∧ c.isSettled = true ∧ c.series = k := by
    intro k c
    rw [List.mem_filter, List.mem_filter, decide_eq_true_eq, and_assoc]
  unfold materializeFeatures
  rw [List.mem_insertionSort, mem_flatMap_groupBy (f := featuresOf host) rfl]
  constructor
  · rintro ⟨k, hfeature⟩
    obtain ⟨previous, hp, current, hc, hlt, hbetween, hfeature⟩ := (mem_featuresOf_iff (hgroup k)).mp hfeature
    obtain ⟨hp, hpsettled, hpk⟩ := (hmem k previous).mp hp
    obtain ⟨hc, hcsettled, hck⟩ := (hmem k current).mp hc
    refine ⟨previous, hp, current, hc, hpsettled, hcsettled, hpk.trans hck.symm, hlt, ?_, hfeature⟩
    intro c hcandle hsettled hseries
    exact hbetween c ((hmem k c).mpr ⟨hcandle, hsettled, hseries.trans hck⟩)
  · rintro ⟨previous, hp, current, hc, hpsettled, hcsettled, hseries, hlt, hbetween, hfeature⟩
    refine ⟨current.series, (mem_featuresOf_iff (hgroup _)).mpr ⟨previous, (hmem _ _).mpr ⟨hp, hpsettled, hseries⟩, current,
      (hmem _ _).mpr ⟨hc, hcsettled, rfl⟩, hlt, ?_, hfeature⟩⟩
    intro c hcandle
    obtain ⟨hcandle, hsettled, hck⟩ := (hmem _ c).mp hcandle
    exact hbetween c hcandle hsettled hck

/-- Features name the candle that they are of. -/
theorem of_featureOf {previous current : CanonicalCandle} {feature : FeatureRecord}
    (h : featureOf host previous current = some feature) :
    (feature.market, feature.symbol, feature.timeframe, feature.eventTime) =
      (current.market, current.symbol, current.timeframe, DateTime.aware current.openTime) := by
  unfold featureOf at h
  by_cases hzero : previous.close = 0 ∨ current.openPrice = 0
  · rw [if_pos hzero] at h
    cases h
  · rw [if_neg hzero] at h
    cases h
    rfl

/-- A candle has features at most once. -/
theorem eq_of_mem_materializeFeatures {candles : List CanonicalCandle}
    (hkeys : candles.Pairwise fun a b => a.key ≠ b.key) {f g : FeatureRecord} (hf : f ∈ materializeFeatures host candles)
    (hg : g ∈ materializeFeatures host candles) (hcandle : (f.market, f.symbol, f.timeframe, f.eventTime) =
      (g.market, g.symbol, g.timeframe, g.eventTime)) : f = g := by
  obtain ⟨p, hp, c, hc, hpsettled, hcsettled, hseries, hlt, hbetween, hof⟩ := (mem_materializeFeatures_iff hkeys).mp hf
  obtain ⟨p', hp', c', hc', hpsettled', hcsettled', hseries', hlt', hbetween', hof'⟩ :=
    (mem_materializeFeatures_iff hkeys).mp hg
  have hunique : ∀ a ∈ candles, ∀ b ∈ candles, a.key = b.key → a = b := by
    have hnodup : (candles.map CanonicalCandle.key).Nodup := List.pairwise_map.mpr hkeys
    exact fun a ha b hb heq => List.inj_on_of_nodup_map hnodup ha hb heq
  have hcc : c = c' := by
    refine hunique c hc c' hc' ?_
    rw [of_featureOf hof, of_featureOf hof'] at hcandle
    obtain ⟨h₁, h₂, h₃, h₄⟩ : c.market = c'.market ∧ c.symbol = c'.symbol ∧ c.timeframe = c'.timeframe ∧
        c.openTime = c'.openTime := by
      simpa using hcandle
    simp [CanonicalCandle.key, h₁, h₂, h₃, h₄]
  subst hcc
  have hopen : p.openTime = p'.openTime := by
    rcases hbetween p' hp' hpsettled' hseries' with hle | hle
    · rcases hbetween' p hp hpsettled hseries with hle' | hle'
      · exact le_antisymm hle' hle
      · exact absurd hlt hle'.not_gt
    · exact absurd hlt' hle.not_gt
  have hpp : p = p' := hunique p hp p' hp' (key_eq_of_series_eq (hseries.trans hseries'.symm) hopen)
  rw [hpp, hof'] at hof
  exact (Option.some.inj hof).symm

end Features

end NanoDelta
