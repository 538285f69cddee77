import Mathlib.Data.Nat.Choose.Basic
import NanoDelta.Library.Series
import NanoDelta.Records
import NanoDelta.Strategies.Runtime
import NanoDelta.Strategies.TechnicalFeatures
import NanoDelta.Strategies.Validation

/-!
# Strategy research on NSE

`validation/nse.py`: a campaign runs a strategy over the settled candles of its symbols. At every snapshot of the
technical features at which the strategy signals, there is a trade, whose outcome is the next settled close. The
trades are folded into walk-forward windows and judged.

Left out are the campaign's own id and the readiness evidence, which are made elsewhere and read here.
-/

namespace NanoDelta.Validation

open Library Strategies

/-! ### Records -/

/-- `NseCostModel`. -/
structure NseCostModel where
  brokerageBps : ℚ
  taxesAndFeesBps : ℚ
  slippageBps : ℚ
  /-- No cost is negative. -/
  costs_nonneg : 0 ≤ brokerageBps ∧ 0 ≤ taxesAndFeesBps ∧ 0 ≤ slippageBps
  deriving DecidableEq

/-- `NseCostModel.round_trip_fraction`. -/
def NseCostModel.roundTripFraction (cost : NseCostModel) : ℚ :=
  (cost.brokerageBps + cost.taxesAndFeesBps + cost.slippageBps) / 10000

/-- `str(cost_model)`. -/
def NseCostModel.text (host : Host) (cost : NseCostModel) : String :=
  "NseCostModel(brokerage_bps=" ++ host.reprFloat cost.brokerageBps ++
    ", taxes_and_fees_bps=" ++ host.reprFloat cost.taxesAndFeesBps ++
    ", slippage_bps=" ++ host.reprFloat cost.slippageBps ++ ")"

/-- `REQUIRED_NSE_TIMEFRAMES`. -/
def requiredNseTimeframes : List String := ["5m", "15m", "30m", "1h"]

namespace NseValidationConfig

theorem costs_nonneg : (0 : ℚ) ≤ 3 ∧ (0 : ℚ) ≤ 7 ∧ (0 : ℚ) ≤ 5 := by decide

theorem samples_ge : 1 ≤ 30 ∧ 1 ≤ 5 := by decide

theorem two_years : 730 ≤ 730 := le_rfl

theorem five_windows : 2 ≤ 5 ∧ 1 ≤ 3 := by decide

theorem eight_tenths_mem : (8 / 10 : ℚ) ≤ 8 / 10 ∧ (8 / 10 : ℚ) ≤ 1 := by decide +kernel

theorem required_perm : requiredNseTimeframes.Perm requiredNseTimeframes := .refl _

theorem four_days_pos : 0 < seconds (4 * 86400) := by decide

end NseValidationConfig

/-- `NseValidationConfig`. -/
structure NseValidationConfig where
  minimumHistoryDays : ℕ := 730
  requiredTimeframes : List String := requiredNseTimeframes
  walkForwardWindows : ℕ := 5
  minimumSessionCoverage : ℚ := 8 / 10
  maximumLastBarAge : ℤ := seconds (4 * 86400)
  testedHypotheses : ℕ := 3
  costModel : NseCostModel := ⟨3, 7, 5, NseValidationConfig.costs_nonneg⟩
  policy : ValidationPolicy :=
    { minimumWalkForwardWindows := 5, samples_pos := NseValidationConfig.samples_ge
      ratio_mem := ValidationPolicy.six_tenths_mem, alpha_mem := ValidationPolicy.five_hundredths_mem }
  /-- Two years of history. -/
  history_ge : 730 ≤ minimumHistoryDays := by exact NseValidationConfig.two_years
  /-- At least two windows, and a hypothesis. -/
  windows_ge : 2 ≤ walkForwardWindows ∧ 1 ≤ testedHypotheses := by first | exact NseValidationConfig.five_windows | decide
  /-- The coverage is a fraction. -/
  coverage_mem : 8 / 10 ≤ minimumSessionCoverage ∧ minimumSessionCoverage ≤ 1 := by exact NseValidationConfig.eight_tenths_mem
  /-- All four timeframes. -/
  timeframes_perm : requiredTimeframes.Perm requiredNseTimeframes := by exact NseValidationConfig.required_perm
  /-- The age is positive. -/
  age_pos : 0 < maximumLastBarAge := by exact NseValidationConfig.four_days_pos

/-- `SettledCandle`. -/
@[ext] structure SettledCandle where
  symbol : String
  timeframe : String
  openTime : Instant
  openPrice : ℚ
  high : ℚ
  low : ℚ
  close : ℚ
  volume : ℚ
  provider : Provider := .dhan
  /-- No text is blank. -/
  texts : isBlank symbol = false ∧ isBlank timeframe = false
  /-- The prices are positive. -/
  prices_pos : 0 < openPrice ∧ 0 < high ∧ 0 < low ∧ 0 < close
  /-- The volume is not negative. -/
  volume_nonneg : 0 ≤ volume
  /-- The open and the close are between the low and the high. -/
  range : low ≤ min openPrice close ∧ max openPrice close ≤ high

instance : DecidableEq SettledCandle := fun _ _ => decidable_of_iff _ SettledCandle.ext_iff.symm

/-- `NseReadinessEvidence`, what is read of it. -/
structure NseReadinessEvidence where
  symbol : String
  timeframe : String
  ready : Bool
  reasons : List String

/-- `WalkForwardWindow`. -/
structure WalkForwardWindow where
  index : ℕ
  startedAt : Option Instant
  endedAt : Option Instant
  tradeCount : ℕ
  grossExpectancy : ℚ
  netExpectancy : ℚ
  profitable : Bool
  deriving DecidableEq

/-- `repr` of a `datetime` in UTC. -/
def reprDatetime (t : Instant) : String :=
  let days := t / 86400000000
  let micros := (t - days * 86400000000).toNat
  let (year, month, day) := civil days
  let secs := micros / 1000000
  let rest := if micros % 1000000 ≠ 0 then [secs % 60, micros % 1000000] else if secs % 60 ≠ 0 then [secs % 60] else []
  "datetime.datetime(" ++ ", ".intercalate (([year, month, day, secs / 3600, secs / 60 % 60] ++ rest).map toString) ++
    ", tzinfo=datetime.timezone.utc)"

example : reprDatetime (seconds 1786795200) = "datetime.datetime(2026, 8, 15, 12, 0, tzinfo=datetime.timezone.utc)" :=
  by decide +kernel

/-- `repr` of a time that may be missing. -/
def reprTime : Option Instant → String
  | none => "None"
  | some t => reprDatetime t

/-- `repr` of a window. -/
def WalkForwardWindow.text (host : Host) (window : WalkForwardWindow) : String :=
  "WalkForwardWindow(index=" ++ toString window.index ++
    ", started_at=" ++ reprTime window.startedAt ++
    ", ended_at=" ++ reprTime window.endedAt ++
    ", trade_count=" ++ toString window.tradeCount ++
    ", gross_expectancy=" ++ host.reprFloat window.grossExpectancy ++
    ", net_expectancy=" ++ host.reprFloat window.netExpectancy ++
    ", profitable=" ++ (if window.profitable then "True" else "False") ++ ")"

/-- `ResearchState`. -/
inductive ResearchState where
  | research
  | failed
  deriving DecidableEq

/-- `NseStrategyEvidence`. -/
structure NseStrategyEvidence where
  evidenceId : String
  campaignId : String
  validation : ValidationResult
  state : ResearchState
  dataFingerprint : String
  windows : List WalkForwardWindow
  costModel : NseCostModel
  stressedNetExpectancy : ℚ

/-- `NseValidationCampaign`. -/
structure NseValidationCampaign where
  campaignId : String
  evaluatedAt : Instant
  requestedStart : Instant
  requestedEnd : Instant
  symbols : List String
  config : NseValidationConfig

/-! ### Trades -/

/-- The candle as the indicators see it. -/
def SettledCandle.technical (row : SettledCandle) : TechnicalCandle where
  eventTime := row.openTime
  openPrice := row.openPrice
  high := row.high
  low := row.low
  close := row.close
  volume := row.volume
  prices_pos := ⟨row.prices_pos.1, row.prices_pos.2.2.2, row.prices_pos.2.2.1⟩
  range := ⟨row.range.2, row.range.1⟩
  volume_nonneg := row.volume_nonneg

/-- The constructor of `TechnicalCandle` takes every settled candle. -/
theorem SettledCandle.create_technical (row : SettledCandle) :
    TechnicalCandle.create (.aware row.openTime) row.openPrice row.high row.low row.close row.volume true =
      .ok row.technical := by
  obtain ⟨hopen, hhigh, hlow, hclose⟩ := row.prices_pos
  obtain ⟨hlower, hupper⟩ := row.range
  have hle : row.low ≤ row.high := (hlower.trans (min_le_left _ _)).trans ((le_max_left _ _).trans hupper)
  have h₁ : ¬ (row.openPrice ≤ 0 ∨ row.close ≤ 0 ∨ row.low ≤ 0 ∨ row.high < row.low) := by
    simp only [not_or, not_le, not_lt]
    exact ⟨hopen, hclose, hlow, hle⟩
  have h₂ : ¬ (row.high < max row.openPrice row.close ∨ min row.openPrice row.close < row.low) := by
    simp only [not_or, not_lt]
    exact ⟨hupper, hlower⟩
  unfold TechnicalCandle.create
  dsimp only
  rw [dif_neg h₁, dif_neg h₂, dif_neg (not_lt.mpr row.volume_nonneg)]
  rfl

/-- The candles of a campaign that a strategy is run over. -/
def selected (campaign : NseValidationCampaign) (identity : StrategyIdentity) (candles : List SettledCandle) :
    List SettledCandle :=
  candles.filter fun c => c.symbol ∈ campaign.symbols ∧ c.timeframe = identity.timeframe ∧ c.provider = .dhan ∧
    c.openTime ≤ campaign.requestedEnd

/-- Candles by time. -/
def byOpenTime (rows : List SettledCandle) : List SettledCandle :=
  rows.insertionSort fun a b => a.openTime ≤ b.openTime

/-- The series of the symbols, in the order of the symbols. -/
def seriesOf (campaign : NseValidationCampaign) (identity : StrategyIdentity) (candles : List SettledCandle) :
    List (String × List SettledCandle) :=
  (((groupBy SettledCandle.symbol (selected campaign identity candles)).entries.insertionSort fun a b => a.1 ≤ b.1).map
    fun e => (e.1, byOpenTime e.2))

/-- The closes by time. -/
def closesOf (rows : List SettledCandle) : Dict Instant ℚ :=
  rows.foldl (fun closes row => closes.set row.openTime row.close) .empty

/-- `next_close`: the close of the candle after each one. -/
def nextClose (rows : List SettledCandle) : Dict Instant ℚ :=
  (rows.zip rows.tail).foldl (fun following e =>
    match (closesOf rows).get? e.2.openTime with
    | some close => following.set e.1.openTime close
    | none => following) .empty

/-- A trade: when, in which symbol, and what it returned. -/
structure Trade where
  eventTime : Instant
  symbol : String
  gross : ℚ
  deriving DecidableEq

/-- What a signal returned, up to the next close. -/
def grossOf (signal : StrategySignal) (following : ℚ) : ℚ :=
  (if signal.action = .buy then 1 else -1) * (following - signal.referencePrice) / signal.referencePrice

/-- `str` of a `datetime` in UTC. -/
def strDatetime (t : Instant) : String :=
  String.ofList ((isoformat t).toList.map fun c => if c = 'T' then ' ' else c)

/-- The context of a snapshot. Nothing is said about its regime. -/
def contextAt (host : Host) (identity : StrategyIdentity) (symbol : String) (snapshot : TechnicalFeatureSnapshot) :
    Except PyError StrategyContext :=
  StrategyContext.create identity.market symbol none identity.timeframe identity.tradeHorizon
    identity.featureSetVersion (.aware snapshot.eventTime)
    [stableId host [symbol, identity.timeframe, strDatetime snapshot.eventTime]] snapshot.values true true "TRADEABLE" {}

/-- The trade of a snapshot, if there is one. -/
def tradeAt (host : Host) (campaign : NseValidationCampaign) (plugin : StrategyPlugin) (symbol : String)
    (rows : List SettledCandle) (snapshot : TechnicalFeatureSnapshot) : Except PyError (Option Trade) :=
  if ¬ (campaign.requestedStart ≤ snapshot.eventTime ∧ snapshot.eventTime ≤ campaign.requestedEnd) then .ok none
  else
    match (nextClose rows).get? snapshot.eventTime with
    | none => .ok none
    | some following => do
      let context ← contextAt host plugin.definition.identity symbol snapshot
      let (compatible, _) ← plugin.compatibility context
      let signal ← if compatible then plugin.generate context else .ok none
      return signal.map fun signal => ⟨snapshot.eventTime, symbol, grossOf signal following⟩

/-- The snapshots of a series. -/
def snapshotsOf (rows : List SettledCandle) : Except PyError (List TechnicalFeatureSnapshot) :=
  materializeTechnicalFeatures (rows.map SettledCandle.technical) {}

/-- The trades of a symbol. -/
def tradesIn (host : Host) (campaign : NseValidationCampaign) (plugin : StrategyPlugin)
    (series : String × List SettledCandle) : Except PyError (List Trade) := do
  let snapshots ← snapshotsOf series.2
  let trades ← snapshots.mapM (tradeAt host campaign plugin series.1 series.2)
  return trades.reduceOption

/-- `trades`, in the order of symbols and snapshots. -/
def tradesOf (host : Host) (campaign : NseValidationCampaign) (plugin : StrategyPlugin)
    (candles : List SettledCandle) : Except PyError (List Trade) := do
  let parts ← (seriesOf campaign plugin.definition.identity candles).mapM (tradesIn host campaign plugin)
  return parts.flatten

/-! ### Windows and metrics -/

/-- `_one_sided_sign_test`. -/
def oneSidedSignTest (wins sample : ℕ) : Except PyError ℚ :=
  if sample = 0 then .ok 1
  else do
    let tail ← floatOfNat (((List.range' wins (sample + 1 - wins)).map fun index => sample.choose index).sum)
    let total ← floatOfNat (2 ^ sample)
    return min 1 (tail / total)

/-- `_maximum_drawdown`: the equity, its peak and the greatest loss from a peak, return by return. -/
def maximumDrawdown (returns : List ℚ) : ℚ :=
  (returns.foldl (fun (state : ℚ × ℚ × ℚ) value =>
    let equity := state.1 * max 0 (1 + value)
    let peak := max state.2.1 equity
    (equity, peak, max state.2.2 (if peak = 0 then 0 else (peak - equity) / peak))) (1, 1, 0)).2.2

/-- The mean of some returns, zero if there are none. -/
def expectancy (returns : List ℚ) : ℚ := if returns.length = 0 then 0 else returns.sum / returns.length

/-- `_window`. -/
def windowOf (index : ℕ) (rows : List Trade) (cost : ℚ) : WalkForwardWindow :=
  let gross := expectancy (rows.map Trade.gross)
  let net := if rows.length = 0 then 0 else gross - cost
  ⟨index, rows.head?.map Trade.eventTime, rows.getLast?.map Trade.eventTime, rows.length, gross, net,
    0 < rows.length && 0 < net⟩

/-- The trades by time, and by symbol at the same time. -/
def byTime (trades : List Trade) : List Trade :=
  trades.insertionSort fun a b => a.eventTime < b.eventTime ∨ a.eventTime = b.eventTime ∧ a.symbol ≤ b.symbol

/-- The trades of each window, by their places in time. -/
def windowRows (windows : ℕ) (ordered : List Trade) : List (List Trade) :=
  (List.range windows).map fun slot =>
    (ordered.zipIdx.filter fun e => min (windows - 1) (e.2 * windows / max 1 ordered.length) = slot).map Prod.fst

/-- The metrics of the trades. -/
def metricsOf (config : NseValidationConfig) (ordered : List Trade) (windows : List WalkForwardWindow) :
    Except PyError ValidationMetrics := do
  let cost := config.costModel.roundTripFraction
  let returns := ordered.map Trade.gross
  let pValue ← oneSidedSignTest (returns.countP fun value => cost < value) returns.length
  return {
    tradeCount := returns.length
    walkForwardWindows := windows.length
    profitableWindows := windows.countP WalkForwardWindow.profitable
    grossExpectancy := expectancy returns
    estimatedCostPerTrade := cost
    maximumDrawdown := maximumDrawdown (returns.map fun value => value - cost)
    pValue
    testedHypotheses := config.testedHypotheses }

/-! ### Evidence -/

/-- What the model takes from the Python runtime, with JSON. -/
structure ResearchHost extends Host where
  /-- `json.dumps` of a text. -/
  dumpStr : String → String

/-- A candle as a line of the fingerprint. -/
def fingerprintLine (host : ResearchHost) (candle : SettledCandle) : String :=
  "[" ++ ",".intercalate ([host.dumpStr candle.symbol, host.dumpStr candle.timeframe,
    host.dumpStr (isoformat candle.openTime)] ++
    [candle.openPrice, candle.high, candle.low, candle.close, candle.volume].map host.reprFloat ++
    [host.dumpStr candle.provider.value]) ++ "]\n"

/-- The order of the fingerprint: by symbol, timeframe and time. -/
def fingerprintLe (a b : SettledCandle) : Bool :=
  a.symbol < b.symbol || (a.symbol = b.symbol &&
    (a.timeframe < b.timeframe || (a.timeframe = b.timeframe && a.openTime ≤ b.openTime)))

/-- `_fingerprint`. -/
def fingerprint (host : ResearchHost) (candles : List SettledCandle) : String :=
  host.sha256 (String.join ((candles.insertionSort fun a b => fingerprintLe a b).map (fingerprintLine host)))

/-- The reasons that the readiness evidence gives, sorted. -/
def readinessFailures (campaign : NseValidationCampaign) (readiness : List NseReadinessEvidence) : List String :=
  let expected := campaign.symbols.product campaign.config.requiredTimeframes
  let observed := readiness.map fun item => (item.symbol, item.timeframe)
  let missing := if observed ⊆ expected ∧ expected ⊆ observed then [] else ["MISSING_READINESS_EVIDENCE"]
  let reasons := (readiness.filter fun item => !item.ready).flatMap fun item =>
    "DATA_NOT_READY" :: missing ++ item.reasons
  ((reasons ++ missing).dedup).insertionSort (· ≤ ·)

/-- The validation with the readiness failures added to its reasons. -/
def withReadiness (validation : ValidationResult) (failures : List String) : ValidationResult :=
  if failures = [] then validation
  else { validation with passed := false, rejectionReasons := (validation.rejectionReasons ++ failures).eraseDups }

@[simp] theorem withReadiness_metrics (validation : ValidationResult) (failures : List String) :
    (withReadiness validation failures).metrics = validation.metrics := by
  unfold withReadiness
  split_ifs <;> rfl

/-- Readiness does not let a validation pass that has failed. -/
theorem withReadiness_failed {validation : ValidationResult} (h : validation.passed = false) (failures : List String) :
    (withReadiness validation failures).passed = false := by
  unfold withReadiness
  split_ifs
  · exact h
  · rfl

/-- `evaluate_nse_strategy`. -/
def evaluateNseStrategy (host : ResearchHost) (campaign : NseValidationCampaign) (plugin : StrategyPlugin)
    (candles : List SettledCandle) (readiness : List NseReadinessEvidence) : Except PyError NseStrategyEvidence :=
  if plugin.definition.identity.market ≠ .nse then
    .error (.valueError "NSE validation accepts only NSE strategy identities")
  else do
    let ordered := byTime (← tradesOf host.toHost campaign plugin candles)
    let cost := campaign.config.costModel.roundTripFraction
    let windows := (windowRows campaign.config.walkForwardWindows ordered).mapIdx fun index rows =>
      windowOf (index + 1) rows cost
    let metrics ← metricsOf campaign.config ordered windows
    let validation ← validateStrategy host.toHost plugin.definition.identity metrics campaign.config.policy
      (.aware campaign.evaluatedAt)
    let validation := withReadiness validation (readinessFailures campaign readiness)
    let used := (seriesOf campaign plugin.definition.identity candles).flatMap Prod.snd
    let dataFingerprint := fingerprint host used
    return {
      evidenceId := stableId host.toHost [campaign.campaignId, validation.validationRunId, dataFingerprint,
        reprTuple (windows.map (WalkForwardWindow.text host.toHost)), campaign.config.costModel.text host.toHost]
      campaignId := campaign.campaignId
      validation
      state := if validation.passed then .research else .failed
      dataFingerprint, windows
      costModel := campaign.config.costModel
      stressedNetExpectancy := metrics.grossExpectancy - cost * (3 / 2) }

end NanoDelta.Validation
