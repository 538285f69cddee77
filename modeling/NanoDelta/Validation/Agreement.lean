import Mathlib.Data.List.ReduceOption
import NanoDelta.Runtime.LateCycles
import NanoDelta.Validation.Nse

/-!
# Validation and the paper runtime

The paper runtime and the validation run the same plugins over the same features, each in contexts of its own. The
runtime labels the regime of the symbol, and every technical plugin asks for one of the labels; the validation leaves
the label at its default.

* `tradesOf_technical`: so the validation of a technical plugin records no trade, and its evidence fails.
* `validation_agrees_iff`: it agrees with the runtime just where the runtime does not signal either.
* `breakout_is_not_recorded`: a breakout on which the runtime signals.
-/

namespace NanoDelta.Validation

open Library Strategies NanoDelta.Runtime

/-! ### Agreement -/

/-- What a plugin signals in the technical context of a row, if it is compatible. -/
def runtimeSignal {Ω : Type} (self : PaperDecisionService Ω) (plugin : StrategyPlugin) (feature : FeatureRecord)
    (now : Instant) : Except PyError (Option StrategySignal) := do
  match ← technicalContext self feature now with
  | none => return none
  | some context => do
    let (compatible, _) ← plugin.compatibility context
    if compatible then plugin.generate context else return none

/-- The runtime signals on the row of a snapshot: what it reads for the row are the values of the snapshot, with the
label that they have under the default limits. -/
def RuntimeSignals (plugin : StrategyPlugin) (symbol : String) (snapshot : TechnicalFeatureSnapshot)
    (signal : StrategySignal) : Prop :=
  ∃ (Ω : Type) (self : PaperDecisionService Ω) (feature : FeatureRecord) (reading : TechnicalReading) (now : Instant),
    (feature.market = .nse ∧ feature.symbol = symbol ∧ feature.timeframe = plugin.definition.identity.timeframe ∧
      feature.eventTime = .aware snapshot.eventTime) ∧
    self.data.technical feature = .ok (some reading) ∧ reading.values = snapshot.values ∧
    classifyRegimeLabel snapshot.values defaultSymbolRegimeLimits = .ok reading.regimeLabel ∧
    runtimeSignal self plugin feature now = .ok (some signal)

/-- A snapshot in the range of a campaign, and the close that follows it. -/
structure InCampaign (campaign : NseValidationCampaign) (plugin : StrategyPlugin) (candles : List SettledCandle)
    (symbol : String) (snapshot : TechnicalFeatureSnapshot) (following : ℚ) : Prop where
  snapshot_mem : ∃ rows snapshots, (symbol, rows) ∈ seriesOf campaign plugin.definition.identity candles ∧
    snapshotsOf rows = .ok snapshots ∧ snapshot ∈ snapshots ∧ (nextClose rows).get? snapshot.eventTime = some following
  range : campaign.requestedStart ≤ snapshot.eventTime ∧ snapshot.eventTime ≤ campaign.requestedEnd

/-- The validation records the trade of every signal of the runtime. -/
def Agrees (host : Host) (campaign : NseValidationCampaign) (plugin : StrategyPlugin) (candles : List SettledCandle) :
    Prop :=
  ∀ symbol snapshot following signal, InCampaign campaign plugin candles symbol snapshot following →
    RuntimeSignals plugin symbol snapshot signal →
    ∃ trades, tradesOf host campaign plugin candles = .ok trades ∧
      ⟨snapshot.eventTime, symbol, grossOf signal following⟩ ∈ trades

/-! ### No trades -/

section NoTrades

variable {host : Host} {campaign : NseValidationCampaign} {candles : List SettledCandle}

/-- The contexts of the validation have no label. -/
theorem label_contextAt {identity : StrategyIdentity} {symbol : String} {snapshot : TechnicalFeatureSnapshot}
    {context : StrategyContext} (h : contextAt host identity symbol snapshot = .ok context) :
    context.regime.symbolRegimeLabel = "UNKNOWN" := by
  unfold contextAt StrategyContext.create at h
  split_ifs at h
  cases h
  rfl

/-- So a technical plugin has no trade at a snapshot. -/
theorem tradeAt_technical (strategy : TechnicalStrategy) {symbol : String} {rows : List SettledCandle}
    {snapshot : TechnicalFeatureSnapshot} {trade : Option Trade}
    (h : tradeAt host campaign strategy.plugin symbol rows snapshot = .ok trade) : trade = none := by
  unfold tradeAt at h
  by_cases hrange : campaign.requestedStart ≤ snapshot.eventTime ∧ snapshot.eventTime ≤ campaign.requestedEnd
  · rw [if_neg (not_not.mpr hrange)] at h
    cases hfollowing : (nextClose rows).get? snapshot.eventTime with
    | none =>
      rw [hfollowing] at h
      cases h
      rfl
    | some following =>
      rw [hfollowing] at h
      obtain ⟨context, hcontext, h⟩ := Effect.except_bind_eq_ok.mp h
      obtain ⟨reason, hreason⟩ := strategy.incompatible_of_unknown (label_contextAt hcontext)
      rw [hreason] at h
      cases h
      rfl
  · rw [if_pos hrange] at h
    cases h
    rfl

theorem tradesIn_technical (strategy : TechnicalStrategy) {series : String × List SettledCandle} {trades : List Trade}
    (h : tradesIn host campaign strategy.plugin series = .ok trades) : trades = [] := by
  obtain ⟨snapshots, -, h⟩ := Effect.except_bind_eq_ok.mp h
  obtain ⟨found, hfound, h⟩ := Effect.except_bind_eq_ok.mp h
  cases h
  refine List.eq_nil_iff_forall_not_mem.mpr fun trade htrade => ?_
  rw [List.reduceOption_mem_iff] at htrade
  obtain ⟨snapshot, -, hsnapshot⟩ := Effect.exists_of_forall₂ (Effect.forall₂_of_mapM hfound) htrade
  cases tradeAt_technical strategy hsnapshot

/-- A technical plugin has no trades. -/
theorem tradesOf_technical (strategy : TechnicalStrategy) {trades : List Trade}
    (h : tradesOf host campaign strategy.plugin candles = .ok trades) : trades = [] := by
  obtain ⟨parts, hparts, h⟩ := Effect.except_bind_eq_ok.mp h
  cases h
  refine List.flatten_eq_nil_iff.mpr fun part hpart => ?_
  obtain ⟨series, -, hseries⟩ := Effect.exists_of_forall₂ (Effect.forall₂_of_mapM hparts) hpart
  exact tradesIn_technical strategy hseries

/-- Its evidence has no trades and has not passed, whatever the candles are. -/
theorem evidence_technical (strategy : TechnicalStrategy) {host : ResearchHost}
    {readiness : List NseReadinessEvidence} {evidence : NseStrategyEvidence}
    (h : evaluateNseStrategy host campaign strategy.plugin candles readiness = .ok evidence) :
    evidence.validation.metrics.tradeCount = 0 ∧ evidence.state = .failed := by
  unfold evaluateNseStrategy at h
  split_ifs at h
  obtain ⟨trades, htrades, h⟩ := Effect.except_bind_eq_ok.mp h
  obtain ⟨metrics, hmetrics, h⟩ := Effect.except_bind_eq_ok.mp h
  obtain ⟨validation, hvalidation, h⟩ := Effect.except_bind_eq_ok.mp h
  cases h
  rw [tradesOf_technical strategy htrades] at hmetrics
  obtain ⟨pValue, -, hmetrics⟩ := Effect.except_bind_eq_ok.mp hmetrics
  cases hmetrics
  have hfailed : validation.passed = false :=
    not_passed_of_few_trades (by exact campaign.config.policy.samples_pos.1) hvalidation
  rw [withReadiness_metrics, (of_validateStrategy hvalidation).1, withReadiness_failed hfailed]
  exact ⟨rfl, rfl⟩

/-- **The validation agrees with the runtime** on a technical plugin just where the runtime signals at no snapshot that
the campaign could have traded: where it signals, the validation has no trade. -/
theorem validation_agrees_iff (host : Host) (campaign : NseValidationCampaign) (strategy : TechnicalStrategy)
    (candles : List SettledCandle) :
    Agrees host campaign strategy.plugin candles ↔
      ∀ symbol snapshot following signal, InCampaign campaign strategy.plugin candles symbol snapshot following →
        ¬ RuntimeSignals strategy.plugin symbol snapshot signal := by
  constructor
  · intro hagrees symbol snapshot following signal hin hsignals
    obtain ⟨trades, htrades, htrade⟩ := hagrees symbol snapshot following signal hin hsignals
    rw [tradesOf_technical strategy htrades] at htrade
    cases htrade
  · intro hquiet symbol snapshot following signal hin hsignals
    exact absurd hsignals (hquiet symbol snapshot following signal hin)

end NoTrades

/-! ### A breakout -/

namespace Sample

open Risk.Sample NanoDelta.Runtime.Sample

/-- A quarter of an hour of RELIANCE, some quarters after noon. -/
def quarter (after : ℤ) (close : ℚ) (volume : ℕ) (hclose : 199 / 2 ≤ close ∧ 0 < close := by decide +kernel) :
    SettledCandle where
  symbol := "RELIANCE"
  timeframe := "15m"
  openTime := noon + seconds (900 * after)
  openPrice := 100
  high := max close (201 / 2)
  low := 199 / 2
  close := close
  volume := volume
  texts := by decide
  prices_pos := ⟨by decide, lt_max_of_lt_left hclose.2, by decide +kernel, hclose.2⟩
  volume_nonneg := Nat.cast_nonneg volume
  range := ⟨le_min (by decide +kernel) hclose.1, max_le (le_max_of_le_right (by decide +kernel)) (le_max_left _ _)⟩

/-- Thirty quiet quarters, a breakout at noon, and the quarter after it. -/
def quarters : List SettledCandle :=
  ((List.range 30).map fun k => quarter (k - 30) 100 100) ++ [quarter 0 101 1000, quarter 1 102 1000]

/-- A campaign of two years up to the next day. -/
def campaign : NseValidationCampaign where
  campaignId := "campaign-1"
  evaluatedAt := noon + seconds 86400
  requestedStart := noon - seconds (730 * 86400)
  requestedEnd := noon + seconds 86400
  symbols := ["RELIANCE"]
  config := {}

theorem breakout_texts : isBlank "breakout" = false ∧ isBlank "15m" = false := by decide

/-- The breakout strategy. -/
def breakout : TechnicalStrategy :=
  .breakout { definition := technicalDefinition .nse "breakout" "15m" "breakout"
                [("range_period", "20"), ("minimum_volume_ratio", "1.3")] "BreakoutStrategy" breakout_texts }

/-- The snapshot of the series at noon. -/
def noonSnapshot : Option TechnicalFeatureSnapshot :=
  match snapshotsOf quarters with
  | .ok snapshots => snapshots.find? fun snapshot => snapshot.eventTime = noon
  | .error _ => none

/-- Its values. -/
def noonValues : Dict String ℚ := (noonSnapshot.map TechnicalFeatureSnapshot.values).getD .empty

/-- The row of noon. -/
def noonRow : FeatureRecord := { row "gold-1" 0 101 with timeframe := "15m" }

/-- A service that reads the values of noon. -/
def reader : PaperDecisionService Worker :=
  { service with
    data := { data with technical := fun _ => .ok (some ⟨noonValues, true, "TRADEABLE", 1, 1, "COMPRESSION"⟩) } }

end Sample

/-- The runtime signals on a breakout, and the validation records no trade for it. -/
theorem breakout_is_not_recorded : ¬ Agrees .cpython Sample.campaign Sample.breakout.plugin Sample.quarters := by
  intro hagrees
  obtain ⟨snapshot, hsnapshot⟩ : ∃ snapshot, Sample.noonSnapshot = some snapshot :=
    Option.isSome_iff_exists.mp (by decide +kernel)
  have hvalues : Sample.noonValues = snapshot.values := by
    unfold Sample.noonValues
    rw [hsnapshot]
    rfl
  obtain ⟨signal, hsignal⟩ : ∃ signal, runtimeSignal Sample.reader Sample.breakout.plugin Sample.noonRow
      Risk.Sample.noon = .ok (some signal) := by
    have hsome : ((runtimeSignal Sample.reader Sample.breakout.plugin Sample.noonRow Risk.Sample.noon).toOption.join
        ).isSome = true := by decide +kernel
    cases hread : runtimeSignal Sample.reader Sample.breakout.plugin Sample.noonRow Risk.Sample.noon with
    | error e =>
      rw [hread] at hsome
      cases hsome
    | ok found =>
      rw [hread] at hsome
      obtain ⟨signal, hfound⟩ := Option.isSome_iff_exists.mp hsome
      exact ⟨signal, congrArg Except.ok hfound⟩
  obtain ⟨snapshots, hsnapshots, hfind⟩ : ∃ snapshots, snapshotsOf Sample.quarters = .ok snapshots ∧
      snapshots.find? (fun snapshot => snapshot.eventTime = Risk.Sample.noon) = some snapshot := by
    unfold Sample.noonSnapshot at hsnapshot
    cases hread : snapshotsOf Sample.quarters with
    | error e =>
      rw [hread] at hsnapshot
      cases hsnapshot
    | ok snapshots =>
      rw [hread] at hsnapshot
      exact ⟨snapshots, rfl, hsnapshot⟩
  have htime : snapshot.eventTime = Risk.Sample.noon := by simpa using List.find?_some hfind
  have hin : InCampaign Sample.campaign Sample.breakout.plugin Sample.quarters "RELIANCE" snapshot 102 := by
    refine ⟨⟨Sample.quarters, snapshots, by decide +kernel, hsnapshots, List.mem_of_find?_eq_some hfind, ?_⟩, ?_⟩
    · rw [htime]
      decide +kernel
    · rw [htime]
      decide +kernel
  have hsignals : RuntimeSignals Sample.breakout.plugin "RELIANCE" snapshot signal := by
    refine ⟨_, Sample.reader, Sample.noonRow, _, Risk.Sample.noon, ⟨rfl, rfl, rfl, ?_⟩, rfl, hvalues, ?_, hsignal⟩
    · rw [htime]
      rfl
    · rw [← hvalues]
      decide +kernel
  obtain ⟨trades, htrades, htrade⟩ := hagrees "RELIANCE" snapshot 102 signal hin hsignals
  rw [tradesOf_technical Sample.breakout htrades] at htrade
  cases htrade

end NanoDelta.Validation
