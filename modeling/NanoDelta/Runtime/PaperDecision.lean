import NanoDelta.Paper.Lifecycle
import NanoDelta.Runtime.PortfolioSnapshot
import NanoDelta.Strategies.Technical

/-!
# The paper decision service

`runtime/paper_decision.py`: one decision cycle for new Gold rows. Open positions are
managed first; then the rows whose symbol was not closed become contexts, the pipeline
makes allocations of them, and the batch executor submits these and registers their
exits.

What the service reads from the candle tables and from the quote provider, and the
indicators it computes from that, is the parameter `MarketData`: each reading is whatever
it is, or raises.
-/

namespace NanoDelta.Runtime

open Library Strategies Decisions Risk Outcomes Paper Orchestration

/-! ### Records -/

/-- `PaperDecisionResult`. -/
structure PaperDecisionResult where
  market : Market
  cycleId : String
  mode : CycleMode
  candidateCount : ℕ
  allocationCount : ℕ
  riskDecisionCount : ℕ
  orderCount : ℕ
  exitCount : ℕ
  deriving DecidableEq

/-- What `_technical_context` finds for a symbol whose indicators have warmed up. -/
structure TechnicalReading where
  values : Dict String ℚ
  tradeable : Bool
  tradeabilityReason : String
  symbolFit : ℚ
  mtfAlignment : ℚ
  regimeLabel : String

/-- What the service reads besides the tables of the paper session. -/
structure MarketData where
  /-- `_latest_marks`. -/
  latestMarks : Market → Except PyError (Dict String ℚ)
  /-- `sector_for`. -/
  sectorFor : String → Option String
  /-- `_market_sector_fit`. -/
  marketSectorFit : Market → Option String → Instant → Except PyError (ℚ × ℚ)
  /-- The indicators of `_technical_context`, if there are enough candles. -/
  technical : FeatureRecord → Except PyError (Option TechnicalReading)
  /-- `fetch_return_correlations`. -/
  correlations : Market → List String → Except PyError (Dict (String × String) ℚ)
  /-- `_entry_session_open`. -/
  entrySessionOpen : Market → Instant → Except PyError Bool

/-- `PaperDecisionService`, over a state `Ω` that its parts share. -/
structure PaperDecisionService (Ω : Type) where
  pipeline : StagedDecisionPipeline Ω
  batch : PaperBatchExecutor Ω
  lifecycle : Option (PaperPositionLifecycle Ω)
  /-- `_portfolio`. -/
  portfolio : Market → Dict String ℚ → Instant → EStateM PyError Ω PortfolioSnapshot
  data : MarketData
  accountId : String
  maxAgeSeconds : ℚ

/-! ### Contexts -/

/-- `0 <= age <= max_age`. -/
def isFresh (maxAgeSeconds : ℚ) (feature : FeatureRecord) (now : Instant) : Bool :=
  let age : ℚ := ((now - feature.eventTime.astimezone : ℤ) : ℚ) / 1000000
  0 ≤ age && age ≤ maxAgeSeconds

/-- The values of a bar. -/
def barValues (feature : FeatureRecord) : Dict String ℚ :=
  let values := (((Dict.empty.set "close" feature.close).set "return_1" feature.return1).set
    "range_pct" feature.rangePct).set "body_pct" feature.bodyPct
  match feature.volumeChange with
  | none => values
  | some change => values.set "volume_change" change

section Service

variable (host : Host) {Ω : Type} (self : PaperDecisionService Ω)

/-- `_basic_context`. -/
def basicContext (feature : FeatureRecord) (now : Instant) : Except PyError StrategyContext := do
  let sector := self.data.sectorFor feature.symbol
  let (marketFit, sectorFit) ← self.data.marketSectorFit feature.market sector now
  let regime ← RegimeEvidence.create marketFit sectorFit 1 1 "UNKNOWN"
  StrategyContext.create feature.market feature.symbol sector feature.timeframe "intraday" feature.featureVersion
    feature.eventTime [feature.recordId] (barValues feature) (isFresh self.maxAgeSeconds feature now) true
    "TRADEABLE" regime

/-- The part of `_technical_context` for a symbol whose indicators have warmed up. -/
def readContext (feature : FeatureRecord) (reading : TechnicalReading) (now : Instant) :
    Except PyError StrategyContext := do
  let sector := self.data.sectorFor feature.symbol
  let (marketFit, sectorFit) ← self.data.marketSectorFit feature.market sector now
  let regime ← RegimeEvidence.create marketFit sectorFit reading.symbolFit reading.mtfAlignment reading.regimeLabel
  StrategyContext.create feature.market feature.symbol sector feature.timeframe "intraday" technicalFeatureVersion
    feature.eventTime [feature.recordId] reading.values (isFresh self.maxAgeSeconds feature now) reading.tradeable
    reading.tradeabilityReason regime

/-- `_technical_context`. -/
def technicalContext (feature : FeatureRecord) (now : Instant) : Except PyError (Option StrategyContext) := do
  let reading ← self.data.technical feature
  match reading with
  | none => return none
  | some reading => do
    let context ← readContext self feature reading now
    return some context

/-- The contexts of the rows that are eligible. -/
def contextsOf (eligible : List FeatureRecord) (now : Instant) : EStateM PyError Ω (List StrategyContext) := do
  let basic ← Effect.each (fun feature => Effect.ofExcept (basicContext self feature now)) eligible
  let technical ← Effect.collect (fun feature => Effect.ofExcept (technicalContext self feature now)) eligible
  return basic ++ technical

/-- `_correlations`. -/
def correlationsOf (market : Market) (symbols : List String) : Except PyError (Dict (String × String) ℚ) :=
  if symbols.length < 2 then .ok .empty else self.data.correlations market (symbols.insertionSort (· ≤ ·))

/-! ### A cycle -/

/-- The marks: the latest closes, and the closes of the rows. -/
def marksOf (market : Market) (features : List FeatureRecord) : Except PyError (Dict String ℚ) := do
  let marks ← self.data.latestMarks market
  return features.foldl (fun d feature => d.set feature.symbol feature.close) marks

/-- The part of `process` that manages open positions: the snapshot to trade against, and the symbols that
were closed. -/
def manageOpen (market : Market) (marks : Dict String ℚ) (features : List FeatureRecord) (now : Instant) :
    EStateM PyError Ω (PortfolioSnapshot × List String) := do
  let portfolio ← self.portfolio market marks now
  match self.lifecycle with
  | none => return (portfolio, [])
  | some lifecycle => do
    let outcomes ← lifecycle.manage host market self.accountId marks portfolio
      (features.foldl (fun d feature => d.set feature.symbol feature.recordId) .empty) (.aware now)
    match outcomes with
    | [] => return (portfolio, [])
    | outcomes => do
      let portfolio ← self.portfolio market marks now
      return (portfolio, outcomes.map Outcome.symbol)

/-- The exits of the positions that a batch opened, if it was executed. -/
def registerExits (allocations : List PortfolioAllocation) (receipts : List ExecutionReceipt) :
    EStateM PyError Ω Unit :=
  match self.lifecycle, receipts with
  | some lifecycle, receipt :: receipts => lifecycle.register allocations (receipt :: receipts)
  | _, _ => pure ()

/-- The last part of `process`: the pipeline, the batch and the exits of its positions. -/
def trade (market : Market) (features eligible : List FeatureRecord) (contexts : List StrategyContext)
    (portfolio : PortfolioSnapshot) (exited : List String) (now : Instant) :
    EStateM PyError Ω PaperDecisionResult := do
  let entrySessionOpen ← Effect.ofExcept (self.data.entrySessionOpen market now)
  let correlations ← Effect.ofExcept (correlationsOf self market (eligible.map FeatureRecord.symbol).dedup)
  let result ← Orchestration.run host self.pipeline contexts ⟨true, true, entrySessionOpen, true⟩ (.aware now)
    (features.foldl (fun d feature => d.set (feature.market, feature.symbol) feature.close) .empty)
    (portfolio.positions.map fun position => (position.market, position.symbol)) correlations
  let batch ← self.batch.execute host result self.accountId portfolio (.aware now)
  registerExits self result.allocations batch.receipts
  return ⟨market, result.cycleId, result.mode, result.candidates.length, result.allocations.length,
    batch.riskDecisions.length, batch.receipts.length, exited.dedup.length⟩

/-- The result of a cycle that has no contexts. -/
def exitOnlyResult (market : Market) (features : List FeatureRecord) (exited : List String) : PaperDecisionResult :=
  let recordIds := (features.map FeatureRecord.recordId).insertionSort (· ≤ ·)
  ⟨market, stableId host ["paper-exit-only-cycle", market.value, self.accountId,
    reprTuple (recordIds.map host.reprStr)], .exitsOnly, 0, 0, 0, 0, exited.dedup.length⟩

/-- `process`, once the market and the time are known. -/
def processIn (market : Market) (features : List FeatureRecord) (now : Instant) :
    EStateM PyError Ω PaperDecisionResult := do
  let marks ← Effect.ofExcept (marksOf self market features)
  let (portfolio, exited) ← manageOpen host self market marks features now
  let eligible := features.filter fun feature => feature.symbol ∉ exited
  let contexts ← contextsOf self eligible now
  match contexts with
  | [] => return exitOnlyResult host self market features exited
  | contexts => trade host self market features eligible contexts portfolio exited now

/-- `PaperDecisionService.process`. -/
def PaperDecisionService.process (features : List FeatureRecord) (evaluatedAt : DateTime) :
    EStateM PyError Ω (Option PaperDecisionResult) :=
  match features with
  | [] => return none
  | feature :: rest => do
    let now ← Effect.ofExcept (utc evaluatedAt "evaluated_at")
    if rest.any fun other => other.market ≠ feature.market then
      throw (.valueError "one paper decision cycle cannot mix markets")
    else do
      let result ← processIn host self feature.market (feature :: rest) now
      return some result

end Service

/-! ### Where contexts come from -/

section Contexts

variable {Ω : Type} {self : PaperDecisionService Ω} {feature : FeatureRecord} {now : Instant}

/-- The context is made of the row. -/
structure MadeOf (feature : FeatureRecord) (context : StrategyContext) : Prop where
  market : context.market = feature.market
  symbol : context.symbol = feature.symbol
  eventTime : feature.eventTime = .aware context.eventTime
  golds : context.goldSnapshotIds = [feature.recordId]

theorem create_madeOf {sector : Option String} {timeframe tradeHorizon : String} {featureSetVersion : ℕ}
    {values : Dict String ℚ} {fresh tradeable : Bool} {reason : String} {regime : RegimeEvidence}
    {context : StrategyContext}
    (h : StrategyContext.create feature.market feature.symbol sector timeframe tradeHorizon featureSetVersion
      feature.eventTime [feature.recordId] values fresh tradeable reason regime = .ok context) :
    MadeOf feature context := by
  unfold StrategyContext.create at h
  split_ifs at h
  cases htime : feature.eventTime with
  | naive w =>
    rw [htime] at h
    cases h
  | aware t =>
    rw [htime] at h
    cases h
    exact ⟨rfl, rfl, htime, rfl⟩

theorem basicContext_madeOf {context : StrategyContext} (h : basicContext self feature now = .ok context) :
    MadeOf feature context := by
  unfold basicContext at h
  obtain ⟨⟨marketFit, sectorFit⟩, -, h₁⟩ := Effect.except_bind_eq_ok.mp h
  obtain ⟨regime, -, h₂⟩ := Effect.except_bind_eq_ok.mp h₁
  exact create_madeOf h₂

theorem technicalContext_madeOf {context : StrategyContext}
    (h : technicalContext self feature now = .ok (some context)) : MadeOf feature context := by
  unfold technicalContext at h
  obtain ⟨reading, -, h₁⟩ := Effect.except_bind_eq_ok.mp h
  cases reading with
  | none => cases h₁
  | some reading =>
    obtain ⟨context', hread, h₂⟩ := Effect.except_bind_eq_ok.mp h₁
    cases h₂
    unfold readContext at hread
    obtain ⟨⟨marketFit, sectorFit⟩, -, h₃⟩ := Effect.except_bind_eq_ok.mp hread
    obtain ⟨regime, -, h₄⟩ := Effect.except_bind_eq_ok.mp h₃
    exact create_madeOf h₄

/-- Every context is made of one of the rows. -/
theorem contextsOf_mem {eligible : List FeatureRecord} {s s' : Ω} {contexts : List StrategyContext}
    (h : contextsOf self eligible now s = .ok contexts s') :
    ∀ context ∈ contexts, ∃ feature ∈ eligible, MadeOf feature context := by
  unfold contextsOf at h
  obtain ⟨basic, s₁, hbasic, h₁⟩ := Effect.bind_eq_ok.mp h
  obtain ⟨technical, s₂, htechnical, h₂⟩ := Effect.bind_eq_ok.mp h₁
  cases h₂
  intro context hcontext
  rcases List.mem_append.mp hcontext with hcontext | hcontext
  · refine Effect.exists_of_forall₂ (Effect.forall₂_of_each (R := MadeOf) ?_ hbasic) hcontext
    exact fun feature _ context _ h => basicContext_madeOf (Effect.ofExcept_eq_ok.mp h).1
  · obtain ⟨rows, hsub, hmade⟩ := Effect.collect_sublist (R := MadeOf)
      (fun feature _ context _ h => technicalContext_madeOf (Effect.ofExcept_eq_ok.mp h).1) htechnical
    obtain ⟨feature, hfeature, hof⟩ := Effect.exists_of_forall₂ hmade hcontext
    exact ⟨feature, hsub.subset hfeature, hof⟩

theorem keeps_contextsOf {γ : Type} {f : Ω → γ} (eligible : List FeatureRecord) :
    Effect.Keeps f (contextsOf self eligible now) :=
  (Effect.Keeps.each (fun _ => Effect.keeps_ofExcept _) eligible).bind fun _ =>
    (Effect.Keeps.collect (fun _ => Effect.keeps_ofExcept _) eligible).bind fun _ => Effect.keeps_pure _

end Contexts

end NanoDelta.Runtime
