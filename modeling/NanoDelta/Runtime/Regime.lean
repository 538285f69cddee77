import NanoDelta.Library.Preserve
import NanoDelta.Library.Registers
import NanoDelta.Runtime.TechnicalContext

/-!
# The regime of a market and of a sector

`runtime/regime.py`, and the caches of `runtime/paper_decision.py`: a market or a sector is classified by the candles of its
index, or else by the breadth of its symbols. The service keeps each classification for a minute and each quote for half
a minute, and all markets share the service.

* `classify`: the classification of a market, or of one of its sectors. `classify_own`: the candles of other markets are
  not read.
* `ServiceCaches`: the caches. `contextsIn`: the contexts of a cycle, with the caches.
* `contextsIn_lookedUp`: within a cycle all look-ups of a regime agree.
-/

namespace NanoDelta.Runtime

open Library Strategies

/-! ### Classifications -/

/-- `RegimeBreadth`. -/
structure RegimeBreadth where
  label : String
  fit : ℚ
  deriving DecidableEq

/-- `_REGIME_TIMEFRAME`. -/
def regimeTimeframe : String := "15m"

/-- `MARKET_INDEX_SYMBOL`. -/
def marketIndexSymbol : String := "NIFTY"

/-- `VIX_SYMBOL`. -/
def vixSymbol : String := "INDIA_VIX"

/-- `SECTOR_INDEX_SYMBOL`. -/
def sectorIndexSymbol : String → Option String
  | "BANKING" => some "BANKNIFTY"
  | "AUTO" => some "NIFTY_AUTO"
  | "FMCG" => some "NIFTY_FMCG"
  | "IT" => some "NIFTY_IT"
  | "MEDIA_ENTERTAINMENT" => some "NIFTY_MEDIA"
  | "METALS" => some "NIFTY_METAL"
  | "PHARMA" => some "NIFTY_PHARMA"
  | "REALTY" => some "NIFTY_REALTY"
  | "ENERGY" => some "NIFTY_ENERGY"
  | "HEALTHCARE_SERVICES" => some "NIFTY_HEALTHCARE"
  | "FINANCIAL_SERVICES" => some "NIFTY_FINSRV"
  | _ => none

/-- `classify_index_regime`. -/
def classifyIndexRegime (values : Dict String ℚ) : Except PyError RegimeBreadth := do
  let close ← featureValue values "close"
  let atrPct ← if 0 < close then (· / close) <$> featureValue values "atr_14" else .ok 0
  if 12 / 1000 < atrPct then return ⟨"VOLATILE", 6 / 10⟩
  else if (← featureValue values "adx_14") < 22 then return ⟨"RANGING", 7 / 10⟩
  else return ⟨if ← isBullish values then "TRENDING_UP" else "TRENDING_DOWN", 115 / 100⟩

/-- `classify_risk_off`. -/
def classifyRiskOff (vixClose : ℚ) : RegimeBreadth :=
  if 25 ≤ vixClose then ⟨"RISK_OFF", 5 / 10⟩
  else if 20 ≤ vixClose then ⟨"ELEVATED_VOLATILITY", 75 / 100⟩
  else ⟨"NORMAL", 1⟩

/-- `classify_breadth`. -/
def classifyBreadth (adxBySymbol : Dict String ℚ) (bullishBySymbol : Dict String Bool) (minimumSymbols : ℕ) :
    RegimeBreadth :=
  let symbols := adxBySymbol.entries.filterMap fun e => (bullishBySymbol.get? e.1).map fun bullish => (e.2, bullish)
  if symbols.length < minimumSymbols then ⟨"INSUFFICIENT_BREADTH", 1⟩
  else
    let averageAdx := (symbols.map Prod.fst).sum / symbols.length
    let bullishFraction : ℚ := symbols.countP Prod.snd / symbols.length
    if averageAdx < 22 then ⟨"RANGING", 7 / 10⟩
    else if 6 / 10 ≤ bullishFraction then ⟨"TRENDING_UP", 115 / 100⟩
    else if bullishFraction ≤ 4 / 10 then ⟨"TRENDING_DOWN", 115 / 100⟩
    else ⟨"VOLATILE", 6 / 10⟩

/-- `fetch_index_snapshot`: the indexes are instruments of NSE. -/
def fetchIndexSnapshot (silver : List CanonicalCandle) (indexSymbol : String) : Except PyError (Option (Dict String ℚ)) :=
  latestTechnicalFeatures silver .nse indexSymbol regimeTimeframe

/-- One symbol of `fetch_breadth_inputs`. -/
def fetchBreadthInput (silver : List CanonicalCandle) (market : Market)
    (inputs : Dict String ℚ × Dict String Bool) (symbol : String) : Except PyError (Dict String ℚ × Dict String Bool) := do
  match ← latestTechnicalFeatures silver market symbol regimeTimeframe with
  | none => return inputs
  | some values =>
    let adx ← featureValue values "adx_14"
    let bullish ← isBullish values
    return (inputs.1.set symbol adx, inputs.2.set symbol bullish)

/-- `fetch_breadth_inputs`. -/
def fetchBreadthInputs (silver : List CanonicalCandle) (market : Market) (symbols : List String) :
    Except PyError (Dict String ℚ × Dict String Bool) :=
  symbols.foldlM (fetchBreadthInput silver market) (.empty, .empty)

/-- `_regime_universe_symbols`. -/
def regimeUniverseSymbols (silver : List CanonicalCandle) (market : Market) : List String :=
  ((silver.filter fun c => c.market = market ∧ c.timeframe = regimeTimeframe ∧ c.isSettled = true).map
    CanonicalCandle.symbol).dedup

/-- What `_market_regime` finds in the candles. -/
def classifyMarket (silver : List CanonicalCandle) (market : Market) : Except PyError RegimeBreadth := do
  match ← if market = .nse then fetchIndexSnapshot silver marketIndexSymbol else .ok none with
  | some indexValues =>
    let breadth ← classifyIndexRegime indexValues
    match ← fetchIndexSnapshot silver vixSymbol with
    | none => return breadth
    | some vixValues =>
      let riskOff := classifyRiskOff (← featureValue vixValues "close")
      return ⟨breadth.label ++ "_" ++ riskOff.label, breadth.fit * riskOff.fit⟩
  | none =>
    let (adx, bullish) ← fetchBreadthInputs silver market (regimeUniverseSymbols silver market)
    return classifyBreadth adx bullish 5

/-- What `_sector_regime` finds in the candles. -/
def classifySector (sectorFor : String → Option String) (silver : List CanonicalCandle) (market : Market)
    (sector : String) : Except PyError RegimeBreadth := do
  let sectorIndex := if market = .nse then sectorIndexSymbol sector else none
  match ← match sectorIndex with | some symbol => fetchIndexSnapshot silver symbol | none => .ok none with
  | some indexValues => classifyIndexRegime indexValues
  | none =>
    let symbols := (regimeUniverseSymbols silver market).filter fun symbol => sectorFor symbol = some sector
    let (adx, bullish) ← fetchBreadthInputs silver market symbols
    return classifyBreadth adx bullish 3

/-- The classification of a market, or of one of its sectors. -/
def classify (sectorFor : String → Option String) (silver : List CanonicalCandle) (market : Market) :
    Option String → Except PyError RegimeBreadth
  | none => classifyMarket silver market
  | some sector => classifySector sectorFor silver market sector

/-! ### The candles of one market -/

/-- The candles of a market. -/
def candlesOf (market : Market) (silver : List CanonicalCandle) : List CanonicalCandle :=
  silver.filter fun c => c.market = market

section Own

variable (silver : List CanonicalCandle) (market : Market)

theorem seriesOf_own (symbol timeframe : String) :
    seriesOf (candlesOf market silver) market symbol timeframe = seriesOf silver market symbol timeframe := by
  unfold seriesOf candlesOf
  rw [List.filter_filter]
  refine List.filter_congr fun c _ => ?_
  by_cases h : c.market = market <;> simp [h]

theorem latestTechnicalFeatures_own (symbol timeframe : String) :
    latestTechnicalFeatures (candlesOf market silver) market symbol timeframe =
      latestTechnicalFeatures silver market symbol timeframe := by
  unfold latestTechnicalFeatures
  rw [latestTechnicalSnapshot_congr (seriesOf_own silver market symbol timeframe)]

theorem regimeUniverseSymbols_own :
    regimeUniverseSymbols (candlesOf market silver) market = regimeUniverseSymbols silver market := by
  unfold regimeUniverseSymbols candlesOf
  rw [List.filter_filter]
  congr 2
  refine List.filter_congr fun c _ => ?_
  by_cases h : c.market = market <;> simp [h]

theorem fetchBreadthInputs_own (symbols : List String) :
    fetchBreadthInputs (candlesOf market silver) market symbols = fetchBreadthInputs silver market symbols := by
  unfold fetchBreadthInputs
  refine Effect.foldlM_congr (fun inputs symbol _ => ?_) _
  unfold fetchBreadthInput
  rw [latestTechnicalFeatures_own]

/-- The indexes are read for NSE only. -/
theorem fetchIndexSnapshot_own (indexSymbol : String) (h : market = .nse) :
    fetchIndexSnapshot (candlesOf market silver) indexSymbol = fetchIndexSnapshot silver indexSymbol := by
  subst h
  exact latestTechnicalFeatures_own silver .nse indexSymbol regimeTimeframe

/-- **Candles of other markets**: a market and its sectors are classified by its own candles. -/
theorem classify_own (sectorFor : String → Option String) (key : Option String) :
    classify sectorFor (candlesOf market silver) market key = classify sectorFor silver market key := by
  cases key with
  | none =>
    simp only [classify, classifyMarket, fetchBreadthInputs_own, regimeUniverseSymbols_own]
    by_cases h : market = .nse
    · simp only [h, if_true, fetchIndexSnapshot_own silver .nse _ rfl]
    · simp only [h, if_false]
      rfl
  | some sector =>
    simp only [classify, classifySector, fetchBreadthInputs_own, regimeUniverseSymbols_own]
    by_cases h : market = .nse
    · simp only [h, if_true]
      cases sectorIndexSymbol sector with
      | none => rfl
      | some symbol => simp only [fetchIndexSnapshot_own silver .nse symbol rfl]
    · simp only [h, if_false]

end Own

/-! ### Caches -/

/-- The caches of `PaperDecisionService`. A regime and its time are written together; the quote of a symbol may be older
than the time at which the symbol was last asked for. -/
structure ServiceCaches where
  marketRegimeCache : Option RegimeBreadth := none
  marketRegimeCacheAt : Option Instant := none
  sectorRegimeCache : Dict String RegimeBreadth := .empty
  sectorRegimeCacheAt : Dict String Instant := .empty
  quoteCache : Dict String QuoteSnapshot := .empty
  quoteCacheAt : Dict String Instant := .empty

/-- `_REGIME_CACHE_TTL_SECONDS`. -/
def regimeCacheTtl : ℤ := seconds 60

/-- `_QUOTE_CACHE_TTL_SECONDS`. -/
def quoteCacheTtl : ℤ := seconds 30

/-- The settings of the service that its contexts depend on. -/
structure ContextSettings where
  limits : ReadingLimits
  maxAgeSeconds : ℚ
  /-- `sector_for`. -/
  sectorFor : String → Option String

/-- A cycle, when its open positions have been managed: the rows that are left, and what the service reads for them. All
rows are of one market. -/
structure Visit where
  market : Market
  features : List FeatureRecord
  now : Instant
  /-- The candles of all markets. -/
  silver : List CanonicalCandle
  /-- `fetch_quotes` of the quote client, if there is one. -/
  fetchQuotes : Option (List String → Except PyError (Dict String QuoteSnapshot))
  market_eq : ∀ feature ∈ features, feature.market = market

/-- The symbols of the rows. -/
def Visit.symbols (visit : Visit) : List String := visit.features.map FeatureRecord.symbol

section Service

variable (settings : ContextSettings) (visit : Visit)

/-- The part of `_market_regime` that reads the candles. -/
def fillMarketRegime : EStateM PyError ServiceCaches RegimeBreadth := do
  let breadth ← Effect.ofExcept (classifyMarket visit.silver visit.market)
  modify fun caches => { caches with marketRegimeCache := some breadth, marketRegimeCacheAt := some visit.now }
  return breadth

/-- `_market_regime`. -/
def marketRegime : EStateM PyError ServiceCaches RegimeBreadth := do
  let caches ← get
  match caches.marketRegimeCache, caches.marketRegimeCacheAt with
  | some breadth, some cachedAt =>
    if visit.now - cachedAt < regimeCacheTtl then return breadth else fillMarketRegime visit
  | _, _ => fillMarketRegime visit

/-- The part of `_sector_regime` that reads the candles. -/
def fillSectorRegime (sector : String) : EStateM PyError ServiceCaches RegimeBreadth := do
  let breadth ← Effect.ofExcept (classifySector settings.sectorFor visit.silver visit.market sector)
  modify fun caches => { caches with
    sectorRegimeCache := caches.sectorRegimeCache.set sector breadth
    sectorRegimeCacheAt := caches.sectorRegimeCacheAt.set sector visit.now }
  return breadth

/-- `_sector_regime`. -/
def sectorRegime (sector : String) : EStateM PyError ServiceCaches RegimeBreadth := do
  let caches ← get
  match caches.sectorRegimeCache.get? sector, caches.sectorRegimeCacheAt.get? sector with
  | some breadth, some cachedAt =>
    if visit.now - cachedAt < regimeCacheTtl then return breadth else fillSectorRegime settings visit sector
  | _, _ => fillSectorRegime settings visit sector

/-- The sector, if its text is not empty. -/
def givenSector (sector : Option String) : Option String := sector.filter fun sector => sector ≠ ""

/-- `_market_sector_fit`. -/
def marketSectorFit (sector : Option String) : EStateM PyError ServiceCaches (ℚ × ℚ) := do
  let marketBreadth ← marketRegime visit
  match givenSector sector with
  | none => return (marketBreadth.fit, 1)
  | some sector => do
    let sectorBreadth ← sectorRegime settings visit sector
    return (marketBreadth.fit, sectorBreadth.fit)

/-- The symbols that are not in the quote cache, or no longer current there. -/
def staleSymbols (caches : ServiceCaches) : List String :=
  (visit.symbols.dedup.filter fun symbol =>
    match caches.quoteCacheAt.get? symbol with
    | none => true
    | some cachedAt => quoteCacheTtl ≤ visit.now - cachedAt).insertionSort (· ≤ ·)

/-- The quote of one stale symbol. -/
def cacheQuote (fetched : Dict String QuoteSnapshot) (caches : ServiceCaches) (symbol : String) : ServiceCaches :=
  { caches with
    quoteCache :=
      match fetched.get? symbol with
      | some snapshot => caches.quoteCache.set symbol snapshot
      | none => caches.quoteCache
    quoteCacheAt := caches.quoteCacheAt.set symbol visit.now }

/-- `_refresh_quotes`: a failure is logged. -/
def refreshQuotes (caches : ServiceCaches) : ServiceCaches :=
  match visit.fetchQuotes, staleSymbols visit caches with
  | some fetchQuotes, symbol :: symbols =>
    match fetchQuotes (symbol :: symbols) with
    | .ok fetched => (symbol :: symbols).foldl (cacheQuote visit fetched) caches
    | .error _ => caches
  | _, _ => caches

/-- `_basic_context`. -/
def basicContextIn (feature : FeatureRecord) : EStateM PyError ServiceCaches StrategyContext := do
  let sector := settings.sectorFor feature.symbol
  let (marketFit, sectorFit) ← marketSectorFit settings visit sector
  Effect.ofExcept do
    let regime ← RegimeEvidence.create marketFit sectorFit 1 1 "UNKNOWN"
    StrategyContext.create feature.market feature.symbol sector feature.timeframe "intraday" feature.featureVersion
      feature.eventTime [feature.recordId] (barValues feature) (isFresh settings.maxAgeSeconds feature visit.now) true
      "TRADEABLE" regime

/-- The part of `_technical_context` after the fits are known. -/
def readContextIn (feature : FeatureRecord) (values : Dict String ℚ) (screened : Bool × String) (symbolFit : ℚ)
    (label : String) (fits : ℚ × ℚ) : Except PyError StrategyContext := do
  let alignment ← mtfAlignment visit.silver feature values
  let regime ← RegimeEvidence.create fits.1 fits.2 symbolFit alignment label
  StrategyContext.create feature.market feature.symbol (settings.sectorFor feature.symbol) feature.timeframe "intraday"
    technicalFeatureVersion feature.eventTime [feature.recordId] values
    (isFresh settings.maxAgeSeconds feature visit.now) screened.1 screened.2 regime

/-- `_technical_context`. -/
def technicalContextIn (feature : FeatureRecord) : EStateM PyError ServiceCaches (Option StrategyContext) := do
  let caches ← get
  match ← Effect.ofExcept (ownReading visit.silver settings.limits (caches.quoteCache.get? feature.symbol) feature) with
  | none => return none
  | some (values, screened, symbolFit, label) => do
    let fits ← marketSectorFit settings visit (settings.sectorFor feature.symbol)
    let context ← Effect.ofExcept (readContextIn settings visit feature values screened symbolFit label fits)
    return some context

/-- The contexts of a cycle whose quotes have been refreshed. -/
def refreshedContexts : EStateM PyError ServiceCaches (List StrategyContext) := do
  let basic ← Effect.each (basicContextIn settings visit) visit.features
  let technical ← Effect.collect (technicalContextIn settings visit) visit.features
  return basic ++ technical

/-- The contexts of a cycle. -/
def contextsIn : EStateM PyError ServiceCaches (List StrategyContext) := do
  modify (refreshQuotes visit)
  refreshedContexts settings visit

theorem contextsIn_apply (caches : ServiceCaches) :
    contextsIn settings visit caches = refreshedContexts settings visit (refreshQuotes visit caches) := rfl

end Service

/-! ### The regimes as registers -/

/-- The regime of a market, or of one of its sectors, in the caches. -/
def ServiceCaches.regimes (caches : ServiceCaches) : Option String → Option (Entry RegimeBreadth)
  | none =>
    match caches.marketRegimeCache, caches.marketRegimeCacheAt with
    | some breadth, some cachedAt => some ⟨breadth, cachedAt⟩
    | _, _ => none
  | some sector =>
    match caches.sectorRegimeCache.get? sector, caches.sectorRegimeCacheAt.get? sector with
    | some breadth, some cachedAt => some ⟨breadth, cachedAt⟩
    | _, _ => none

/-- The caches, with a regime filled in. -/
def ServiceCaches.fillRegime (caches : ServiceCaches) (breadth : RegimeBreadth) (now : Instant) :
    Option String → ServiceCaches
  | none => { caches with marketRegimeCache := some breadth, marketRegimeCacheAt := some now }
  | some sector => { caches with
      sectorRegimeCache := caches.sectorRegimeCache.set sector breadth
      sectorRegimeCacheAt := caches.sectorRegimeCacheAt.set sector now }

@[simp] theorem ServiceCaches.regimes_fillRegime (caches : ServiceCaches) (breadth : RegimeBreadth) (now : Instant)
    (key : Option String) :
    (caches.fillRegime breadth now key).regimes = Function.update caches.regimes key (some ⟨breadth, now⟩) := by
  funext key'
  cases key with
  | none => cases key' <;> simp [fillRegime, regimes]
  | some sector =>
    cases key' with
    | none => simp [fillRegime, regimes]
    | some sector' =>
      by_cases h : sector' = sector
      · subst h
        simp [fillRegime, regimes]
      · simp [fillRegime, regimes, h, Dict.get?_set_of_ne]

@[simp] theorem ServiceCaches.quoteCache_fillRegime (caches : ServiceCaches) (breadth : RegimeBreadth) (now : Instant)
    (key : Option String) : (caches.fillRegime breadth now key).quoteCache = caches.quoteCache := by
  cases key <;> rfl

@[simp] theorem ServiceCaches.quoteCacheAt_fillRegime (caches : ServiceCaches) (breadth : RegimeBreadth) (now : Instant)
    (key : Option String) : (caches.fillRegime breadth now key).quoteCacheAt = caches.quoteCacheAt := by
  cases key <;> rfl

/-- What a visit fills a regime in with. -/
def Visit.classified (settings : ContextSettings) (visit : Visit) : Option String → Except PyError RegimeBreadth :=
  classify settings.sectorFor visit.silver visit.market

/-- `_market_regime`, or `_sector_regime`. -/
def regimeOf (settings : ContextSettings) (visit : Visit) : Option String → EStateM PyError ServiceCaches RegimeBreadth
  | none => marketRegime visit
  | some sector => sectorRegime settings visit sector

section Readings

variable {settings : ContextSettings} {visit : Visit} {caches caches₀ caches' : ServiceCaches} {key : Option String}

/-- A regime that is current is returned. -/
theorem regimeOf_of_current {e : Entry RegimeBreadth} (h : current regimeCacheTtl visit.now (caches.regimes key) = some e) :
    regimeOf settings visit key caches = .ok e.value caches := by
  obtain ⟨hentry, hcurrent⟩ := current_eq_some.mp h
  cases key with
  | none =>
    simp only [ServiceCaches.regimes] at hentry
    split at hentry
    · next breadth cachedAt hb ht =>
      cases hentry
      simp only [regimeOf, marketRegime, Effect.bind_of_ok (Effect.get_apply caches), hb, ht]
      rw [if_pos hcurrent]
      rfl
    · cases hentry
  | some sector =>
    simp only [ServiceCaches.regimes] at hentry
    split at hentry
    · next breadth cachedAt hb ht =>
      cases hentry
      simp only [regimeOf, sectorRegime, Effect.bind_of_ok (Effect.get_apply caches), hb, ht]
      rw [if_pos hcurrent]
      rfl
    · cases hentry

/-- The part of `regimeOf` that reads the candles. -/
theorem fill_apply (settings : ContextSettings) (visit : Visit) (key : Option String) (caches : ServiceCaches) :
    (match key with
      | none => fillMarketRegime visit
      | some sector => fillSectorRegime settings visit sector) caches =
      match visit.classified settings key with
      | .ok breadth => .ok breadth (caches.fillRegime breadth visit.now key)
      | .error e => .error e caches := by
  cases key with
  | none =>
    simp only [fillMarketRegime, Visit.classified, classify]
    cases classifyMarket visit.silver visit.market <;> rfl
  | some sector =>
    simp only [fillSectorRegime, Visit.classified, classify]
    cases classifySector settings.sectorFor visit.silver visit.market sector <;> rfl

/-- Any other regime is read off the candles, and filled in. -/
theorem regimeOf_of_stale (h : current regimeCacheTtl visit.now (caches.regimes key) = none) :
    regimeOf settings visit key caches =
      match visit.classified settings key with
      | .ok breadth => .ok breadth (caches.fillRegime breadth visit.now key)
      | .error e => .error e caches := by
  rw [← fill_apply]
  cases key with
  | none =>
    simp only [regimeOf, marketRegime, Effect.bind_of_ok (Effect.get_apply caches)]
    simp only [ServiceCaches.regimes] at h
    cases hb : caches.marketRegimeCache with
    | none => rfl
    | some breadth =>
      cases ht : caches.marketRegimeCacheAt with
      | none => rfl
      | some cachedAt =>
        simp only [hb, ht, current_some] at h
        split_ifs at h with hcurrent
        exact congrFun (if_neg hcurrent) caches
  | some sector =>
    simp only [regimeOf, sectorRegime, Effect.bind_of_ok (Effect.get_apply caches)]
    simp only [ServiceCaches.regimes] at h
    cases hb : caches.sectorRegimeCache.get? sector with
    | none => rfl
    | some breadth =>
      cases ht : caches.sectorRegimeCacheAt.get? sector with
      | none => rfl
      | some cachedAt =>
        simp only [hb, ht, current_some] at h
        split_ifs at h with hcurrent
        exact congrFun (if_neg hcurrent) caches

/-! ### Within a cycle -/

/-- The caches after some look-ups of a visit: regimes that were not current are filled in, and the quotes are the same. -/
structure LookedUp (settings : ContextSettings) (visit : Visit) (caches₀ caches : ServiceCaches) : Prop where
  regimes : Filled regimeCacheTtl visit.now (visit.classified settings) caches₀.regimes caches.regimes
  quoteCache : caches.quoteCache = caches₀.quoteCache
  quoteCacheAt : caches.quoteCacheAt = caches₀.quoteCacheAt

theorem regimeCacheTtl_pos : 0 < regimeCacheTtl := by decide

theorem LookedUp.refl (caches : ServiceCaches) : LookedUp settings visit caches caches := ⟨Filled.refl _, rfl, rfl⟩

/-- Another regime that is not current is filled in. -/
theorem LookedUp.fillRegime (h : LookedUp settings visit caches₀ caches)
    (hstale : current regimeCacheTtl visit.now (caches.regimes key) = none) {breadth : RegimeBreadth}
    (hbreadth : visit.classified settings key = .ok breadth) :
    LookedUp settings visit caches₀ (caches.fillRegime breadth visit.now key) where
  regimes := by
    rw [ServiceCaches.regimes_fillRegime]
    exact h.regimes.trans regimeCacheTtl_pos (Filled.update hstale hbreadth)
  quoteCache := by simp [h.quoteCache]
  quoteCacheAt := by simp [h.quoteCacheAt]

theorem regimeOf_lookedUp (key : Option String) :
    Effect.Preserves (LookedUp settings visit caches₀) (regimeOf settings visit key) := by
  intro caches h
  cases hcurrent : current regimeCacheTtl visit.now (caches.regimes key) with
  | some e => simpa [regimeOf_of_current hcurrent] using h
  | none =>
    rw [regimeOf_of_stale hcurrent]
    cases hbreadth : visit.classified settings key with
    | ok breadth => exact h.fillRegime hcurrent hbreadth
    | error e => exact h

/-- What is looked up is what is read at the beginning. -/
theorem regimeOf_reading (h : LookedUp settings visit caches₀ caches) {breadth : RegimeBreadth}
    (hok : regimeOf settings visit key caches = .ok breadth caches') :
    reading regimeCacheTtl visit.now (visit.classified settings) caches₀.regimes key = .ok breadth := by
  rw [← h.regimes.reading regimeCacheTtl_pos key, reading]
  cases hcurrent : current regimeCacheTtl visit.now (caches.regimes key) with
  | some e =>
    rw [regimeOf_of_current hcurrent] at hok
    cases hok
    rfl
  | none =>
    rw [regimeOf_of_stale hcurrent] at hok
    cases hbreadth : visit.classified settings key with
    | ok b =>
      rw [hbreadth] at hok
      cases hok
      rfl
    | error e =>
      rw [hbreadth] at hok
      cases hok

/-- The fits, from what is read of the regimes. -/
def fitsOf (read : Option String → Except PyError RegimeBreadth) (sector : Option String) : Except PyError (ℚ × ℚ) := do
  let marketBreadth ← read none
  match givenSector sector with
  | none => return (marketBreadth.fit, 1)
  | some sector => do
    let sectorBreadth ← read (some sector)
    return (marketBreadth.fit, sectorBreadth.fit)

theorem marketSectorFit_lookedUp (sector : Option String) :
    Effect.Preserves (LookedUp settings visit caches₀) (marketSectorFit settings visit sector) := by
  refine Effect.Preserves.bind (regimeOf_lookedUp none) fun marketBreadth => ?_
  cases givenSector sector with
  | none => exact Effect.preserves_pure _
  | some sector => exact Effect.Preserves.bind (regimeOf_lookedUp (some sector)) fun _ => Effect.preserves_pure _

theorem marketSectorFit_reading (h : LookedUp settings visit caches₀ caches) {sector : Option String} {fits : ℚ × ℚ}
    (hok : marketSectorFit settings visit sector caches = .ok fits caches') :
    fitsOf (reading regimeCacheTtl visit.now (visit.classified settings) caches₀.regimes) sector = .ok fits := by
  obtain ⟨marketBreadth, c₁, hmarket, hrest⟩ := Effect.bind_eq_ok.mp hok
  have hmarket' : regimeOf settings visit none caches = .ok marketBreadth c₁ := hmarket
  unfold fitsOf
  rw [regimeOf_reading h hmarket']
  cases hsector : givenSector sector with
  | none =>
    rw [hsector] at hrest
    cases hrest
    rfl
  | some s =>
    rw [hsector] at hrest
    obtain ⟨sectorBreadth, c₂, hbreadth, hpure⟩ := Effect.bind_eq_ok.mp hrest
    have hbreadth' : regimeOf settings visit (some s) c₁ = .ok sectorBreadth c₂ := hbreadth
    have h₁ : LookedUp settings visit caches₀ c₁ := by
      simpa [hmarket'] using regimeOf_lookedUp none caches h
    cases hpure
    show (reading _ _ _ _ (some s) >>= _) = _
    rw [regimeOf_reading h₁ hbreadth']
    rfl

theorem basicContextIn_lookedUp (feature : FeatureRecord) :
    Effect.Preserves (LookedUp settings visit caches₀) (basicContextIn settings visit feature) :=
  Effect.Preserves.bind (marketSectorFit_lookedUp _) fun _ => Effect.preserves_ofExcept _

theorem technicalContextIn_lookedUp (feature : FeatureRecord) :
    Effect.Preserves (LookedUp settings visit caches₀) (technicalContextIn settings visit feature) := by
  refine Effect.preserves_get_bind fun caches h => ?_
  refine Effect.Preserves.bind (Effect.preserves_ofExcept _) (fun reading => ?_) caches h
  cases reading with
  | none => exact Effect.preserves_pure _
  | some reading =>
    exact Effect.Preserves.bind (marketSectorFit_lookedUp _) fun _ =>
      Effect.Preserves.bind (Effect.preserves_ofExcept _) fun _ => Effect.preserves_pure _

/-- All look-ups of a cycle. -/
theorem contextsIn_lookedUp (settings : ContextSettings) (visit : Visit) (caches : ServiceCaches) :
    LookedUp settings visit (refreshQuotes visit caches) (Effect.final (contextsIn settings visit caches)) := by
  have hrest : Effect.Preserves (LookedUp settings visit (refreshQuotes visit caches)) (refreshedContexts settings visit) :=
    Effect.Preserves.bind (Effect.Preserves.each basicContextIn_lookedUp _) fun _ =>
      Effect.Preserves.bind (Effect.Preserves.collect technicalContextIn_lookedUp _) fun _ => Effect.preserves_pure _
  exact hrest (refreshQuotes visit caches) (LookedUp.refl _)

end Readings

end NanoDelta.Runtime
