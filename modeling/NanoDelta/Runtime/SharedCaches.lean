import NanoDelta.Library.Paired
import NanoDelta.Runtime.LateCycles
import NanoDelta.Runtime.Regime

/-!
# One service for all markets

The NSE, forex and crypto workers share one `PaperDecisionService` (`runtime/realtime_config.py`), and so its caches. The
regime caches do not say of which market they are.

* `contexts_of_process`: within a cycle the caches are the readings that `PaperDecisionService.process` is given.
* `fits_of_recent_visits`: the fits of a context are those of classifications made less than a minute before, at visits of
  whatever market.
* `contexts_alone`: if no market's visit comes within a minute after another market's, or asks for its symbols, then each
  market gets the contexts that it gets from a service of its own, which sees the candles of that market only.
-/

namespace NanoDelta.Runtime

open Library Strategies

/-- The visits of the workers, in any order. -/
def sharedService (settings : ContextSettings) : Machine ServiceCaches Visit (Except PyError (List StrategyContext)) where
  step caches visit :=
    match contextsIn settings visit caches with
    | .ok contexts caches => (caches, .ok contexts)
    | .error e caches => (caches, .error e)

section Step

variable {settings : ContextSettings} {visit : Visit} {caches : ServiceCaches}

theorem sharedService_step_fst :
    ((sharedService settings).step caches visit).1 = Effect.final (contextsIn settings visit caches) := by
  simp only [sharedService]
  cases contextsIn settings visit caches <;> rfl

theorem sharedService_step_ok {contexts : List StrategyContext} :
    ((sharedService settings).step caches visit).2 = .ok contexts ↔
      ∃ caches', contextsIn settings visit caches = .ok contexts caches' := by
  simp only [sharedService]
  cases contextsIn settings visit caches <;> simp

/-! ### Visits of NSE and crypto -/

namespace Sample

open Risk.Sample

/-- The limits by default, and no sectors. -/
def contextSettings : ContextSettings := ⟨readingLimits, 180, fun _ => none⟩

/-- A visit for one symbol, at a time after noon. -/
def visitAt (market : Market) (symbol : String) (after : ℤ) : Visit where
  market := market
  features := [{ row "gold-1" after 100 with market := market, symbol := symbol }]
  now := noon + seconds after
  silver := untilNoon
  fetchQuotes := none
  market_eq := by simp

/-- NSE, crypto a minute later, and NSE again after another minute. -/
def visits : List Visit := [visitAt .nse "RELIANCE" 0, visitAt .crypto "BTC-USDT" 60, visitAt .nse "RELIANCE" 120]

end Sample

/-! ### What `process` is given -/

/-- The service, given what it reads in a visit with these caches. -/
def PaperDecisionService.reading {Ω : Type} (self : PaperDecisionService Ω) (settings : ContextSettings) (visit : Visit)
    (caches : ServiceCaches) : PaperDecisionService Ω :=
  { self with
    data := { self.data with
      sectorFor := settings.sectorFor
      marketSectorFit := fun _ sector _ =>
        fitsOf (Library.reading regimeCacheTtl visit.now (visit.classified settings) caches.regimes) sector
      technical := fun feature =>
        technicalReading visit.silver settings.limits (caches.quoteCache.get? feature.symbol) feature }
    maxAgeSeconds := settings.maxAgeSeconds }

section Process

variable {Ω : Type} {self : PaperDecisionService Ω} {settings : ContextSettings} {visit : Visit}
  {caches caches₀ caches' : ServiceCaches} {feature : FeatureRecord}

theorem basicContext_of_cached (self : PaperDecisionService Ω) (h : LookedUp settings visit caches₀ caches)
    {context : StrategyContext} (hok : basicContextIn settings visit feature caches = .ok context caches') :
    basicContext (self.reading settings visit caches₀) feature visit.now = .ok context := by
  obtain ⟨⟨marketFit, sectorFit⟩, c₁, hfits, hrest⟩ := Effect.bind_eq_ok.mp hok
  obtain ⟨hcontext, -⟩ := Effect.ofExcept_eq_ok.mp hrest
  unfold basicContext
  show (fitsOf _ (settings.sectorFor feature.symbol) >>= _) = _
  rw [marketSectorFit_reading h hfits]
  exact hcontext

theorem technicalContext_of_cached (self : PaperDecisionService Ω) (h : LookedUp settings visit caches₀ caches)
    {context : Option StrategyContext} (hok : technicalContextIn settings visit feature caches = .ok context caches') :
    technicalContext (self.reading settings visit caches₀) feature visit.now = .ok context := by
  obtain ⟨c, c₀, hget, hread⟩ := Effect.bind_eq_ok.mp hok
  cases hget
  obtain ⟨own, c₁, hown, hrest⟩ := Effect.bind_eq_ok.mp hread
  obtain ⟨hown', rfl⟩ := Effect.ofExcept_eq_ok.mp hown
  rw [h.quoteCache] at hown'
  unfold technicalContext
  show (technicalReading visit.silver settings.limits (caches₀.quoteCache.get? feature.symbol) feature >>= _) = _
  rw [technicalReading, hown']
  cases own with
  | none =>
    cases hrest
    rfl
  | some own =>
    obtain ⟨values, screened, symbolFit, label⟩ := own
    obtain ⟨⟨marketFit, sectorFit⟩, c₂, hfits, hlast⟩ := Effect.bind_eq_ok.mp hrest
    obtain ⟨context', c₃, hcontext, hpure⟩ := Effect.bind_eq_ok.mp hlast
    obtain ⟨hcontext', -⟩ := Effect.ofExcept_eq_ok.mp hcontext
    cases hpure
    obtain ⟨alignment, halignment, hmade⟩ := Effect.except_bind_eq_ok.mp hcontext'
    have hread' : readContext (self.reading settings visit caches₀) feature ⟨values, screened.1, screened.2, symbolFit, alignment, label⟩ visit.now =
        .ok context' := by
      unfold readContext
      show (fitsOf _ (settings.sectorFor feature.symbol) >>= _) = _
      rw [marketSectorFit_reading h hfits]
      exact hmade
    show ((mtfAlignment visit.silver feature values >>= _) >>= _) = _
    rw [halignment]
    show (readContext (self.reading settings visit caches₀) feature _ visit.now >>= _) = _
    rw [hread']
    rfl

/-- **The caches within a cycle**: the contexts that the service makes with its caches are those that `process` makes with
the readings at the beginning of the cycle, when the quotes have been refreshed. -/
theorem contexts_of_process (self : PaperDecisionService Ω) {contexts : List StrategyContext}
    (hok : contextsIn settings visit caches = .ok contexts caches') (s : Ω) :
    contextsOf (self.reading settings visit (refreshQuotes visit caches)) visit.features visit.now s = .ok contexts s := by
  rw [contextsIn_apply] at hok
  obtain ⟨basic, c₁, hbasic, hrest'⟩ := Effect.bind_eq_ok.mp hok
  obtain ⟨technical, c₂, htechnical, hpure⟩ := Effect.bind_eq_ok.mp hrest'
  cases hpure
  have hstart : LookedUp settings visit (refreshQuotes visit caches) (refreshQuotes visit caches) := LookedUp.refl _
  have hmiddle : LookedUp settings visit (refreshQuotes visit caches) c₁ := by
    simpa [hbasic] using Effect.Preserves.each basicContextIn_lookedUp visit.features _ hstart
  have hbasic' := Effect.each_eq_of_preserves (t := s) basicContextIn_lookedUp (fun feature c context c' h hok =>
    Effect.ofExcept_eq_ok.mpr ⟨basicContext_of_cached self h hok, rfl⟩) hstart hbasic
  have htechnical' := Effect.collect_eq_of_preserves (t := s) technicalContextIn_lookedUp (fun feature c context c' h hok =>
    Effect.ofExcept_eq_ok.mpr ⟨technicalContext_of_cached self h hok, rfl⟩) hmiddle htechnical
  unfold contextsOf
  rw [Effect.bind_of_ok hbasic', Effect.bind_of_ok htechnical']
  rfl

end Process

/-- A visit after another one: its contexts are those of `process`. -/
theorem contexts_of_reliance :
    ∃ contexts caches', contextsIn Sample.contextSettings (Sample.visitAt .nse "RELIANCE" 30)
        ((sharedService Sample.contextSettings).exec {} [Sample.visitAt .crypto "BTC-USDT" 0]) = .ok contexts caches' ∧
      contextsOf (Sample.service.reading Sample.contextSettings (Sample.visitAt .nse "RELIANCE" 30)
          (refreshQuotes (Sample.visitAt .nse "RELIANCE" 30)
            ((sharedService Sample.contextSettings).exec {} [Sample.visitAt .crypto "BTC-USDT" 0])))
        (Sample.visitAt .nse "RELIANCE" 30).features (Sample.visitAt .nse "RELIANCE" 30).now Sample.idle =
          .ok contexts Sample.idle := by
  have hsome : (Effect.returned (contextsIn Sample.contextSettings (Sample.visitAt .nse "RELIANCE" 30)
      ((sharedService Sample.contextSettings).exec {} [Sample.visitAt .crypto "BTC-USDT" 0]))).isSome = true := by
    decide +kernel
  obtain ⟨contexts, hcontexts⟩ := Option.isSome_iff_exists.mp hsome
  obtain ⟨caches', hok⟩ := Effect.returned_eq_some.mp hcontexts
  exact ⟨contexts, caches', hok, contexts_of_process Sample.service hok Sample.idle⟩

/-! ### Quotes -/

/-- The quotes of other symbols are left alone. -/
theorem cacheQuotes_of_notMem (fetched : Dict String QuoteSnapshot) {symbol : String} {symbols : List String}
    (h : symbol ∉ symbols) (caches : ServiceCaches) :
    let after := symbols.foldl (cacheQuote visit fetched) caches
    after.quoteCache.get? symbol = caches.quoteCache.get? symbol ∧
      after.quoteCacheAt.get? symbol = caches.quoteCacheAt.get? symbol ∧ after.regimes = caches.regimes := by
  induction symbols generalizing caches with
  | nil => exact ⟨rfl, rfl, rfl⟩
  | cons symbol' symbols ih =>
    obtain ⟨hne, hrest⟩ := not_or.mp (mt List.mem_cons.mpr h)
    obtain ⟨hquote, hat, hregimes⟩ := ih hrest (cacheQuote visit fetched caches symbol')
    refine ⟨hquote.trans ?_, hat.trans (Dict.get?_set_of_ne _ hne _), hregimes.trans ?_⟩
    · unfold cacheQuote
      cases fetched.get? symbol' with
      | none => rfl
      | some snapshot => exact Dict.get?_set_of_ne _ hne _
    · funext key
      cases key <;> rfl

theorem mem_symbols_of_staleSymbols {symbol : String} (h : symbol ∈ staleSymbols visit caches) : symbol ∈ visit.symbols := by
  unfold staleSymbols at h
  rw [List.mem_insertionSort] at h
  exact List.mem_dedup.mp (List.mem_of_mem_filter h)

/-- The caches after a refresh: the same, or the quotes of the stale symbols are set. -/
theorem refreshQuotes_cases (visit : Visit) (caches : ServiceCaches) :
    refreshQuotes visit caches = caches ∨
      ∃ fetched, refreshQuotes visit caches = (staleSymbols visit caches).foldl (cacheQuote visit fetched) caches := by
  unfold refreshQuotes
  cases visit.fetchQuotes with
  | none => exact Or.inl rfl
  | some fetchQuotes =>
    cases staleSymbols visit caches with
    | nil => exact Or.inl rfl
    | cons symbol symbols =>
      dsimp only
      cases fetchQuotes (symbol :: symbols) with
      | ok fetched => exact Or.inr ⟨fetched, rfl⟩
      | error e => exact Or.inl rfl

/-- A refresh sets the quotes of the visit's symbols only. -/
theorem refreshQuotes_of_notMem {symbol : String} (h : symbol ∉ visit.symbols) :
    (refreshQuotes visit caches).quoteCache.get? symbol = caches.quoteCache.get? symbol ∧
      (refreshQuotes visit caches).quoteCacheAt.get? symbol = caches.quoteCacheAt.get? symbol := by
  rcases refreshQuotes_cases visit caches with hsame | ⟨fetched, hfold⟩
  · rw [hsame]
    exact ⟨rfl, rfl⟩
  · rw [hfold]
    obtain ⟨hquote, hat, -⟩ := cacheQuotes_of_notMem fetched (mt mem_symbols_of_staleSymbols h) caches
    exact ⟨hquote, hat⟩

theorem regimes_cacheQuotes (fetched : Dict String QuoteSnapshot) (symbols : List String) (caches : ServiceCaches) :
    (symbols.foldl (cacheQuote visit fetched) caches).regimes = caches.regimes := by
  induction symbols generalizing caches with
  | nil => rfl
  | cons symbol symbols ih =>
    refine (ih (cacheQuote visit fetched caches symbol)).trans ?_
    funext key
    cases key <;> rfl

@[simp] theorem regimes_refreshQuotes (visit : Visit) (caches : ServiceCaches) :
    (refreshQuotes visit caches).regimes = caches.regimes := by
  rcases refreshQuotes_cases visit caches with hsame | ⟨fetched, hfold⟩
  · rw [hsame]
  · rw [hfold, regimes_cacheQuotes]

/-- The regimes after a visit. -/
theorem filled_of_step (settings : ContextSettings) (visit : Visit) (caches : ServiceCaches) :
    Filled regimeCacheTtl visit.now (visit.classified settings) caches.regimes
      ((sharedService settings).step caches visit).1.regimes := by
  rw [sharedService_step_fst, ← regimes_refreshQuotes visit caches]
  exact (contextsIn_lookedUp settings visit caches).regimes

end Step

/-! ### Where the fits come from -/

section Recent

variable {settings : ContextSettings}

/-- The breadth is the classification of a market, or of a sector, at one of the visits, less than a minute ago. -/
def Recent (settings : ContextSettings) (visits : List Visit) (now : Instant) (key : Option String) (fit : ℚ) : Prop :=
  ∃ visit ∈ visits, now - visit.now < regimeCacheTtl ∧ ∃ breadth, visit.classified settings key = .ok breadth ∧ breadth.fit = fit

/-- Every regime in the caches was found at one of the visits. -/
def Sourced (settings : ContextSettings) (visits : List Visit) (caches : ServiceCaches) : Prop :=
  ∀ key, ∀ e ∈ caches.regimes key, ∃ visit ∈ visits, visit.now = e.time ∧ visit.classified settings key = .ok e.value

/-- One step: a visit is added. -/
theorem Sourced.step {visits : List Visit} {caches : ServiceCaches} (h : Sourced settings visits caches) (visit : Visit) :
    Sourced settings (visits ++ [visit]) ((sharedService settings).step caches visit).1 := by
  intro key e he
  rcases filled_of_step settings visit caches key with hsame | ⟨-, breadth, hbreadth, hfilled⟩
  · rw [hsame] at he
    obtain ⟨source, hmem, hsource⟩ := h key e he
    exact ⟨source, List.mem_append_left _ hmem, hsource⟩
  · rw [hfilled, Option.mem_some_iff] at he
    subst he
    exact ⟨visit, by simp, rfl, hbreadth⟩

/-- A whole run. -/
theorem sourced (settings : ContextSettings) (visits : List Visit) :
    Sourced settings visits ((sharedService settings).exec {} visits) := by
  induction visits using List.reverseRecOn with
  | nil =>
    intro key e he
    cases key <;> cases he
  | append_singleton visits visit ih =>
    rw [Machine.exec_concat]
    exact ih.step visit

/-- What is read in a visit is recent. -/
theorem Sourced.recent {visits : List Visit} {caches : ServiceCaches} (h : Sourced settings visits caches) {visit : Visit}
    {key : Option String} {breadth : RegimeBreadth}
    (hread : reading regimeCacheTtl visit.now (visit.classified settings) caches.regimes key = .ok breadth) :
    Recent settings (visits ++ [visit]) visit.now key breadth.fit := by
  unfold reading at hread
  cases hcurrent : current regimeCacheTtl visit.now (caches.regimes key) with
  | some e =>
    rw [hcurrent] at hread
    cases hread
    obtain ⟨hentry, hlt⟩ := current_eq_some.mp hcurrent
    obtain ⟨source, hmem, htime, hsource⟩ := h key e hentry
    exact ⟨source, List.mem_append_left _ hmem, by rwa [htime], _, hsource, rfl⟩
  | none =>
    rw [hcurrent] at hread
    refine ⟨visit, by simp, ?_, breadth, hread, rfl⟩
    rw [sub_self]
    exact regimeCacheTtl_pos

/-- The fits of a context are recent. -/
def FitsRecent (settings : ContextSettings) (visits : List Visit) (now : Instant) (context : StrategyContext) : Prop :=
  Recent settings visits now none context.regime.marketFit ∧
    match givenSector context.sector with
    | none => context.regime.sectorFit = 1
    | some sector => Recent settings visits now (some sector) context.regime.sectorFit

theorem Sourced.fits {visits : List Visit} {caches : ServiceCaches} (h : Sourced settings visits caches) {visit : Visit}
    {sector : Option String} {marketFit sectorFit : ℚ}
    (hfits : fitsOf (reading regimeCacheTtl visit.now (visit.classified settings) caches.regimes) sector =
      .ok (marketFit, sectorFit)) :
    Recent settings (visits ++ [visit]) visit.now none marketFit ∧
      match givenSector sector with
      | none => sectorFit = 1
      | some sector => Recent settings (visits ++ [visit]) visit.now (some sector) sectorFit := by
  obtain ⟨marketBreadth, hmarket, hrest⟩ := Effect.except_bind_eq_ok.mp hfits
  cases hsector : givenSector sector with
  | none =>
    rw [hsector] at hrest
    cases hrest
    exact ⟨h.recent hmarket, rfl⟩
  | some s =>
    rw [hsector] at hrest
    obtain ⟨sectorBreadth, hbreadth, hpure⟩ := Effect.except_bind_eq_ok.mp hrest
    cases hpure
    exact ⟨h.recent hmarket, h.recent hbreadth⟩

/-- The fits of a context, from what is read at the beginning of its visit. -/
def FitsRead (settings : ContextSettings) (visit : Visit) (caches : ServiceCaches) (context : StrategyContext) : Prop :=
  fitsOf (reading regimeCacheTtl visit.now (visit.classified settings) caches.regimes) context.sector =
    .ok (context.regime.marketFit, context.regime.sectorFit)

theorem evidence_fits {marketFit sectorFit symbolFit mtfAlignment : ℚ} {label : String} {regime : RegimeEvidence}
    (h : RegimeEvidence.create marketFit sectorFit symbolFit mtfAlignment label = .ok regime) :
    regime.marketFit = marketFit ∧ regime.sectorFit = sectorFit := by
  unfold RegimeEvidence.create at h
  split_ifs at h
  cases h
  exact ⟨rfl, rfl⟩

theorem context_parts {market : Market} {symbol : String} {sector : Option String} {timeframe tradeHorizon : String}
    {version : ℕ} {eventTime : DateTime} {golds : List String} {features : Dict String ℚ} {fresh tradeable : Bool}
    {reason : String} {regime : RegimeEvidence} {context : StrategyContext}
    (h : StrategyContext.create market symbol sector timeframe tradeHorizon version eventTime golds features fresh
      tradeable reason regime = .ok context) : context.sector = sector ∧ context.regime = regime := by
  unfold StrategyContext.create at h
  split_ifs at h
  cases htime : utc eventTime "event_time" with
  | error e =>
    rw [htime] at h
    cases h
  | ok t =>
    rw [htime] at h
    cases h
    exact ⟨rfl, rfl⟩

section Body

variable {visit : Visit} {caches₀ caches caches' : ServiceCaches} {feature : FeatureRecord} {context : StrategyContext}

theorem basicContextIn_fits (h : LookedUp settings visit caches₀ caches)
    (hok : basicContextIn settings visit feature caches = .ok context caches') :
    FitsRead settings visit caches₀ context := by
  obtain ⟨⟨marketFit, sectorFit⟩, c₁, hfits, hrest⟩ := Effect.bind_eq_ok.mp hok
  obtain ⟨hcontext, -⟩ := Effect.ofExcept_eq_ok.mp hrest
  obtain ⟨regime, hregime, hmade⟩ := Effect.except_bind_eq_ok.mp hcontext
  obtain ⟨hmarket, hsector⟩ := evidence_fits hregime
  obtain ⟨hof, hevidence⟩ := context_parts hmade
  rw [FitsRead, hof, hevidence, hmarket, hsector]
  exact marketSectorFit_reading h hfits

theorem technicalContextIn_fits (h : LookedUp settings visit caches₀ caches)
    (hok : technicalContextIn settings visit feature caches = .ok (some context) caches') :
    FitsRead settings visit caches₀ context := by
  obtain ⟨c, c₀, hget, hread⟩ := Effect.bind_eq_ok.mp hok
  cases hget
  obtain ⟨own, c₁, hown, hrest⟩ := Effect.bind_eq_ok.mp hread
  obtain ⟨-, rfl⟩ := Effect.ofExcept_eq_ok.mp hown
  cases own with
  | none => cases hrest
  | some own =>
    obtain ⟨values, screened, symbolFit, label⟩ := own
    obtain ⟨⟨marketFit, sectorFit⟩, c₂, hfits, hlast⟩ := Effect.bind_eq_ok.mp hrest
    obtain ⟨context', c₃, hcontext, hpure⟩ := Effect.bind_eq_ok.mp hlast
    obtain ⟨hcontext', -⟩ := Effect.ofExcept_eq_ok.mp hcontext
    cases hpure
    obtain ⟨alignment, -, hrest'⟩ := Effect.except_bind_eq_ok.mp hcontext'
    obtain ⟨regime, hregime, hmade⟩ := Effect.except_bind_eq_ok.mp hrest'
    obtain ⟨hmarket, hsector⟩ := evidence_fits hregime
    obtain ⟨hof, hevidence⟩ := context_parts hmade
    rw [FitsRead, hof, hevidence, hmarket, hsector]
    exact marketSectorFit_reading h hfits

/-- All contexts of a visit. -/
theorem contextsIn_fits {contexts : List StrategyContext} (hok : contextsIn settings visit caches = .ok contexts caches') :
    ∀ context ∈ contexts, FitsRead settings visit (refreshQuotes visit caches) context := by
  rw [contextsIn_apply] at hok
  obtain ⟨basic, c₁, hbasic, hrest'⟩ := Effect.bind_eq_ok.mp hok
  obtain ⟨technical, c₂, htechnical, hpure⟩ := Effect.bind_eq_ok.mp hrest'
  cases hpure
  have hstart : LookedUp settings visit (refreshQuotes visit caches) (refreshQuotes visit caches) := LookedUp.refl _
  have hmiddle : LookedUp settings visit (refreshQuotes visit caches) c₁ := by
    simpa [hbasic] using Effect.Preserves.each basicContextIn_lookedUp visit.features _ hstart
  refine List.forall_mem_append.mpr ⟨?_, ?_⟩
  · exact Effect.Preserves.forall_of_each basicContextIn_lookedUp (fun _ _ _ _ => basicContextIn_fits) hstart hbasic
  · exact Effect.Preserves.forall_of_collect technicalContextIn_lookedUp (fun _ _ _ _ => technicalContextIn_fits) hmiddle
      htechnical

end Body

/-- **Where the fits come from**: after any visits, the fits of the contexts of a visit are those of a market and of a sector
at visits less than a minute before it, or at the visit itself. -/
theorem fits_of_recent_visits (settings : ContextSettings) (visits : List Visit) (visit : Visit)
    {contexts : List StrategyContext}
    (h : ((sharedService settings).step ((sharedService settings).exec {} visits) visit).2 = .ok contexts) :
    ∀ context ∈ contexts, FitsRecent settings (visits ++ [visit]) visit.now context := by
  intro context hcontext
  obtain ⟨caches', hok⟩ := sharedService_step_ok.mp h
  have hread := contextsIn_fits hok context hcontext
  rw [FitsRead, regimes_refreshQuotes] at hread
  exact (sourced settings visits).fits hread

end Recent

/-- Half a minute after NSE, crypto has fits that were found for NSE. -/
theorem fits_of_crypto :
    ∃ contexts, ((sharedService Sample.contextSettings).step ((sharedService Sample.contextSettings).exec {}
        [Sample.visitAt .nse "RELIANCE" 0]) (Sample.visitAt .crypto "BTC-USDT" 30)).2 = .ok contexts ∧
      contexts.length = 1 ∧ ∀ context ∈ contexts, FitsRecent Sample.contextSettings
        ([Sample.visitAt .nse "RELIANCE" 0] ++ [Sample.visitAt .crypto "BTC-USDT" 30])
        (Sample.visitAt .crypto "BTC-USDT" 30).now context := by
  have hlength : ((sharedService Sample.contextSettings).step ((sharedService Sample.contextSettings).exec {}
      [Sample.visitAt .nse "RELIANCE" 0]) (Sample.visitAt .crypto "BTC-USDT" 30)).2.toOption.map List.length = some 1 := by
    decide +kernel
  cases hok : ((sharedService Sample.contextSettings).step ((sharedService Sample.contextSettings).exec {}
      [Sample.visitAt .nse "RELIANCE" 0]) (Sample.visitAt .crypto "BTC-USDT" 30)).2 with
  | error e =>
    rw [hok] at hlength
    cases hlength
  | ok contexts =>
    rw [hok] at hlength
    exact ⟨contexts, rfl, Option.some.inj hlength, fits_of_recent_visits _ _ _ hok⟩

/-! ### A service of its own -/

/-- What a service sees that is there for the market of the visit only. -/
def Visit.own (visit : Visit) : Visit := { visit with silver := candlesOf visit.market visit.silver }

/-- A visit of another market before one of this market: a minute before it, and not for its symbols. -/
def Apart (market : Market) (visit later : Visit) : Prop :=
  visit.market ≠ market → later.market = market →
    visit.now + regimeCacheTtl ≤ later.now ∧ visit.symbols.Disjoint later.symbols

instance (market : Market) (visit later : Visit) : Decidable (Apart market visit later) := by
  unfold Apart
  have : Decidable (visit.symbols.Disjoint later.symbols) :=
    decidable_of_iff (∀ symbol ∈ visit.symbols, symbol ∉ later.symbols) List.disjoint_left.symm
  infer_instance

/-- The caches of the service, and those of a service of its own: others filled in regimes at these times, and the quotes of
these symbols. -/
structure Related (times : List ℤ) (seen : List String) (shared own : ServiceCaches) : Prop where
  regimes : ∀ key, Aligned times (shared.regimes key) (own.regimes key)
  quotes : ∀ symbol ∉ seen, shared.quoteCache.get? symbol = own.quoteCache.get? symbol ∧
    shared.quoteCacheAt.get? symbol = own.quoteCacheAt.get? symbol

section Own

variable {settings : ContextSettings} {visit : Visit} {times : List ℤ} {seen : List String} {s t : ServiceCaches}

theorem classified_own (settings : ContextSettings) (visit : Visit) : visit.own.classified settings = visit.classified settings := by
  funext key
  exact classify_own visit.silver visit.market settings.sectorFor key

/-- The same regime is filled in. -/
theorem Related.fillRegime (h : Related times seen s t) (breadth : RegimeBreadth) (now : Instant) (key : Option String) :
    Related times seen (s.fillRegime breadth now key) (t.fillRegime breadth now key) where
  regimes := by
    intro key'
    simp only [ServiceCaches.regimes_fillRegime]
    by_cases hkey : key' = key
    · subst hkey
      simpa using Aligned.same _
    · simpa [hkey] using h.regimes key'
  quotes := by simpa using h.quotes

theorem regimeOf_paired (settings : ContextSettings) (h : Related times seen s t) (hover : ∀ time ∈ times, time + regimeCacheTtl ≤ visit.now)
    (key : Option String) :
    Effect.Paired (Related times seen) (regimeOf settings visit key s) (regimeOf settings visit.own key t) := by
  have hstale : current regimeCacheTtl visit.now (s.regimes key) = none →
      current regimeCacheTtl visit.own.now (t.regimes key) = none →
      Effect.Paired (Related times seen) (regimeOf settings visit key s) (regimeOf settings visit.own key t) := by
    intro hs ht
    rw [regimeOf_of_stale hs, regimeOf_of_stale ht, classified_own]
    cases visit.classified settings key with
    | ok breadth => exact .ok breadth (h.fillRegime breadth visit.now key)
    | error e => exact .error e h
  rcases (h.regimes key).cases_of_over hover with hsame | ⟨hs, ht⟩
  · cases hcurrent : current regimeCacheTtl visit.now (s.regimes key) with
    | none => exact hstale hcurrent (by rw [← hsame]; exact hcurrent)
    | some e =>
      have hown : current regimeCacheTtl visit.own.now (t.regimes key) = some e := by rw [← hsame]; exact hcurrent
      rw [regimeOf_of_current hcurrent, regimeOf_of_current hown]
      exact .ok e.value h
  · exact hstale hs ht

theorem marketSectorFit_paired (h : Related times seen s t) (hover : ∀ time ∈ times, time + regimeCacheTtl ≤ visit.now)
    (sector : Option String) :
    Effect.Paired (Related times seen) (marketSectorFit settings visit sector s)
      (marketSectorFit settings visit.own sector t) := by
  refine Effect.Paired.bind (regimeOf_paired settings h hover none) fun marketBreadth s' t' h' => ?_
  cases givenSector sector with
  | none => exact Effect.paired_pure _ h'
  | some sector =>
    exact Effect.Paired.bind (regimeOf_paired settings h' hover (some sector)) fun _ _ _ h'' => Effect.paired_pure _ h''

theorem basicContextIn_paired (h : Related times seen s t) (hover : ∀ time ∈ times, time + regimeCacheTtl ≤ visit.now)
    (feature : FeatureRecord) :
    Effect.Paired (Related times seen) (basicContextIn settings visit feature s)
      (basicContextIn settings visit.own feature t) := by
  refine Effect.Paired.bind (marketSectorFit_paired h hover _) ?_
  rintro ⟨marketFit, sectorFit⟩ s' t' h'
  exact Effect.paired_ofExcept_last _ h'

/-- The candles of other markets are not read for a row. -/
theorem ownReading_own {feature : FeatureRecord} (hmarket : feature.market = visit.market) (limits : ReadingLimits)
    (quote : Option QuoteSnapshot) :
    ownReading visit.own.silver limits quote feature = ownReading visit.silver limits quote feature := by
  unfold ownReading
  rw [hmarket]
  show (latestTechnicalSnapshot (candlesOf visit.market visit.silver) _ _ _ >>= _) = _
  rw [latestTechnicalSnapshot_congr (seriesOf_own visit.silver visit.market _ _)]

theorem mtfAlignment_own {feature : FeatureRecord} (hmarket : feature.market = visit.market) (values : Dict String ℚ) :
    mtfAlignment visit.own.silver feature values = mtfAlignment visit.silver feature values := by
  unfold mtfAlignment
  cases higherTimeframe feature.timeframe with
  | none => rfl
  | some higher =>
    dsimp only
    rw [hmarket]
    show (latestTechnicalFeatures (candlesOf visit.market visit.silver) _ _ _ >>= _) = _
    rw [latestTechnicalFeatures_own]

theorem technicalContextIn_paired (h : Related times seen s t)
    (hover : ∀ time ∈ times, time + regimeCacheTtl ≤ visit.now) {feature : FeatureRecord}
    (hmarket : feature.market = visit.market) (hseen : feature.symbol ∉ seen) :
    Effect.Paired (Related times seen) (technicalContextIn settings visit feature s)
      (technicalContextIn settings visit.own feature t) := by
  unfold technicalContextIn
  rw [Effect.bind_of_ok (Effect.get_apply s), Effect.bind_of_ok (Effect.get_apply t), (h.quotes _ hseen).1,
    ownReading_own hmarket]
  refine Effect.paired_ofExcept h fun own _ => ?_
  cases own with
  | none => exact Effect.paired_pure _ h
  | some own =>
    obtain ⟨values, screened, symbolFit, label⟩ := own
    refine Effect.Paired.bind (marketSectorFit_paired h hover _) fun fits s' t' h' => ?_
    have hread : readContextIn settings visit.own feature values screened symbolFit label fits =
        readContextIn settings visit feature values screened symbolFit label fits := by
      unfold readContextIn
      rw [mtfAlignment_own hmarket]
      rfl
    rw [hread]
    exact Effect.paired_ofExcept h' fun _ _ => Effect.paired_pure _ h'

/-- One quote is set in both. -/
theorem Related.cacheQuote (h : Related times seen s t) (fetched : Dict String QuoteSnapshot) (symbol : String) :
    Related times seen (cacheQuote visit fetched s symbol) (cacheQuote visit fetched t symbol) where
  regimes := h.regimes
  quotes := by
    intro symbol' hseen
    obtain ⟨hquote, hat⟩ := h.quotes symbol' hseen
    unfold Runtime.cacheQuote
    constructor
    · cases fetched.get? symbol with
      | none => exact hquote
      | some snapshot => simp only [Dict.get?_set, hquote]
    · simp only [Dict.get?_set, hat]

theorem Related.refreshQuotes (h : Related times seen s t) (hseen : ∀ symbol ∈ visit.symbols, symbol ∉ seen) :
    Related times seen (refreshQuotes visit s) (refreshQuotes visit.own t) := by
  have hstale : staleSymbols visit.own t = staleSymbols visit s := by
    unfold staleSymbols
    congr 1
    refine List.filter_congr fun symbol hsymbol => ?_
    rw [(h.quotes symbol (hseen symbol (List.mem_dedup.mp hsymbol))).2]
    rfl
  have hfold : ∀ (fetched : Dict String QuoteSnapshot) (symbols : List String) {s t : ServiceCaches}, Related times seen s t →
      Related times seen (symbols.foldl (Runtime.cacheQuote visit fetched) s)
        (symbols.foldl (Runtime.cacheQuote visit fetched) t) := by
    intro fetched symbols
    induction symbols with
    | nil => exact fun h => h
    | cons symbol symbols ih => exact fun h => ih (h.cacheQuote fetched symbol)
  have hfetch : visit.own.fetchQuotes = visit.fetchQuotes := rfl
  unfold Runtime.refreshQuotes
  rw [hstale, hfetch]
  cases visit.fetchQuotes with
  | none => exact h
  | some fetchQuotes =>
    cases staleSymbols visit s with
    | nil => exact h
    | cons symbol symbols =>
      dsimp only
      cases fetchQuotes (symbol :: symbols) with
      | ok fetched => exact hfold fetched (symbol :: symbols) h
      | error e => exact h

/-- **One visit in both**: after visits of others that are over. -/
theorem contextsIn_paired (settings : ContextSettings) (h : Related times seen s t)
    (hover : ∀ time ∈ times, time + regimeCacheTtl ≤ visit.now) (hseen : ∀ symbol ∈ visit.symbols, symbol ∉ seen) :
    Effect.Paired (Related times seen) (contextsIn settings visit s) (contextsIn settings visit.own t) := by
  have hrefresh := h.refreshQuotes hseen
  rw [contextsIn_apply, contextsIn_apply]
  refine Effect.Paired.bind (Effect.paired_each (fun feature _ _ _ h => basicContextIn_paired h hover feature) hrefresh) ?_
  intro basic s₁ t₁ h₁
  refine Effect.Paired.bind (Effect.paired_collect (fun feature hfeature _ _ h => ?_) h₁) fun _ _ _ h₂ =>
    Effect.paired_pure _ h₂
  exact technicalContextIn_paired h hover (visit.market_eq feature hfeature)
    (hseen _ (List.mem_map_of_mem hfeature))

/-- A visit of another market, in the shared service only. -/
theorem Related.foreign (h : Related times seen s t) (settings : ContextSettings) (visit : Visit) :
    Related (visit.now :: times) (visit.symbols ++ seen) ((sharedService settings).step s visit).1 t where
  regimes key := (filled_of_step settings visit s).aligned regimeCacheTtl_pos (h.regimes key)
  quotes := by
    intro symbol hsymbol
    obtain ⟨hother, hseen⟩ := not_or.mp (mt List.mem_append.mpr hsymbol)
    have hlooked := contextsIn_lookedUp settings visit s
    rw [sharedService_step_fst, hlooked.quoteCache, hlooked.quoteCacheAt, (refreshQuotes_of_notMem hother).1,
      (refreshQuotes_of_notMem hother).2]
    exact h.quotes symbol hseen

end Own

/-- The visits of other markets. -/
def others (market : Market) (past : List Visit) : List Visit := past.filter fun visit => visit.market ≠ market

/-- **A shared service and a service of its own**: if each visit of a market comes a minute after every earlier visit of
another market, and asks for other symbols, then the market gets the contexts from the shared service that it gets from a
service of its own, which sees the candles of that market only. -/
theorem contexts_alone (settings : ContextSettings) (market : Market) {visits : List Visit}
    (h : visits.Pairwise (Apart market)) :
    (sharedService settings).outputsFor (fun visit => visit.market = market) {} visits =
      (sharedService settings).outputs {} ((visits.filter fun visit => visit.market = market).map Visit.own) := by
  refine Machine.outputs_purge Visit.own (Q := Apart market)
    (R := fun past s t => Related ((others market past).map Visit.now) ((others market past).flatMap Visit.symbols) s t)
    ?_ ?_ ⟨fun _ => .same _, fun _ _ => ⟨rfl, rfl⟩⟩ h (List.forall_mem_nil _)
  · intro past s t visit hrel hmarket hpast
    have hmine : visit.market = market := by simpa using hmarket
    have hsame : others market (visit :: past) = others market past := by simp [others, hmine]
    have hapart : ∀ other ∈ others market past, other.now + regimeCacheTtl ≤ visit.now ∧
        other.symbols.Disjoint visit.symbols := by
      intro other hother
      obtain ⟨hmem, hne⟩ := List.mem_filter.mp hother
      exact hpast other hmem (by simpa using hne) hmine
    have hover : ∀ time ∈ (others market past).map Visit.now, time + regimeCacheTtl ≤ visit.now :=
      List.forall_mem_map.mpr fun other hother => (hapart other hother).1
    have hseen : ∀ symbol ∈ visit.symbols, symbol ∉ (others market past).flatMap Visit.symbols := by
      intro symbol hsymbol hother
      obtain ⟨other, hmem, hin⟩ := List.mem_flatMap.mp hother
      exact (hapart other hmem).2 hin hsymbol
    have hpaired := contextsIn_paired settings hrel hover hseen
    rw [hsame, sharedService_step_fst, sharedService_step_fst]
    refine ⟨hpaired.final, ?_⟩
    simp only [sharedService]
    revert hpaired
    generalize contextsIn settings visit s = x
    generalize contextsIn settings visit.own t = y
    intro hpaired
    cases hpaired <;> rfl
  · intro past s t visit hrel hmarket _
    have hne : visit.market ≠ market := by simpa using hmarket
    have hother : others market (visit :: past) = visit :: others market past := by simp [others, hne]
    rw [hother]
    exact hrel.foreign settings visit

/-- A minute apart, both have a service of their own. -/
theorem nse_alone :
    (sharedService Sample.contextSettings).outputsFor (fun visit => visit.market = .nse) {} Sample.visits =
      (sharedService Sample.contextSettings).outputs {}
        ((Sample.visits.filter fun visit => visit.market = .nse).map Visit.own) :=
  contexts_alone Sample.contextSettings .nse (by decide +kernel)

end NanoDelta.Runtime
