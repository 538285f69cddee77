import NanoDelta.Orchestration.Steady
import NanoDelta.Runtime.PaperReplay
import NanoDelta.Runtime.TechnicalContext

/-!
# Late cycles

A cycle may be processed long after its rows were written. The indicators of a row are read from the
newest candles of its series, wherever the row stands in it: a cycle that is processed late reads
candles that were not there when its rows were new.

* `contexts_of_the_past`: the candles that are read for some rows are not later than the rows if and
  only if Silver has no later ones in their series. Two cycles over such Silvers with the same past
  have the same contexts and the same candidates.
* `late_cycle_has_other_contexts`: one later candle, and the context has another close.
-/

namespace NanoDelta.Runtime

open Library Strategies Decisions Risk Outcomes Paper Orchestration

variable {Ω : Type}

/-! ### What is read -/

/-- The service over a Silver layer and the quotes that it has in memory. -/
def PaperDecisionService.over (self : PaperDecisionService Ω) (limits : ReadingLimits)
    (quoteOf : String → Option QuoteSnapshot) (silver : List CanonicalCandle) : PaperDecisionService Ω :=
  { self with
    data := { self.data with
      technical := fun feature => technicalReading silver limits (quoteOf feature.symbol) feature } }

/-- The timeframes in which the series of a row is read. -/
def timeframesOf (feature : FeatureRecord) : List String :=
  feature.timeframe :: (higherTimeframe feature.timeframe).toList

/-- The candles that are read for a row. -/
def candlesRead (silver : List CanonicalCandle) (feature : FeatureRecord) : List CanonicalCandle :=
  (timeframesOf feature).flatMap (newestCandles silver feature.market feature.symbol)

/-- The candles up to a time. -/
def upTo (time : Instant) (silver : List CanonicalCandle) : List CanonicalCandle :=
  silver.filter fun c => c.openTime ≤ time

/-- The series of the rows have no candles that are later than the row. -/
def NoLater (silver : List CanonicalCandle) (features : List FeatureRecord) : Prop :=
  ∀ feature ∈ features, ∀ timeframe ∈ timeframesOf feature,
    ∀ c ∈ seriesOf silver feature.market feature.symbol timeframe, c.openTime ≤ feature.eventTime.astimezone

/-- Two Silvers with the same candles up to the time of each row. -/
def SamePast (features : List FeatureRecord) (silver silver' : List CanonicalCandle) : Prop :=
  ∀ feature ∈ features, upTo feature.eventTime.astimezone silver' = upTo feature.eventTime.astimezone silver

instance (silver : List CanonicalCandle) (features : List FeatureRecord) : Decidable (NoLater silver features) :=
  inferInstanceAs (Decidable (∀ feature ∈ features, ∀ timeframe ∈ timeframesOf feature, ∀ c ∈ seriesOf silver _ _ _, _))

instance (features : List FeatureRecord) (silver silver' : List CanonicalCandle) :
    Decidable (SamePast features silver silver') :=
  inferInstanceAs (Decidable (∀ feature ∈ features, _ = _))

/-! ### The past -/

section Past

variable {silver silver' : List CanonicalCandle} {market : Market} {symbol timeframe : String} {time : Instant}

/-- The newest candles of a series are not later than a time just if none of the series is. -/
theorem newestCandles_le_iff :
    (∀ c ∈ newestCandles silver market symbol timeframe, c.openTime ≤ time) ↔
      ∀ c ∈ seriesOf silver market symbol timeframe, c.openTime ≤ time := by
  unfold newestCandles
  set series := seriesOf silver market symbol timeframe
  have hperm := List.perm_insertionSort (fun a b : CanonicalCandle => b.openTime ≤ a.openTime) series
  have hsorted : (series.insertionSort fun a b => b.openTime ≤ a.openTime).Pairwise fun a b => b.openTime ≤ a.openTime :=
    List.pairwise_insertionSort _ _
  constructor
  · intro h c hc
    have hc' := hperm.mem_iff.mpr hc
    cases hnewest : series.insertionSort fun a b => b.openTime ≤ a.openTime with
    | nil =>
      rw [hnewest] at hc'
      cases hc'
    | cons newest older =>
      rw [hnewest] at hc' hsorted h
      -- the newest candle is read, whatever the window is
      have hfirst : newest.openTime ≤ time := h newest (by simp [candleWindow])
      rcases List.mem_cons.mp hc' with rfl | hold
      · exact hfirst
      · exact le_trans (List.rel_of_pairwise_cons hsorted hold) hfirst
  · intro h c hc
    exact h c (hperm.mem_iff.mp (List.mem_of_mem_take hc))

/-- A series with nothing later is in the past. -/
theorem seriesOf_upTo (h : ∀ c ∈ seriesOf silver market symbol timeframe, c.openTime ≤ time) :
    seriesOf (upTo time silver) market symbol timeframe = seriesOf silver market symbol timeframe := by
  unfold seriesOf upTo
  rw [List.filter_filter]
  refine List.filter_congr fun c hc => ?_
  by_cases hof : c.market = market ∧ c.symbol = symbol ∧ c.timeframe = timeframe ∧ c.isSettled = true
  · have hle : c.openTime ≤ time := h c (List.mem_filter.mpr ⟨hc, decide_eq_true hof⟩)
    simp [hof, hle]
  · simp [hof]

/-- The same series, of two Silvers with the same past and nothing later. -/
theorem seriesOf_eq_of_past (hpast : upTo time silver' = upTo time silver)
    (h : ∀ c ∈ seriesOf silver market symbol timeframe, c.openTime ≤ time)
    (h' : ∀ c ∈ seriesOf silver' market symbol timeframe, c.openTime ≤ time) :
    seriesOf silver' market symbol timeframe = seriesOf silver market symbol timeframe := by
  rw [← seriesOf_upTo h, ← seriesOf_upTo h', hpast]

theorem candlesRead_le_iff {feature : FeatureRecord} :
    (∀ c ∈ candlesRead silver feature, c.openTime ≤ time) ↔
      ∀ timeframe ∈ timeframesOf feature, ∀ c ∈ seriesOf silver feature.market feature.symbol timeframe,
        c.openTime ≤ time := by
  unfold candlesRead
  simp only [List.mem_flatMap, forall_exists_index, and_imp]
  constructor
  · intro h timeframe htimeframe
    exact newestCandles_le_iff.mp fun c hc => h c timeframe htimeframe hc
  · intro h c timeframe htimeframe hc
    exact newestCandles_le_iff.mpr (h timeframe htimeframe) c hc

end Past

/-! ### Contexts -/

section Contexts

variable {self : PaperDecisionService Ω} {limits : ReadingLimits} {quoteOf : String → Option QuoteSnapshot}
  {silver silver' : List CanonicalCandle} {features : List FeatureRecord} {now : Instant}

variable (limits) in
/-- A row has the same reading over two Silvers with the same past and nothing later. -/
theorem technicalReading_eq_of_past (hpast : SamePast features silver silver') (h : NoLater silver features)
    (h' : NoLater silver' features) {feature : FeatureRecord} (hfeature : feature ∈ features)
    (quote : Option QuoteSnapshot) :
    technicalReading silver' limits quote feature = technicalReading silver limits quote feature := by
  have hseries : ∀ timeframe ∈ timeframesOf feature,
      seriesOf silver' feature.market feature.symbol timeframe =
        seriesOf silver feature.market feature.symbol timeframe := fun timeframe htimeframe =>
    seriesOf_eq_of_past (hpast feature hfeature) (h feature hfeature timeframe htimeframe)
      (h' feature hfeature timeframe htimeframe)
  refine technicalReading_congr (hseries _ List.mem_cons_self) fun higher hhigher => hseries higher ?_
  exact List.mem_cons_of_mem _ (Option.mem_toList.mpr hhigher)

variable (self limits quoteOf now) in
/-- So the rows have the same contexts. -/
theorem contextsOf_eq_of_past (hpast : SamePast features silver silver') (h : NoLater silver features)
    (h' : NoLater silver' features) :
    contextsOf (self.over limits quoteOf silver') features now =
      contextsOf (self.over limits quoteOf silver) features now := by
  have htechnical : ∀ feature ∈ features, technicalContext (self.over limits quoteOf silver') feature now =
      technicalContext (self.over limits quoteOf silver) feature now := by
    intro feature hfeature
    unfold technicalContext
    have hreading := technicalReading_eq_of_past limits hpast h h' hfeature (quoteOf feature.symbol)
    simp only [PaperDecisionService.over, hreading]
    rfl
  unfold contextsOf
  rw [Effect.collect_congr fun feature hfeature => congrArg Effect.ofExcept (htechnical feature hfeature)]
  rfl

/-- The contexts do not depend on the state of the tables of the session. -/
theorem contextsOf_steady : Effect.Steady id (contextsOf self features now) := by
  refine (Effect.Steady.each (fun _ => Effect.steady_ofExcept _) _).bind fun basic => ?_
  exact (Effect.Steady.collect (fun _ => Effect.steady_ofExcept _) _).bind fun technical => Effect.steady_pure _

/-- **Contexts of the past**: the candles that are read for the rows of a cycle are not later than the rows just if
Silver has no later ones in their series. If so, any other Silver with the same past and nothing later gives the
same contexts, and the same candidates to every run of the pipeline over them: whatever the ledger, the quotes and
the portfolio are by then. -/
theorem contexts_of_the_past (self : PaperDecisionService Ω) (limits : ReadingLimits)
    (quoteOf : String → Option QuoteSnapshot) (silver : List CanonicalCandle) (features : List FeatureRecord)
    (now : Instant) :
    ((∀ feature ∈ features, ∀ c ∈ candlesRead silver feature, c.openTime ≤ feature.eventTime.astimezone) ↔
      NoLater silver features) ∧
    ∀ silver', SamePast features silver silver' → NoLater silver features → NoLater silver' features →
      contextsOf (self.over limits quoteOf silver') features now =
        contextsOf (self.over limits quoteOf silver) features now ∧
      ∀ (host : Host) (s s₁ s₂ s' t₁ t₂ : Ω) contexts contexts' preconditions quotes quotes' held held' correlations
        correlations' result result',
        contextsOf (self.over limits quoteOf silver) features now s = .ok contexts s₁ →
        contextsOf (self.over limits quoteOf silver') features now s' = .ok contexts' t₁ →
        run host self.pipeline contexts preconditions (.aware now) quotes held correlations s₁ = .ok result s₂ →
        run host self.pipeline contexts' preconditions (.aware now) quotes' held' correlations' t₁ = .ok result' t₂ →
        contexts' = contexts ∧ result'.candidates = result.candidates := by
  refine ⟨forall₂_congr fun feature _ => candlesRead_le_iff, ?_⟩
  intro silver' hpast h h'
  have hcontexts := contextsOf_eq_of_past self limits quoteOf now hpast h h'
  refine ⟨hcontexts, ?_⟩
  intro host s s₁ s₂ s' t₁ t₂ contexts contexts' preconditions quotes quotes' held held' correlations correlations'
    result result' hfirst hlate hrun hrun'
  rw [hcontexts] at hlate
  have hsame : contexts' = contexts := contextsOf_steady _ _ _ _ _ _ hlate hfirst
  subst hsame
  exact ⟨rfl, candidates_eq hrun' hrun⟩

end Contexts

/-! ### A cycle that is late -/

namespace Sample

open Risk.Sample

/-- A candle of a symbol, some minutes after noon. -/
def minuteCandle (symbol : String) (after : ℤ) (close : ℚ) (hclose : 99 ≤ close := by decide)
    (hhigh : close ≤ 104 := by decide) : CanonicalCandle where
  recordId := "candle"
  rawRecordId := "raw"
  market := .nse
  provider := .dhan
  symbol := symbol
  timeframe := "1m"
  openTime := noon + seconds (60 * after)
  openPrice := 100
  high := 104
  low := 99
  close := close
  volume := 100000
  isSettled := true
  volume_nonneg := by decide
  range := ⟨le_min (by decide) hclose, max_le (by decide) hhigh⟩

/-- The thirty minutes up to noon, all of them at the same price. -/
def untilNoon : List CanonicalCandle := (List.range 30).map fun k => minuteCandle "RELIANCE" (k - 29) 100

/-- The limits of the readings. -/
def readingLimits : ReadingLimits := ⟨defaultTradeabilityLimits, defaultSymbolRegimeLimits⟩

/-- A worker's service. -/
def service : PaperDecisionService Worker := decisionService .cpython "paper-1" settings .none

/-- What the service works on before anything has happened. -/
def idle : Worker := (start .cpython).start 0

/-- The closes of the contexts. -/
def closesOf : EStateM.Result PyError Worker (List StrategyContext) → List (Option ℚ)
  | .ok contexts _ => contexts.map fun context => context.features.get? "close"
  | .error _ _ => []

end Sample

/-- The row of noon has the same contexts when another symbol has traded since. -/
theorem late_cycle_after_other_symbols :
    contextsOf (Sample.service.over Sample.readingLimits (fun _ => none)
        (Sample.untilNoon ++ [Sample.minuteCandle "INFY" 1 103])) [Sample.row "gold-1" 0 100] Risk.Sample.noon =
      contextsOf (Sample.service.over Sample.readingLimits (fun _ => none) Sample.untilNoon)
        [Sample.row "gold-1" 0 100] Risk.Sample.noon :=
  ((contexts_of_the_past Sample.service Sample.readingLimits (fun _ => none) Sample.untilNoon
    [Sample.row "gold-1" 0 100] Risk.Sample.noon).2 (Sample.untilNoon ++ [Sample.minuteCandle "INFY" 1 103])
    (by decide +kernel) (by decide +kernel) (by decide +kernel)).1

/-- The row of noon is tried again after the next candle has been written: its technical context has the close of
that candle. So the contexts of a row do not depend on its past alone. -/
theorem late_cycle_has_other_contexts :
    ¬ ∀ (self : PaperDecisionService Worker) limits quoteOf silver silver' features now,
      SamePast features silver silver' →
      contextsOf (self.over limits quoteOf silver') features now =
        contextsOf (self.over limits quoteOf silver) features now := by
  intro h
  have hsame := h Sample.service Sample.readingLimits (fun _ => none) Sample.untilNoon
    (Sample.untilNoon ++ [Sample.minuteCandle "RELIANCE" 1 103]) [Sample.row "gold-1" 0 100] Risk.Sample.noon
    (by decide +kernel)
  have hcloses := congrArg (fun contexts => Sample.closesOf (contexts Sample.idle)) hsame
  revert hcloses
  simp only [Sample.service, Sample.idle, ← Host.evaluated_eq]
  decide +kernel

end NanoDelta.Runtime
