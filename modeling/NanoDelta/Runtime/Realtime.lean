import Mathlib.Data.List.MinMax
import NanoDelta.Features
import NanoDelta.Library.Machine
import NanoDelta.Pipeline
import NanoDelta.Runtime.CandleBuilder

/-!
# The realtime cycle of a market

`RealtimeMarketCycle` (`runtime/realtime.py`) as a machine. Its inputs are payloads of the
providers, of which failover chooses the active one, writes of other writers into the same lake,
and restarts of the process. A quote settles bars; a bar that is new in Silver gets its features
from the bar that the cycle remembers for its series, or after a restart from the latest bar in
Silver if the cycle can restore it. The features go to `on_features`; what is noted of such a call
is Silver at that time.

* `features_are_of_the_series`: in a run in which no bar of a series is stored out of order, the
  features of every call are those that `materialize_features` gives for all of Silver.
-/

namespace NanoDelta.Runtime

open Library

/-! ### The cycle -/

/-- What `RealtimeMarketCycle` is configured with. -/
structure RealtimeMarketCycle where
  market : Market
  symbolMaps : Dict Provider (Dict String String) := .empty
  /-- The seconds of a bar, by its label. -/
  barTimeframes : Dict String ℤ
  /-- Whether there is a `previous_candle_loader`. -/
  restores : Bool
  bars_pos : ∀ e ∈ barTimeframes.entries, 0 < e.2
  bars_nodup : (barTimeframes.entries.map Prod.snd).Nodup

theorem minuteBars_pos : ∀ e ∈ ((Dict.empty : Dict String ℤ).set "1m" 60).entries, 0 < e.2 := by decide

theorem minuteBars_nodup : (((Dict.empty : Dict String ℤ).set "1m" 60).entries.map Prod.snd).Nodup := by decide

/-- The builders, from short bars to long ones. -/
def RealtimeMarketCycle.builders (self : RealtimeMarketCycle) : List CandleBuilder :=
  (self.barTimeframes.entries.insertionSort fun a b => a.2 ≤ b.2).map fun e => ⟨e.2, e.1, .empty⟩

/-- A call of `on_features`, with Silver at that time. -/
structure Call where
  features : List FeatureRecord
  silver : List CanonicalCandle

/-- The lake, what the cycle keeps in memory, and the calls so far. -/
structure CycleState where
  lake : Lake := {}
  builders : List CandleBuilder
  previousCandles : Dict (String × String) CanonicalCandle := .empty
  calls : List Call := []

section Cycle

variable (host : Host) (reader : Reader) (cycle : RealtimeMarketCycle)

/-- A start with an empty lake. -/
def CycleState.start : CycleState := { builders := cycle.builders }

/-- `_previous_settled_candle`: the latest settled candle of the series before the given one. -/
def previousSettledCandle (silver : List CanonicalCandle) (current : CanonicalCandle) : Option CanonicalCandle :=
  (@List.argmax _ Instant Int.instLinearOrder.toPreorder Int.decLt CanonicalCandle.openTime (silver.filter fun c =>
    c.series = current.series ∧ c.isSettled = true ∧ c.openTime < current.openTime)).map fun c =>
      { c with recordId := stableId host [c.market.value, c.symbol, c.timeframe, isoformat c.openTime] }

/-- The candle that the cycle takes as the one before, if it has one. -/
def CycleState.previousOf (s : CycleState) (canonical : CanonicalCandle) : Option CanonicalCandle :=
  match s.previousCandles.get? (canonical.symbol, canonical.timeframe) with
  | some previous => some previous
  | none => if cycle.restores then previousSettledCandle host s.lake.silver canonical else none

/-- The part of `_persist_settled` after a candle was stored. -/
def CycleState.remember (s : CycleState) (canonical : CanonicalCandle) : CycleState :=
  let s' := { s with previousCandles := s.previousCandles.set (canonical.symbol, canonical.timeframe) canonical }
  match s.previousOf host cycle canonical with
  | none => s'
  | some previous =>
    let features := materializeFeatures host [previous, canonical]
    if features = [] then s' else { s' with calls := s.calls ++ [⟨features, s.lake.silver⟩] }

/-- A write into the lake. -/
def ingestInto (market : Market) (provider : Provider) (eventType : EventType) (providerSymbol : String)
    (payload : Payload) (receivedAt : DateTime) : EStateM PyError CycleState IngestionResult :=
  Effect.focus CycleState.lake (fun s lake => { s with lake := lake })
    (ingest host reader market provider eventType providerSymbol payload receivedAt)

/-- `_persist_settled`. -/
def persistSettled (now : Instant) (quote : QuoteEvent) (candle : SettledCandle) : EStateM PyError CycleState PUnit := do
  let result ← ingestInto host reader quote.market quote.provider .candle quote.symbol
    (candlePayload quote.provider candle) (.aware now)
  match result.canonical with
  | none => return
  | some canonical =>
    if result.silverCreated = false then return
    else modify fun s => s.remember host cycle canonical

/-- The loop over the builders, those before it as they are after the quote. -/
def addToBuilders (now : Instant) (quote : QuoteEvent) (done : List CandleBuilder) :
    List CandleBuilder → EStateM PyError CycleState PUnit
  | [] => return
  | builder :: builders => do
    modify fun s => { s with builders := done ++ (builder.add quote).2 :: builders }
    match (builder.add quote).1 with
    | none => pure ()
    | some candle => persistSettled host reader cycle now quote candle
    addToBuilders now quote (done ++ [(builder.add quote).2]) builders

/-- The payload of a quote. -/
def quotePayload (quote : QuoteEvent) : Payload :=
  payloadOf [("symbol", .str quote.symbol), ("time", .str (isoformat quote.eventTime.astimezone)),
    ("price", .num quote.price), ("volume", .num quote.volume),
    ("sequence", match quote.sequence with | none => .null | some n => .num n)]

/-- `_persist_quote_and_settled`. -/
def persistQuoteAndSettled (now : Instant) (quote : QuoteEvent) : EStateM PyError CycleState PUnit := do
  let _ ← ingestInto host reader quote.market quote.provider .quote quote.symbol (quotePayload quote) (.aware now)
  addToBuilders host reader cycle now quote [] (← get).builders

/-- What can happen: a payload of a provider, a write of another writer, a restart. -/
inductive CycleInput where
  | payload (provider : Provider) (payload : Payload) (now : Instant)
  | history (market : Market) (provider : Provider) (providerSymbol : String) (payload : Payload) (receivedAt : DateTime)
  | restart

/-- The quote of a payload, if it is one. -/
def RealtimeMarketCycle.quoteOf (provider : Provider) (payload : Payload) (now : Instant) : Except PyError (Option QuoteEvent) :=
  normalizeQuote reader cycle.market provider payload now ((cycle.symbolMaps.get? provider).getD .empty)

/-- The cycle as a machine. What a step raises changes nothing more. -/
def realtime : Machine CycleState CycleInput Unit where
  step s
    | .payload provider payload now =>
      match cycle.quoteOf reader provider payload now with
      | .ok (some quote) => (Effect.final (persistQuoteAndSettled host reader cycle now quote s), ())
      | _ => (s, ())
    | .history market provider providerSymbol payload receivedAt =>
      (Effect.final (ingestInto host reader market provider .candle providerSymbol payload receivedAt s), ())
    | .restart => ({ s with builders := cycle.builders, previousCandles := .empty }, ())

/-! ### Bars in order -/

/-- The candle that a builder settles with a quote, as it goes into Silver. -/
def barOf (now : Instant) (quote : QuoteEvent) (builder : CandleBuilder) : Option CanonicalCandle :=
  (builder.add quote).1.bind fun candle =>
    (settledOf host reader quote.market quote.provider quote.symbol (candlePayload quote.provider candle)
      (.aware now)).toOption.join

/-- A bar that Silver has, or that opens after all bars of its series in Silver. -/
def Follows (silver : List CanonicalCandle) (bar : CanonicalCandle) : Prop :=
  (∃ other ∈ silver, other.key = bar.key) ∨ ∀ other ∈ silver, other.series = bar.series → other.openTime < bar.openTime

instance (silver : List CanonicalCandle) (bar : CanonicalCandle) : Decidable (Follows silver bar) :=
  inferInstanceAs (Decidable (_ ∨ _))

/-- Bars of different series, each of which follows what is in Silver. -/
def AllFollow (silver bars : List CanonicalCandle) : Prop :=
  bars.Pairwise (fun a b => a.series ≠ b.series) ∧ ∀ bar ∈ bars, Follows silver bar

instance (silver bars : List CanonicalCandle) : Decidable (AllFollow silver bars) :=
  inferInstanceAs (Decidable (_ ∧ _))

/-- The condition on a step: the bars that a quote settles follow what is in Silver, and another writer writes no bar
that opens after the one that the cycle remembers for its series. -/
def InOrder (s : CycleState) : CycleInput → Prop
  | .payload provider payload now => ∀ quote ∈ (cycle.quoteOf reader provider payload now).toOption.join,
      AllFollow s.lake.silver (s.builders.filterMap (barOf host reader now quote))
  | .history market provider providerSymbol payload receivedAt =>
      ∀ bar ∈ (settledOf host reader market provider providerSymbol payload receivedAt).toOption.join,
        bar.market = cycle.market →
          ∀ previous ∈ s.previousCandles.get? (bar.symbol, bar.timeframe), bar.openTime ≤ previous.openTime
  | .restart => True

instance (s : CycleState) : ∀ input, Decidable (InOrder host reader cycle s input)
  | .payload .. => inferInstanceAs (Decidable (∀ quote ∈ _, AllFollow _ _))
  | .history .. => inferInstanceAs (Decidable (∀ bar ∈ _, _ = _ → ∀ previous ∈ _, _ ≤ _))
  | .restart => isTrue trivial

/-- The features of a call are those that `materialize_features` gives for the same candles and all of Silver. -/
def Call.OfSeries (call : Call) : Prop :=
  ∀ feature ∈ call.features, feature ∈ materializeFeatures host call.silver ∧
    ∀ other ∈ materializeFeatures host call.silver,
      (other.market, other.symbol, other.timeframe, other.eventTime) =
        (feature.market, feature.symbol, feature.timeframe, feature.eventTime) → other = feature

/-- What holds in every state of a run in which the bars are in order: a candle that the cycle remembers is the latest
of its series in Silver. -/
structure Remembers (s : CycleState) : Prop where
  keys : s.lake.silver.Pairwise fun a b => a.key ≠ b.key
  settled : ∀ c ∈ s.lake.silver, c.isSettled = true
  latest : ∀ key previous, s.previousCandles.get? key = some previous →
    previous ∈ s.lake.silver ∧ previous.market = cycle.market ∧ (previous.symbol, previous.timeframe) = key ∧
      ∀ c ∈ s.lake.silver, c.series = previous.series → c.openTime ≤ previous.openTime
  calls : ∀ call ∈ s.calls, call.OfSeries host

section Invariant

variable {host : Host} {reader : Reader} {cycle : RealtimeMarketCycle} {s s' : CycleState}

theorem Remembers.of_eq (h : Remembers host cycle s) (hsilver : s'.lake.silver = s.lake.silver)
    (hprevious : s'.previousCandles = s.previousCandles) (hcalls : s'.calls = s.calls) : Remembers host cycle s' := by
  constructor
  · rw [hsilver]
    exact h.keys
  · rw [hsilver]
    exact h.settled
  · rw [hprevious, hsilver]
    exact h.latest
  · rw [hcalls]
    exact h.calls

theorem series_eq_iff {a b : CanonicalCandle} :
    a.series = b.series ↔ a.market = b.market ∧ (a.symbol, a.timeframe) = (b.symbol, b.timeframe) := by
  simp [CanonicalCandle.series, Market.value_injective.eq_iff]

/-- A new candle in Silver. -/
theorem insertSilver_of_new {silver : List CanonicalCandle} {candle : CanonicalCandle}
    (h : ¬ ∃ other ∈ silver, other.key = candle.key) : insertSilver silver candle = silver ++ [candle] := if_neg h

theorem insertSilver_of_mem {silver : List CanonicalCandle} {candle : CanonicalCandle}
    (h : ∃ other ∈ silver, other.key = candle.key) : insertSilver silver candle = silver := if_pos h

theorem pairwise_key_concat {silver : List CanonicalCandle} {candle : CanonicalCandle}
    (hkeys : silver.Pairwise fun a b => a.key ≠ b.key) (h : ¬ ∃ other ∈ silver, other.key = candle.key) :
    (silver ++ [candle]).Pairwise fun a b => a.key ≠ b.key := by
  refine List.pairwise_append.mpr ⟨hkeys, List.pairwise_singleton _ _, ?_⟩
  intro a ha b hb heq
  rw [List.mem_singleton.mp hb] at heq
  exact h ⟨a, ha, heq⟩

/-- A new bar in Silver that opens no later than the candle remembered for its series. -/
theorem Remembers.insert (h : Remembers host cycle s) {bar : CanonicalCandle} (hsettled : bar.isSettled = true)
    (hbar : bar.market = cycle.market →
      ∀ previous ∈ s.previousCandles.get? (bar.symbol, bar.timeframe), bar.openTime ≤ previous.openTime)
    {lake : Lake} (hsilver : lake.silver = insertSilver s.lake.silver bar) :
    Remembers host cycle { s with lake := lake } := by
  by_cases hnew : ∃ other ∈ s.lake.silver, other.key = bar.key
  · rw [insertSilver_of_mem hnew] at hsilver
    exact h.of_eq hsilver rfl rfl
  · rw [insertSilver_of_new hnew] at hsilver
    constructor
    · rw [hsilver]
      exact pairwise_key_concat h.keys hnew
    · rw [hsilver]
      intro c hc
      rcases List.mem_append.mp hc with hc | hc
      · exact h.settled c hc
      · rwa [List.mem_singleton.mp hc]
    · intro key previous hprevious
      obtain ⟨hmem, hmarket, hkey, hlatest⟩ := h.latest key previous hprevious
      rw [hsilver]
      refine ⟨List.mem_append_left _ hmem, hmarket, hkey, ?_⟩
      intro c hc hseries
      rcases List.mem_append.mp hc with hc | hc
      · exact hlatest c hc hseries
      · rw [List.mem_singleton.mp hc] at hseries ⊢
        obtain ⟨hm, hk⟩ := series_eq_iff.mp hseries
        exact hbar (hm.trans hmarket) previous (by rw [hk, hkey]; exact hprevious)
    · exact h.calls

/-- The candle that the cycle takes as the one before a new bar is, up to its record id, the latest of the series. -/
theorem previousOf_eq_some (h : Remembers host cycle s) {bar : CanonicalCandle} (hmarket : bar.market = cycle.market)
    (hfollows : ∀ other ∈ s.lake.silver, other.series = bar.series → other.openTime < bar.openTime)
    {lake : Lake} (hsilver : lake.silver = s.lake.silver ++ [bar]) {previous : CanonicalCandle}
    (hprevious : ({ s with lake := lake } : CycleState).previousOf host cycle bar = some previous) :
    ∃ latest ∈ s.lake.silver, latest.series = bar.series ∧
      (∀ c ∈ s.lake.silver, c.series = bar.series → c.openTime ≤ latest.openTime) ∧
      ∃ recordId, previous = { latest with recordId } := by
  unfold CycleState.previousOf at hprevious
  cases hcached : s.previousCandles.get? (bar.symbol, bar.timeframe) with
  | some cached =>
    simp only [hcached, Option.some.injEq] at hprevious
    subst hprevious
    obtain ⟨hmem, hm, hkey, hlatest⟩ := h.latest _ cached hcached
    have hseries : cached.series = bar.series := series_eq_iff.mpr ⟨hm.trans hmarket.symm, hkey⟩
    exact ⟨cached, hmem, hseries, fun c hc hs => hlatest c hc (hs.trans hseries.symm), cached.recordId, rfl⟩
  | none =>
    simp only [hcached] at hprevious
    split_ifs at hprevious
    unfold previousSettledCandle at hprevious
    obtain ⟨latest, hargmax, rfl⟩ := Option.map_eq_some_iff.mp hprevious
    have hmem := List.argmax_mem hargmax
    simp only [hsilver, List.mem_filter, List.mem_append, List.mem_singleton, decide_eq_true_eq] at hmem
    obtain ⟨hmem, hseries, -, hlt⟩ := hmem
    have hold : latest ∈ s.lake.silver := by
      rcases hmem with hmem | rfl
      · exact hmem
      · exact absurd hlt (lt_irrefl _)
    refine ⟨latest, hold, hseries, ?_, _, rfl⟩
    intro c hc hs
    refine List.le_of_mem_argmax (f := CanonicalCandle.openTime) ?_ hargmax
    simp only [hsilver, List.mem_filter, List.mem_append, decide_eq_true_eq]
    exact ⟨Or.inl hc, hs, h.settled c hc, hfollows c hc hs⟩

/-- The features of a new bar and the latest candle of its series are features of all of Silver. -/
theorem mem_materializeFeatures_concat {silver : List CanonicalCandle} {latest previous bar : CanonicalCandle}
    (hkeys : (silver ++ [bar]).Pairwise fun a b => a.key ≠ b.key) (hsettled : ∀ c ∈ silver, c.isSettled = true)
    (hbar : bar.isSettled = true) (hmem : latest ∈ silver) (hseries : latest.series = bar.series)
    (hlt : latest.openTime < bar.openTime)
    (hlatest : ∀ c ∈ silver, c.series = bar.series → c.openTime ≤ latest.openTime) {recordId : String}
    (hprevious : previous = { latest with recordId }) {feature : FeatureRecord}
    (hfeature : feature ∈ materializeFeatures host [previous, bar]) :
    feature ∈ materializeFeatures host (silver ++ [bar]) := by
  have hopen : previous.openTime = latest.openTime := by rw [hprevious]
  have hpair : [previous, bar].Pairwise fun a b => a.key ≠ b.key := by
    rw [List.pairwise_pair]
    intro heq
    have hopens : previous.openTime = bar.openTime := (Prod.mk.inj (Prod.mk.inj (Prod.mk.inj heq).2).2).2
    exact absurd (hopen.symm.trans hopens) hlt.ne
  obtain ⟨a, ha, b, hb, -, -, -, hab, -, hof⟩ := (mem_materializeFeatures_iff hpair).mp hfeature
  have horder : a = previous ∧ b = bar := by
    rcases List.mem_pair.mp ha with rfl | rfl
    · rcases List.mem_pair.mp hb with rfl | rfl
      · exact absurd hab (lt_irrefl _)
      · exact ⟨rfl, rfl⟩
    · rcases List.mem_pair.mp hb with rfl | rfl
      · exact absurd (hopen ▸ hab) hlt.not_gt
      · exact absurd hab (lt_irrefl _)
  rw [horder.1, horder.2, hprevious] at hof
  refine (mem_materializeFeatures_iff hkeys).mpr ⟨latest, List.mem_append_left _ hmem, bar,
    List.mem_append_right _ (List.mem_singleton_self _), hsettled latest hmem, hbar, hseries, hlt, ?_, hof⟩
  rintro c hc - hs
  rcases List.mem_append.mp hc with hc | hc
  · exact Or.inl (hlatest c hc hs)
  · rw [List.mem_singleton.mp hc]
    exact Or.inr le_rfl

theorem lake_remember (s : CycleState) (bar : CanonicalCandle) : (s.remember host cycle bar).lake = s.lake := by
  unfold CycleState.remember
  cases s.previousOf host cycle bar with
  | none => rfl
  | some previous =>
    dsimp only
    split_ifs
    · rfl
    · rfl

/-- The cycle remembers a new bar that follows what is in Silver. -/
theorem Remembers.remember (h : Remembers host cycle s) {bar : CanonicalCandle} (hsettled : bar.isSettled = true)
    (hmarket : bar.market = cycle.market) (hnew : ¬ ∃ other ∈ s.lake.silver, other.key = bar.key)
    (hfollows : ∀ other ∈ s.lake.silver, other.series = bar.series → other.openTime < bar.openTime)
    {lake : Lake} (hsilver : lake.silver = s.lake.silver ++ [bar]) :
    Remembers host cycle (({ s with lake := lake } : CycleState).remember host cycle bar) := by
  have hkeys : lake.silver.Pairwise fun a b => a.key ≠ b.key := hsilver ▸ pairwise_key_concat h.keys hnew
  have hall : ∀ c ∈ lake.silver, c.isSettled = true := by
    rw [hsilver]
    intro c hc
    rcases List.mem_append.mp hc with hc | hc
    · exact h.settled c hc
    · rwa [List.mem_singleton.mp hc]
  have hlatest : ∀ key previous,
      (s.previousCandles.set (bar.symbol, bar.timeframe) bar).get? key = some previous →
      previous ∈ lake.silver ∧ previous.market = cycle.market ∧ (previous.symbol, previous.timeframe) = key ∧
        ∀ c ∈ lake.silver, c.series = previous.series → c.openTime ≤ previous.openTime := by
    rw [hsilver]
    intro key previous hget
    rw [Dict.get?_set] at hget
    split_ifs at hget with hkey
    · cases hget
      refine ⟨List.mem_append_right _ (List.mem_singleton_self _), hmarket, hkey.symm, ?_⟩
      intro c hc hseries
      rcases List.mem_append.mp hc with hc | hc
      · exact (hfollows c hc hseries).le
      · rw [List.mem_singleton.mp hc]
    · obtain ⟨hmem, hm, hk, hle⟩ := h.latest key previous hget
      refine ⟨List.mem_append_left _ hmem, hm, hk, ?_⟩
      intro c hc hseries
      rcases List.mem_append.mp hc with hc | hc
      · exact hle c hc hseries
      · rw [List.mem_singleton.mp hc] at hseries
        exact absurd ((series_eq_iff.mp hseries).2.trans hk).symm hkey
  unfold CycleState.remember
  cases hprevious : ({ s with lake := lake } : CycleState).previousOf host cycle bar with
  | none => exact ⟨hkeys, hall, hlatest, h.calls⟩
  | some previous =>
    obtain ⟨latest, hmem, hseries, hle, recordId, heq⟩ := previousOf_eq_some h hmarket hfollows hsilver hprevious
    dsimp only
    split_ifs with hfeatures
    · exact ⟨hkeys, hall, hlatest, h.calls⟩
    · refine ⟨hkeys, hall, hlatest, ?_⟩
      intro call hcall
      rcases List.mem_append.mp hcall with hcall | hcall
      · exact h.calls call hcall
      · rw [List.mem_singleton.mp hcall]
        intro feature hfeature
        have hall : feature ∈ materializeFeatures host lake.silver := by
          rw [hsilver]
          exact mem_materializeFeatures_concat (hsilver ▸ hkeys) h.settled hsettled hmem hseries
            (hfollows latest hmem hseries) hle heq hfeature
        exact ⟨hall, fun other hother hcandle => eq_of_mem_materializeFeatures hkeys hother hall hcandle⟩

/-- What `_persist_settled` does with a bar that follows what is in Silver. -/
theorem persistSettled_ends (h : Remembers host cycle s) {now : Instant} {quote : QuoteEvent}
    (hmarket : quote.market = cycle.market) {candle : SettledCandle}
    (hfollows : ∀ bar, settledOf host reader quote.market quote.provider quote.symbol
      (candlePayload quote.provider candle) (.aware now) = .ok (some bar) → Follows s.lake.silver bar) :
    Effect.Ends (persistSettled host reader cycle now quote candle) s
      (fun _ s' => Remembers host cycle s' ∧ ∃ bar, settledOf host reader quote.market quote.provider quote.symbol
        (candlePayload quote.provider candle) (.aware now) = .ok bar ∧
        s'.lake.silver = bar.toList.foldl insertSilver s.lake.silver)
      fun _ s' => Remembers host cycle s' := by
  refine Effect.Ends.bind ((ingest_ends s.lake).focus.mono ?_ ?_)
  · rintro result s₁ ⟨lake, rfl, bar, hbar, hsilver, hcanonical, hcreated⟩
    cases bar with
    | none =>
      have hkept : Remembers host cycle { s with lake := lake } := h.of_eq hsilver rfl rfl
      cases hresult : result.canonical with
      | none => exact ⟨hkept, none, hbar, hsilver⟩
      | some canonical =>
        have hnot : result.silverCreated = false := hcreated
        dsimp only
        rw [if_pos hnot]
        exact ⟨hkept, none, hbar, hsilver⟩
    | some bar =>
      obtain ⟨hsettled, hm⟩ := settledOf_ok hbar
      obtain ⟨hresult, -⟩ := Option.filter_eq_some_iff.mp hcanonical
      rw [hresult]
      dsimp only
      by_cases hnew : ∃ other ∈ s.lake.silver, other.key = bar.key
      · rw [if_pos (by simpa [hcreated] using hnew)]
        exact ⟨h.of_eq (hsilver.trans (insertSilver_of_mem hnew)) rfl rfl, some bar, hbar, hsilver⟩
      · rw [if_neg (by simpa [hcreated] using hnew)]
        have hafter : ∀ other ∈ s.lake.silver, other.series = bar.series → other.openTime < bar.openTime :=
          (hfollows bar hbar).resolve_left hnew
        refine ⟨h.remember hsettled (hm.trans hmarket) hnew hafter (hsilver.trans (insertSilver_of_new hnew)), some bar,
          hbar, ?_⟩
        rw [← hsilver]
        exact congrArg Lake.silver (lake_remember _ bar)
  · rintro e s₁ ⟨lake, rfl, -, hsilver⟩
    exact h.of_eq hsilver rfl rfl

/-- A bar of another series follows what is in Silver also after a bar is stored. -/
theorem Follows.insert {silver : List CanonicalCandle} {bar other : CanonicalCandle} (h : Follows silver bar)
    (hseries : other.series ≠ bar.series) : Follows (insertSilver silver other) bar := by
  unfold insertSilver
  split_ifs with hmem
  · exact h
  · rcases h with ⟨c, hc, hkey⟩ | hafter
    · exact Or.inl ⟨c, List.mem_append_left _ hc, hkey⟩
    · refine Or.inr ?_
      intro c hc hs
      rcases List.mem_append.mp hc with hc | hc
      · exact hafter c hc hs
      · rw [List.mem_singleton.mp hc] at hs
        exact absurd hs hseries

theorem addToBuilders_ends {now : Instant} {quote : QuoteEvent} (hmarket : quote.market = cycle.market)
    (builders : List CandleBuilder) (done : List CandleBuilder) (h : Remembers host cycle s)
    (hfollow : AllFollow s.lake.silver (builders.filterMap (barOf host reader now quote))) :
    Effect.Ends (addToBuilders host reader cycle now quote done builders) s (fun _ => Remembers host cycle)
      fun _ => Remembers host cycle := by
  induction builders generalizing s done with
  | nil => exact h
  | cons builder builders ih =>
    rw [addToBuilders]
    refine Effect.Ends.bind (Effect.ends_of_eq_ok (Effect.modify_apply _ s) ?_)
    have hrest : Remembers host cycle { s with builders := done ++ (builder.add quote).2 :: builders } :=
      h.of_eq rfl rfl rfl
    cases hcandle : (builder.add quote).1 with
    | none =>
      have hnone : barOf host reader now quote builder = none := by
        unfold barOf
        rw [hcandle]
        rfl
      rw [List.filterMap_cons_none hnone] at hfollow
      exact ih _ hrest hfollow
    | some candle =>
      have hbar : ∀ bar, settledOf host reader quote.market quote.provider quote.symbol
          (candlePayload quote.provider candle) (.aware now) = .ok bar → barOf host reader now quote builder = bar := by
        intro bar hok
        unfold barOf
        rw [hcandle, Option.bind_some, hok]
        rfl
      refine Effect.Ends.bind ((persistSettled_ends hrest hmarket ?_).mono ?_ fun _ _ h => h)
      · intro bar hok
        rw [List.filterMap_cons_some (hbar _ hok)] at hfollow
        exact hfollow.2 bar (List.mem_cons_self ..)
      · rintro _ s₁ ⟨h₁, bar, hok, hsilver⟩
        refine ih _ h₁ ?_
        rw [hsilver]
        cases bar with
        | none =>
          rw [List.filterMap_cons_none (hbar _ hok)] at hfollow
          exact hfollow
        | some bar =>
          rw [List.filterMap_cons_some (hbar _ hok)] at hfollow
          obtain ⟨hpairwise, hall⟩ := hfollow
          obtain ⟨hne, hpairwise⟩ := List.pairwise_cons.mp hpairwise
          exact ⟨hpairwise, fun other hother => (hall other (List.mem_cons_of_mem _ hother)).insert (hne other hother)⟩

/-- One step in which the bars are in order. -/
theorem Remembers.step (h : Remembers host cycle s) {input : CycleInput}
    (horder : InOrder host reader cycle s input) : Remembers host cycle ((realtime host reader cycle).step s input).1 := by
  cases input with
  | payload provider payload now =>
    unfold InOrder at horder
    dsimp only at horder
    unfold realtime
    dsimp only
    cases hquote : cycle.quoteOf reader provider payload now with
    | error e => exact h
    | ok quote =>
      cases quote with
      | none => exact h
      | some quote =>
        have hmarket : quote.market = cycle.market := market_of_normalizeQuote hquote
        refine Effect.Ends.final (P := Remembers host cycle) ?_
        have hquoted : EventType.quote ≠ .candle := by decide
        refine Effect.Ends.bind (((ingest_keeps_silver hquoted).ends s.lake).focus.mono ?_ ?_)
        · rintro result s₁ ⟨lake, rfl, -, hsilver⟩
          refine Effect.Ends.bind (Effect.ends_of_eq_ok (Effect.get_apply _) ?_)
          refine addToBuilders_ends hmarket s.builders [] (h.of_eq hsilver rfl rfl) ?_
          have hfollow := horder quote (by rw [hquote]; rfl)
          rwa [← hsilver] at hfollow
        · rintro e s₁ ⟨lake, rfl, hsilver⟩
          exact h.of_eq hsilver rfl rfl
  | history market provider providerSymbol payload receivedAt =>
    unfold InOrder at horder
    dsimp only at horder
    refine Effect.Ends.final (P := Remembers host cycle) ((ingest_ends s.lake).focus.mono ?_ ?_)
    · rintro result s₁ ⟨lake, rfl, bar, hbar, hsilver, -, -⟩
      cases bar with
      | none => exact h.of_eq hsilver rfl rfl
      | some bar => exact h.insert (settledOf_ok hbar).1 (horder bar (by rw [hbar]; rfl)) hsilver
    · rintro e s₁ ⟨lake, rfl, -, hsilver⟩
      exact h.of_eq hsilver rfl rfl
  | restart =>
    refine ⟨h.keys, h.settled, ?_, h.calls⟩
    intro key previous hprevious
    cases hprevious

end Invariant

/-- **Features of the series.** In every run in which the bars are in order, the features of every call are those that
`materialize_features` gives for the same candles and all of Silver at the time of the call. -/
theorem features_are_of_the_series (inputs : List CycleInput)
    (h : (realtime host reader cycle).Along (InOrder host reader cycle) (.start cycle) inputs) :
    ∀ call ∈ ((realtime host reader cycle).exec (.start cycle) inputs).calls, call.OfSeries host := by
  refine (Machine.exec_invariant_along (P := Remembers host cycle) (fun _ _ hs horder => hs.step horder) ?_ h).calls
  constructor
  · exact List.Pairwise.nil
  · intro c hc
    cases hc
  · intro key previous hprevious
    cases hprevious
  · intro call hcall
    cases hcall

end Cycle

/-! ### Five minutes -/

namespace Sample

/-- The crypto cycle, with one-minute bars. -/
def crypto : RealtimeMarketCycle where
  market := .crypto
  barTimeframes := Dict.empty.set "1m" 60
  restores := false
  bars_pos := by decide
  bars_nodup := by decide

/-- A quote, some seconds after noon of 2026-08-14 in UTC. -/
def quote (second : ℤ) (price : String) : CycleInput :=
  .payload .okx (payloadOf [("arg", .obj [("instId", .str "BTC-USDT")]), ("data", .obj [("last", .str price),
    ("lastSz", .str "1"), ("ts", .str (toString (1000 * (1786708800 + second))))])]) (seconds (1786708800 + second))

/-- The quotes of four minutes. -/
def quotes : List CycleInput := [quote 10 "100", quote 70 "101", quote 130 "102", quote 190 "103"]

/-- Another writer stores the bar of 12:02. -/
def written : CycleInput :=
  .history .crypto .okx "BTC-USDT" (candlePayload .okx
    ⟨"BTC_USDT", "1m", seconds (1786708800 + 120), 102, 110, 102, 110, 5⟩) (.aware (seconds (1786708800 + 185)))

end Sample

/-- Four minutes of quotes: there are two calls, and their features are those of the series. -/
theorem quotes_in_order :
    ((realtime .cpython .plain Sample.crypto).exec (.start Sample.crypto) Sample.quotes).calls.length = 2 ∧
      ∀ call ∈ ((realtime .cpython .plain Sample.crypto).exec (.start Sample.crypto) Sample.quotes).calls,
        call.OfSeries .cpython := by
  obtain ⟨hcalls, horder⟩ : ((realtime .cpython .plain Sample.crypto).exec (.start Sample.crypto)
        Sample.quotes).calls.length = 2 ∧ (realtime .cpython .plain Sample.crypto).Along
          (InOrder .cpython .plain Sample.crypto) (.start Sample.crypto) Sample.quotes := by
    rw [← Host.evaluated_eq]
    decide +kernel
  exact ⟨hcalls, features_are_of_the_series .cpython .plain Sample.crypto Sample.quotes horder⟩

/-- Another writer stores the bar of 12:02 before the cycle does: the features of the bar of 12:03 are made with the
bar of 12:01, and are not those of the series. -/
theorem written_in_between :
    ¬ ∀ call ∈ ((realtime .cpython .plain Sample.crypto).exec (.start Sample.crypto)
        (Sample.quotes.take 3 ++ [Sample.written, Sample.quote 190 "103", Sample.quote 250 "104"])).calls,
      call.OfSeries .cpython := by
  have hcalls : ((realtime .cpython .plain Sample.crypto).exec (.start Sample.crypto)
      (Sample.quotes.take 3 ++ [Sample.written, Sample.quote 190 "103", Sample.quote 250 "104"])).calls.map (fun call =>
        call.features.map fun f => decide (f.return1 ∈ (materializeFeatures .cpython call.silver).map
          FeatureRecord.return1)) = [[true], [false]] := by
    rw [← Host.evaluated_eq]
    decide +kernel
  intro hall
  have hmem : [false] ∈ [[true], [false]] := by decide
  rw [← hcalls] at hmem
  obtain ⟨call, hcall, heq⟩ := List.mem_map.mp hmem
  have hfalse : false ∈ call.features.map fun f => decide (f.return1 ∈ (materializeFeatures .cpython call.silver).map
      FeatureRecord.return1) := by
    rw [heq]
    exact List.mem_singleton_self _
  obtain ⟨feature, hfeature, hnot⟩ := List.mem_map.mp hfalse
  exact of_decide_eq_false hnot (List.mem_map_of_mem (hall call hcall feature hfeature).1)

end NanoDelta.Runtime
