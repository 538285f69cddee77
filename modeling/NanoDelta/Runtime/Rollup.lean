import Mathlib
import NanoDelta.Library.Series
import NanoDelta.Runtime.BarPayloads
import NanoDelta.Runtime.Realtime

/-!
# Longer bars and shorter ones

A cycle gives each quote to all of its builders, from short bars to long ones, and persists what each settles before it
goes on to the next. `emissions` is the loop with a note of each candle that is settled, and of the lake at that moment.

* `rolled_up`: over quotes in order, a longer bar is the roll-up of the shorter bars in it, which were settled before it
  and are in the lake.
-/

namespace NanoDelta.Runtime

open Library History Markets

/-! ### The candles that a cycle settles -/

/-- A candle at the moment that a builder settles it: the quote, and what is in the lake. -/
structure Emission where
  /-- The seconds of the builder. -/
  seconds : ℤ
  candle : SettledCandle
  quote : QuoteEvent
  now : Instant
  lake : Lake

/-- A shorter bar is inside a longer one. -/
def Emission.Inside (part whole : Emission) : Prop :=
  part.candle.symbol = whole.candle.symbol ∧ whole.candle.openTime ≤ part.candle.openTime ∧
    part.candle.openTime < whole.candle.openTime + NanoDelta.seconds whole.seconds

instance (part whole : Emission) : Decidable (part.Inside whole) := inferInstanceAs (Decidable (_ ∧ _ ∧ _))

/-- A candle is the roll-up of shorter ones. -/
structure RollsUp (whole : SettledCandle) (parts : List SettledCandle) : Prop where
  openPrice : (parts.map SettledCandle.openPrice).head? = some whole.openPrice
  high : (parts.map SettledCandle.high).max? = some whole.high
  low : (parts.map SettledCandle.low).min? = some whole.low
  close : (parts.map SettledCandle.close).getLast? = some whole.close
  volume : (parts.map SettledCandle.volume).sum = whole.volume

section Cycle

variable (host : Host) (reader : Reader) (cycle : RealtimeMarketCycle)

/-- A lake has the raw record of a settled candle, and a candle for what the pipeline makes of it. -/
def Emission.PersistedIn (emission : Emission) (lake : Lake) : Prop :=
  ∃ raw, RawRecord.create host reader emission.quote.market emission.quote.provider .candle emission.quote.symbol
      (.aware emission.now) (candlePayload emission.quote.provider emission.candle) = .ok raw ∧ raw.recordId ∈ lake.bronze ∧
    ∀ canonical, settledRaw host reader raw = .ok (some canonical) → ∃ other ∈ lake.silver, other.key = canonical.key

/-- The loop over the builders, with a note of what they settle. -/
def emitLoop (now : Instant) (quote : QuoteEvent) (done : List CandleBuilder) :
    List CandleBuilder → CycleState → List Emission × EStateM.Result PyError CycleState PUnit
  | [], s => ([], .ok ⟨⟩ s)
  | builder :: builders, s =>
    let s' := { s with builders := done ++ (builder.add quote).2 :: builders }
    match (builder.add quote).1 with
    | none => emitLoop now quote (done ++ [(builder.add quote).2]) builders s'
    | some candle =>
      match persistSettled host reader cycle now quote candle s' with
      | .error e s'' => ([⟨builder.seconds, candle, quote, now, s'.lake⟩], .error e s'')
      | .ok _ s'' =>
        let rest := emitLoop now quote (done ++ [(builder.add quote).2]) builders s''
        (⟨builder.seconds, candle, quote, now, s'.lake⟩ :: rest.1, rest.2)

/-- `_persist_quote_and_settled`, with a note of what is settled. -/
def emitQuote (s : CycleState) (quote : QuoteEvent) (now : Instant) :
    List Emission × EStateM.Result PyError CycleState PUnit :=
  match ingestInto host reader quote.market quote.provider .quote quote.symbol (quotePayload quote) (.aware now) s with
  | .error e s' => ([], .error e s')
  | .ok _ s' => emitLoop host reader cycle now quote [] s'.builders s'

/-- The cycle over quotes. -/
def quoteCycle : Machine CycleState (QuoteEvent × Instant) (List Emission) where
  step s input := (Effect.final (persistQuoteAndSettled host reader cycle input.2 input.1 s),
    (emitQuote host reader cycle s input.1 input.2).1)

/-- All that a cycle settles, from a start with a lake. -/
def emissions (lake : Lake) (quotes : List (QuoteEvent × Instant)) : List Emission :=
  ((quoteCycle host reader cycle).outputs { lake, builders := cycle.builders } quotes).flatten

end Cycle

section Loop

variable {host : Host} {reader : Reader} {cycle : RealtimeMarketCycle}

/-- The notes change nothing in the loop. -/
theorem emitLoop_snd (now : Instant) (quote : QuoteEvent) (builders done : List CandleBuilder) (s : CycleState) :
    (emitLoop host reader cycle now quote done builders s).2 = addToBuilders host reader cycle now quote done builders s := by
  induction builders generalizing done s with
  | nil => rfl
  | cons builder builders ih =>
    rw [emitLoop, addToBuilders, Effect.bind_of_ok (Effect.modify_apply _ s)]
    cases hcandle : (builder.add quote).1 with
    | none =>
      exact ih _ _
    | some candle =>
      dsimp only
      rw [Effect.bind_apply]
      cases hpersist : persistSettled host reader cycle now quote candle
        { s with builders := done ++ (builder.add quote).2 :: builders } with
      | error e s'' => rfl
      | ok _ s'' => exact ih _ _

theorem emitQuote_snd (now : Instant) (quote : QuoteEvent) (s : CycleState) :
    (emitQuote host reader cycle s quote now).2 = persistQuoteAndSettled host reader cycle now quote s := by
  unfold emitQuote persistQuoteAndSettled
  rw [Effect.bind_apply]
  cases ingestInto host reader quote.market quote.provider .quote quote.symbol (quotePayload quote) (.aware now) s with
  | error e s' => rfl
  | ok _ s' =>
    exact emitLoop_snd ..

/-! ### What is persisted -/

/-- A lake with at least the records of another. -/
def Grows (lake lake' : Lake) : Prop := lake.bronze ⊆ lake'.bronze ∧ lake.silver ⊆ lake'.silver

theorem Grows.trans {lake lake' lake'' : Lake} (h : Grows lake lake') (h' : Grows lake' lake'') : Grows lake lake'' :=
  ⟨List.Subset.trans h.1 h'.1, List.Subset.trans h.2 h'.2⟩

theorem Grows.refl (lake : Lake) : Grows lake lake := ⟨List.Subset.refl _, List.Subset.refl _⟩

/-- What is persisted stays so. -/
theorem Emission.PersistedIn.grows {emission : Emission} {lake lake' : Lake}
    (h : emission.PersistedIn host reader lake) (hgrows : Grows lake lake') : emission.PersistedIn host reader lake' := by
  obtain ⟨raw, hraw, hbronze, hsilver⟩ := h
  refine ⟨raw, hraw, hgrows.1 hbronze, ?_⟩
  intro canonical hcanonical
  obtain ⟨other, hother, hkey⟩ := hsilver canonical hcanonical
  exact ⟨other, hgrows.2 hother, hkey⟩

theorem grows_writeBronze (lake : Lake) (recordId : String) :
    Grows lake (lake.writeBronze recordId).2 ∧ recordId ∈ (lake.writeBronze recordId).2.bronze := by
  unfold Lake.writeBronze
  split_ifs with h
  · exact ⟨Grows.refl lake, h⟩
  · exact ⟨⟨List.subset_append_left .., List.Subset.refl _⟩, by simp⟩

theorem grows_writeSilver (lake : Lake) (candle : CanonicalCandle) :
    Grows lake (lake.writeSilver candle).2 ∧ ∃ other ∈ (lake.writeSilver candle).2.silver, other.key = candle.key := by
  unfold Lake.writeSilver insertSilver
  split_ifs with h
  · exact ⟨Grows.refl lake, h⟩
  · exact ⟨⟨List.Subset.refl _, List.subset_append_left ..⟩, candle, by simp, rfl⟩

/-- `ingest` of a raw record whose errors it catches. -/
theorem ingestRaw_persists {raw : RawRecord}
    (hcaught : raw.eventType = .candle → ∀ e, canonicalOf host reader raw = .error e → e.rejection ≠ none) (lake : Lake) :
    Effect.Ends (ingestRaw host reader raw) lake
      (fun _ lake' => Grows lake lake' ∧ raw.recordId ∈ lake'.bronze ∧
        (raw.eventType = .candle → ∀ canonical, settledRaw host reader raw = .ok (some canonical) →
          ∃ other ∈ lake'.silver, other.key = canonical.key))
      fun _ _ => False := by
  obtain ⟨hgrows, hmem⟩ := grows_writeBronze lake raw.recordId
  unfold Effect.Ends ingestRaw
  by_cases hcandle : raw.eventType = .candle
  · simp only [hcandle, ne_eq, not_true_eq_false, if_false]
    unfold settledRaw
    cases hcanonical : canonicalOf host reader raw with
    | error e =>
      cases hreason : e.rejection with
      | none => exact absurd hreason (hcaught hcandle e hcanonical)
      | some reason =>
        simp only [hreason]
        refine ⟨hgrows, hmem, ?_⟩
        intro _ canonical hsettled
        simp at hsettled
    | ok canonical =>
      by_cases hsettled : canonical.isSettled = false
      · simp only [hsettled, if_true]
        refine ⟨hgrows, hmem, ?_⟩
        intro _ canonical hsome
        simp at hsome
      · simp only [hsettled]
        obtain ⟨hgrows', hstored⟩ := grows_writeSilver (lake.writeBronze raw.recordId).2 canonical
        refine ⟨hgrows.trans hgrows', hgrows'.1 hmem, ?_⟩
        intro _ other hother
        cases hother
        exact hstored
  · simp only [hcandle, ne_eq, not_false_eq_true, if_true]
    exact ⟨hgrows, hmem, fun h => h.elim⟩

theorem ingest_persists {market : Market} {provider : Provider} {eventType : EventType} {symbol : String}
    {payload : Payload} {receivedAt : DateTime} {raw : RawRecord}
    (hraw : RawRecord.create host reader market provider eventType symbol receivedAt payload = .ok raw)
    (hcaught : raw.eventType = .candle → ∀ e, canonicalOf host reader raw = .error e → e.rejection ≠ none) (lake : Lake) :
    Effect.Ends (ingest host reader market provider eventType symbol payload receivedAt) lake
      (fun _ lake' => Grows lake lake' ∧ raw.recordId ∈ lake'.bronze ∧
        (raw.eventType = .candle → ∀ canonical, settledRaw host reader raw = .ok (some canonical) →
          ∃ other ∈ lake'.silver, other.key = canonical.key))
      fun _ _ => False := by
  unfold ingest
  rw [hraw]
  exact Effect.Ends.bind (Effect.ends_of_eq_ok rfl (ingestRaw_persists hcaught lake))

theorem builders_remember (s : CycleState) (bar : CanonicalCandle) :
    (s.remember host cycle bar).builders = s.builders := by
  unfold CycleState.remember
  cases s.previousOf host cycle bar with
  | none => rfl
  | some previous =>
    dsimp only
    split_ifs
    · rfl
    · rfl

/-- A candle that a builder settles opens on a whole second that a `datetime` can be. -/
def Opens (candle : SettledCandle) : Prop := candle.openTime < datetimeEnd ∧ candle.openTime % 1000000 = 0

/-- `_persist_settled` returns, and the candle is persisted then. -/
theorem persistSettled_persists (hreader : reader.Documented) {candle : SettledCandle} (hopens : Opens candle)
    (emission : Emission) (hcandle : emission.candle = candle) (s : CycleState) :
    Effect.Ends (persistSettled host reader cycle emission.now emission.quote candle) s
      (fun _ s' => s'.builders = s.builders ∧ Grows s.lake s'.lake ∧ emission.PersistedIn host reader s'.lake)
      fun _ _ => False := by
  subst hcandle
  obtain ⟨raw, hraw, hpayload, hevent⟩ :
      ∃ raw, RawRecord.create host reader emission.quote.market emission.quote.provider .candle emission.quote.symbol
        (.aware emission.now) (candlePayload emission.quote.provider emission.candle) = .ok raw ∧
        raw.payload = candlePayload raw.provider emission.candle ∧ raw.eventType = .candle :=
    ⟨_, rfl, rfl, rfl⟩
  have hcaught : raw.eventType = .candle → ∀ e, canonicalOf host reader raw = .error e → e.rejection ≠ none :=
    fun _ e he => rejection_of_candlePayload hreader hpayload hopens.1 hopens.2 he
  refine Effect.Ends.bind ((ingest_persists hraw hcaught s.lake).focus.mono ?_ ?_)
  · rintro result s' ⟨lake, rfl, hgrows, hmem, hsilver⟩
    have hpersisted : emission.PersistedIn host reader lake := ⟨raw, hraw, hmem, hsilver hevent⟩
    cases hresult : result.canonical with
    | none => exact ⟨rfl, hgrows, hpersisted⟩
    | some canonical =>
      dsimp only
      split_ifs
      · exact ⟨rfl, hgrows, hpersisted⟩
      · refine ⟨builders_remember .., ?_, ?_⟩
        · rw [lake_remember]
          exact hgrows
        · rw [lake_remember]
          exact hpersisted
  · rintro e s' ⟨lake, -, hfalse⟩
    exact hfalse

/-- What the loop over the builders does for a quote, from a lake to a lake. -/
structure Emitted (host : Host) (reader : Reader) (quote : QuoteEvent) (builders : List CandleBuilder) (lake : Lake)
    (log : List Emission) (lake' : Lake) : Prop where
  /-- Each builder settles what it settles. -/
  settled : log.map (fun emission => (emission.seconds, emission.candle)) =
    builders.filterMap fun builder => (builder.add quote).1.map fun candle => (builder.seconds, candle)
  grows : Grows lake lake'
  persisted : ∀ emission ∈ log, emission.PersistedIn host reader lake'
  /-- What was settled before is persisted when a candle is settled. -/
  before : ∀ before emission after, log = before ++ emission :: after →
    Grows lake emission.lake ∧ ∀ earlier ∈ before, earlier.PersistedIn host reader emission.lake

theorem emitLoop_emitted (hreader : reader.Documented) (now : Instant) (quote : QuoteEvent)
    (builders done : List CandleBuilder) (s : CycleState) (hs : s.builders = done ++ builders)
    (hopens : ∀ builder ∈ builders, ∀ candle ∈ (builder.add quote).1, Opens candle) :
    ∃ log s', emitLoop host reader cycle now quote done builders s = (log, .ok ⟨⟩ s') ∧
      s'.builders = done ++ builders.map (fun builder => (builder.add quote).2) ∧
      Emitted host reader quote builders s.lake log s'.lake := by
  induction builders generalizing done s with
  | nil =>
    refine ⟨[], s, rfl, by simpa using hs, ⟨rfl, Grows.refl _, fun _ h => (nomatch h), ?_⟩⟩
    intro before emission after h
    simp at h
  | cons builder builders ih =>
    obtain ⟨hfirst, hrest⟩ := List.forall_mem_cons.mp hopens
    have hassoc : done ++ (builder.add quote).2 :: builders = done ++ [(builder.add quote).2] ++ builders := by simp
    rw [emitLoop]
    cases hcandle : (builder.add quote).1 with
    | none =>
      obtain ⟨log, s', hloop, hbuilders, hemitted⟩ := ih (done ++ [(builder.add quote).2])
        { s with builders := done ++ (builder.add quote).2 :: builders } hassoc hrest
      refine ⟨log, s', hloop, by simp [hbuilders], ⟨?_, hemitted.grows, hemitted.persisted, hemitted.before⟩⟩
      rw [List.filterMap_cons_none (by rw [hcandle]; rfl)]
      exact hemitted.settled
    | some candle =>
      obtain ⟨⟨⟩, s₁, hpersist, hsame, hgrows, hpersisted⟩ := (persistSettled_persists hreader (hfirst candle hcandle)
        ⟨builder.seconds, candle, quote, now, s.lake⟩ rfl
        { s with builders := done ++ (builder.add quote).2 :: builders }).exists_ok
      obtain ⟨log, s', hloop, hbuilders, hemitted⟩ :=
        ih (done ++ [(builder.add quote).2]) s₁ (hsame.trans hassoc) hrest
      dsimp only
      rw [hpersist]
      dsimp only
      rw [hloop]
      refine ⟨_, s', rfl, by simp [hbuilders], ⟨?_, hgrows.trans hemitted.grows, ?_, ?_⟩⟩
      · rw [List.filterMap_cons_some (by rw [hcandle]; rfl), List.map_cons, hemitted.settled]
      · simp only [List.forall_mem_cons]
        exact ⟨hpersisted.grows hemitted.grows, hemitted.persisted⟩
      · intro before emission after hsplit
        cases before with
        | nil =>
          obtain ⟨rfl, -⟩ := List.cons.inj hsplit
          exact ⟨Grows.refl _, fun _ h => (nomatch h)⟩
        | cons first before =>
          obtain ⟨rfl, hlater⟩ := List.cons.inj hsplit
          obtain ⟨hgrows', hbefore⟩ := hemitted.before before emission after hlater
          simp only [List.forall_mem_cons]
          exact ⟨hgrows.trans hgrows', hpersisted.grows hgrows', hbefore⟩

/-- What the cycle does for a quote. -/
theorem emitQuote_emitted (hreader : reader.Documented) (now : Instant) (quote : QuoteEvent) (s : CycleState)
    (hopens : ∀ builder ∈ s.builders, ∀ candle ∈ (builder.add quote).1, Opens candle) :
    (Effect.final (persistQuoteAndSettled host reader cycle now quote s)).builders =
        s.builders.map (fun builder => (builder.add quote).2) ∧
      Emitted host reader quote s.builders s.lake (emitQuote host reader cycle s quote now).1
        (Effect.final (persistQuoteAndSettled host reader cycle now quote s)).lake := by
  obtain ⟨raw, hraw, hevent⟩ : ∃ raw, RawRecord.create host reader quote.market quote.provider .quote quote.symbol
      (.aware now) (quotePayload quote) = .ok raw ∧ raw.eventType = .quote :=
    ⟨_, rfl, rfl⟩
  have hcaught : raw.eventType = .candle → ∀ e, canonicalOf host reader raw = .error e → e.rejection ≠ none := by
    rw [hevent]
    intro h
    cases h
  have hingest : ∃ result s₁, ingestInto host reader quote.market quote.provider .quote quote.symbol (quotePayload quote)
      (.aware now) s = .ok result s₁ ∧ s₁.builders = s.builders ∧ Grows s.lake s₁.lake := by
    obtain ⟨result, lake, hok, hgrows, -⟩ := (ingest_persists hraw hcaught s.lake).exists_ok
    exact ⟨result, _, Effect.focus_of_ok hok, rfl, hgrows⟩
  obtain ⟨result, s₁, hok, hbuilders, hgrows⟩ := hingest
  rw [← hbuilders] at hopens
  obtain ⟨log, s', hloop, hdone, hemitted⟩ := @emitLoop_emitted host reader cycle hreader now quote _ [] s₁ rfl hopens
  have hemit : emitQuote host reader cycle s quote now = (log, .ok ⟨⟩ s') := by
    unfold emitQuote
    rw [hok]
    exact hloop
  rw [← emitQuote_snd, hemit]
  refine ⟨?_, ⟨?_, hgrows.trans hemitted.grows, hemitted.persisted, ?_⟩⟩
  · rw [← hbuilders]
    exact hdone
  · rw [← hbuilders]
    exact hemitted.settled
  · intro before emission after hsplit
    obtain ⟨hgrows', hbefore⟩ := hemitted.before before emission after hsplit
    exact ⟨hgrows.trans hgrows', hbefore⟩

/-! ### Runs -/

/-- The builders of a cycle are new, and longer bars come after shorter ones. -/
theorem builders_sorted (cycle : RealtimeMarketCycle) :
    (∀ builder ∈ cycle.builders, builder = newBuilder builder.seconds builder.label ∧ 0 < builder.seconds) ∧
      cycle.builders.Pairwise fun a b => a.seconds < b.seconds := by
  constructor
  · intro builder hbuilder
    obtain ⟨entry, hentry, rfl⟩ := List.mem_map.mp hbuilder
    exact ⟨rfl, cycle.bars_pos entry ((List.mem_insertionSort _).mp hentry)⟩
  · apply List.pairwise_map.mpr
    exact pairwise_lt_insertionSort (List.pairwise_map.mp cycle.bars_nodup)

/-- What belongs to one of several items with different keys. -/
theorem filter_filterMap_key {α β : Type} {key : α → ℤ} {f : α → Option β} {as : List α} {a : α}
    (hne : as.Pairwise fun a b => key a ≠ key b) (ha : a ∈ as) :
    (as.filterMap fun a => (f a).map fun b => (key a, b)).filter (fun e => e.1 = key a) =
      (f a).toList.map fun b => (key a, b) := by
  have hout : ∀ as : List α, (∀ a' ∈ as, key a' ≠ key a) →
      (as.filterMap fun a => (f a).map fun b => (key a, b)).filter (fun e => e.1 = key a) = [] := by
    intro as h
    apply List.filter_eq_nil_iff.mpr
    intro e he
    obtain ⟨a', ha', hsome⟩ := List.mem_filterMap.mp he
    obtain ⟨b, -, rfl⟩ := Option.map_eq_some_iff.mp hsome
    simpa using h a' ha'
  induction as with
  | nil => cases ha
  | cons first as ih =>
    obtain ⟨hfirst, hne⟩ := List.pairwise_cons.mp hne
    have hcons : ((first :: as).filterMap fun a => (f a).map fun b => (key a, b)) =
        ((f first).toList.map fun b => (key first, b)) ++ as.filterMap fun a => (f a).map fun b => (key a, b) := by
      cases hf : f first with
      | none => rw [List.filterMap_cons_none (by rw [hf]; rfl)]; rfl
      | some b => rw [List.filterMap_cons_some (by rw [hf]; rfl)]; rfl
    rw [hcons, List.filter_append]
    rcases List.mem_cons.mp ha with rfl | ha
    · rw [hout as fun a' ha' => (hfirst a' ha').symm, List.append_nil]
      apply List.filter_eq_self.mpr
      intro e he
      obtain ⟨b, -, rfl⟩ := List.mem_map.mp he
      exact decide_eq_true rfl
    · rw [ih hne ha, List.filter_eq_nil_iff.mpr, List.nil_append]
      intro e he
      obtain ⟨b, -, rfl⟩ := List.mem_map.mp he
      simpa using hfirst a ha

/-- What holds of the candles that a cycle has settled. -/
structure Traced (host : Host) (reader : Reader) (cycle : RealtimeMarketCycle) (lake : Lake)
    (quotes : List (QuoteEvent × Instant)) (s : CycleState) : Prop where
  builders : s.builders = cycle.builders.map fun builder => candleBuilder.exec builder (quotes.map Prod.fst)
  persisted : ∀ emission ∈ emissions host reader cycle lake quotes, emission.PersistedIn host reader s.lake
  before : ∀ before emission after, emissions host reader cycle lake quotes = before ++ emission :: after →
    ∀ earlier ∈ before, earlier.PersistedIn host reader emission.lake
  settled : ∀ builder ∈ cycle.builders, ∀ symbol,
    ((emissions host reader cycle lake quotes).filter fun emission =>
      emission.seconds = builder.seconds ∧ emission.candle.symbol = symbol).map Emission.candle =
    Runtime.settled builder.seconds builder.label (quotes.map Prod.fst) symbol

theorem emissions_concat (lake : Lake) (quotes : List (QuoteEvent × Instant)) (quote : QuoteEvent) (now : Instant) :
    emissions host reader cycle lake (quotes ++ [(quote, now)]) = emissions host reader cycle lake quotes ++
      (emitQuote host reader cycle ((quoteCycle host reader cycle).exec { lake, builders := cycle.builders } quotes) quote
        now).1 := by
  unfold emissions
  rw [Machine.outputs_concat, List.flatten_append, List.flatten_singleton]
  rfl

/-- One more quote of a symbol. -/
theorem settled_of_builder {builder : CandleBuilder} (hbuilder : builder ∈ cycle.builders) (quotes : List QuoteEvent)
    (quote : QuoteEvent) (symbol : String) :
    settled builder.seconds builder.label (quotes ++ [quote]) symbol =
      settled builder.seconds builder.label quotes symbol ++
        ((candleBuilder.exec builder quotes).add quote).1.toList.filter fun candle => candle.symbol = symbol := by
  rw [settled_concat, ← ((builders_sorted cycle).1 builder hbuilder).1]

/-- What the builders of a cycle settle next opens when a `datetime` can be. -/
theorem Traced.opens {lake : Lake} {quotes : List (QuoteEvent × Instant)} {s : CycleState}
    (h : Traced host reader cycle lake quotes s) (htimes : ∀ input ∈ quotes, input.1.eventTime.astimezone < datetimeEnd)
    {quote : QuoteEvent} (htime : quote.eventTime.astimezone < datetimeEnd) :
    ∀ builder ∈ s.builders, ∀ candle ∈ (builder.add quote).1, Opens candle := by
  rw [h.builders]
  intro builder hbuilder candle hcandle
  obtain ⟨builder, hmem, rfl⟩ := List.mem_map.mp hbuilder
  have hbar : candle ∈ bars builder.seconds builder.label (quotes.map Prod.fst ++ [quote]) candle.symbol := by
    apply List.mem_append_left
    rw [settled_of_builder hmem]
    exact List.mem_append_right _ (List.mem_filter.mpr ⟨Option.mem_toList.mpr hcandle, decide_eq_true rfl⟩)
  refine ⟨lt_end_of_mem_bars ((builders_sorted cycle).1 builder hmem).2 ?_ hbar, whole_of_mem_bars hbar⟩
  simp only [List.forall_mem_append, List.forall_mem_singleton, List.forall_mem_map]
  exact ⟨htimes, htime⟩

/-- What is settled for a quote, by the builders that the cycle began with. -/
theorem Traced.pairs {lake lake' : Lake} {quotes : List (QuoteEvent × Instant)} {s : CycleState} {quote : QuoteEvent}
    {log : List Emission} (h : Traced host reader cycle lake quotes s)
    (hemitted : Emitted host reader quote s.builders s.lake log lake') :
    log.map (fun emission => (emission.seconds, emission.candle)) = cycle.builders.filterMap fun builder =>
      ((candleBuilder.exec builder (quotes.map Prod.fst)).add quote).1.map fun candle => (builder.seconds, candle) := by
  rw [hemitted.settled, h.builders, List.filterMap_map]
  apply List.filterMap_congr
  intro builder hbuilder
  have hsame := (exec_seconds_label builder.seconds builder.label (quotes.map Prod.fst)).1
  rw [← ((builders_sorted cycle).1 builder hbuilder).1] at hsame
  show Option.map (fun candle => ((candleBuilder.exec builder _).seconds, candle)) _ = _
  rw [hsame]

/-- What is settled for a quote is of longer and longer bars. -/
theorem Traced.increasing {lake lake' : Lake} {quotes : List (QuoteEvent × Instant)} {s : CycleState}
    {quote : QuoteEvent} {log : List Emission} (h : Traced host reader cycle lake quotes s)
    (hemitted : Emitted host reader quote s.builders s.lake log lake') :
    (log.Pairwise fun a b => a.seconds < b.seconds) ∧
      ∀ emission ∈ log, ∃ builder ∈ cycle.builders, builder.seconds = emission.seconds := by
  have hpairs := h.pairs hemitted
  constructor
  · have hsorted : (log.map fun emission => (emission.seconds, emission.candle)).Pairwise fun a b => a.1 < b.1 := by
      rw [hpairs]
      refine List.Pairwise.filterMap _ ?_ (builders_sorted cycle).2
      intro a b hlt e he e' he'
      obtain ⟨_, -, rfl⟩ := Option.map_eq_some_iff.mp he
      obtain ⟨_, -, rfl⟩ := Option.map_eq_some_iff.mp he'
      exact hlt
    rwa [List.pairwise_map] at hsorted
  · intro emission hemission
    have hmem := List.mem_map_of_mem (f := fun emission : Emission => (emission.seconds, emission.candle)) hemission
    rw [hpairs] at hmem
    obtain ⟨builder, hbuilder, hsome⟩ := List.mem_filterMap.mp hmem
    obtain ⟨_, -, heq⟩ := Option.map_eq_some_iff.mp hsome
    exact ⟨builder, hbuilder, congrArg Prod.fst heq⟩

/-- The state after a run. -/
theorem traced (hreader : reader.Documented) (lake : Lake) (quotes : List (QuoteEvent × Instant))
    (htimes : ∀ input ∈ quotes, input.1.eventTime.astimezone < datetimeEnd) :
    Traced host reader cycle lake quotes ((quoteCycle host reader cycle).exec { lake, builders := cycle.builders } quotes) := by
  obtain ⟨-, hsorted⟩ := builders_sorted cycle
  induction quotes using List.reverseRecOn with
  | nil =>
    refine ⟨?_, fun _ h => (nomatch h), ?_, fun builder hbuilder symbol => rfl⟩
    · exact (List.map_id _).symm
    · intro before emission after h
      simp [emissions, Machine.outputs] at h
  | append_singleton quotes input ih =>
    obtain ⟨quote, now⟩ := input
    simp only [List.forall_mem_append, List.forall_mem_singleton] at htimes
    have hprev := ih htimes.1
    have hconcat := @emissions_concat host reader cycle lake quotes quote now
    rw [Machine.exec_concat]
    generalize (quoteCycle host reader cycle).exec { lake, builders := cycle.builders } quotes = s at *
    obtain ⟨hbuilders, hemitted⟩ :=
      @emitQuote_emitted host reader cycle hreader now quote s (hprev.opens htimes.1 htimes.2)
    refine ⟨?_, ?_, ?_, ?_⟩
    · refine hbuilders.trans ?_
      rw [hprev.builders, List.map_map, List.map_append]
      apply List.map_congr_left
      intro builder _
      exact (candleBuilder.exec_concat builder (quotes.map Prod.fst) quote).symm
    · rw [hconcat]
      simp only [List.forall_mem_append]
      exact ⟨fun emission h => (hprev.persisted emission h).grows hemitted.grows, hemitted.persisted⟩
    · rw [hconcat]
      intro before emission after hsplit
      rcases List.append_eq_append_iff.mp hsplit with ⟨rest, rfl, hrest⟩ | ⟨rest, hlog, hrest⟩
      · obtain ⟨hgrows, hbefore⟩ := hemitted.before rest emission after hrest
        simp only [List.forall_mem_append]
        exact ⟨fun earlier h => (hprev.persisted earlier h).grows hgrows, hbefore⟩
      · cases rest with
        | nil =>
          rw [List.append_nil] at hlog
          obtain ⟨hgrows, -⟩ := hemitted.before [] emission after hrest.symm
          rw [← hlog]
          exact fun earlier h => (hprev.persisted earlier h).grows hgrows
        | cons first rest =>
          obtain ⟨rfl, -⟩ := List.cons.inj hrest
          exact hprev.before before emission rest hlog
    · intro builder hmem symbol
      rw [hconcat, List.filter_append, List.map_append, hprev.settled builder hmem, List.map_append, List.map_singleton,
        settled_of_builder hmem]
      congr 1
      have hpairs := hprev.pairs hemitted
      have hmine := congrArg (fun pairs => ((pairs.filter fun e : ℤ × SettledCandle => e.1 = builder.seconds).map
        Prod.snd).filter fun candle => candle.symbol = symbol) hpairs
      rw [filter_filterMap_key (hsorted.imp fun h => h.ne) hmem, List.filter_map, List.map_map, List.filter_map,
        List.filter_map, List.filter_filter, List.map_map] at hmine
      refine Eq.trans ?_ (hmine.trans ?_)
      · refine congrArg (List.map Emission.candle) (List.filter_congr ?_)
        intro emission _
        simp [Function.comp, Bool.and_comm]
      · exact congrArg _ (List.map_id _)

end Loop

/-! ### Longer bars over shorter ones -/

/-- A time, rounded down to a bar. -/
def barFloor (bar t : ℤ) : ℤ := t - t % (bar * 1000000)

theorem sub_emod_mono {b : ℤ} (hpos : 0 < b) : Monotone fun t : ℤ => t - t % b := by
  have hfloor : ∀ t : ℤ, t - t % b = b * (t / b) := fun t => by linarith [Int.mul_ediv_add_emod t b]
  intro t t' h
  simp only [hfloor]
  exact mul_le_mul_of_nonneg_left (Int.ediv_le_ediv hpos h) hpos.le

theorem barFloor_mono {bar : ℤ} (hpos : 0 < bar) : Monotone (barFloor bar) := sub_emod_mono (by omega)

/-- The time of a bar, rounded down to a longer bar. -/
theorem barFloor_opened {short long : ℤ} (hshort : 0 < short) (hlong : 0 < long) (hdvd : short ∣ long) (t : ℤ) :
    barFloor long ((t - t % short) * 1000000) = (t - t % long) * 1000000 := by
  have hmod : (t - t % short) % long = t % long - t % long % short := by
    have hsplit : t - t % short = t % long - t % long % short + long * (t / long) := by
      rw [Int.emod_emod_of_dvd t hdvd]
      linarith [Int.mul_ediv_add_emod t long]
    have hnonneg := Int.emod_nonneg t hlong.ne'
    have hlt := Int.emod_lt_of_pos t hlong
    have hle : 0 ≤ t % long % short ∧ t % long % short ≤ t % long := by
      have hquot := mul_nonneg hshort.le (Int.ediv_nonneg hnonneg hshort.le)
      exact ⟨Int.emod_nonneg _ hshort.ne', by linarith [Int.mul_ediv_add_emod (t % long) short]⟩
    rw [hsplit, Int.add_mul_emod_self_left]
    exact Int.emod_eq_of_lt (by omega) (by omega)
  unfold barFloor
  rw [mul_comm (t - t % short), mul_comm long, Int.mul_emod_mul_of_pos _ _ (by decide), hmod, Int.emod_emod_of_dvd t hdvd]
  ring

/-- The bars at which a time is rounded down to a bar. -/
theorem barFloor_eq_iff {bar opened : ℤ} (hpos : 0 < bar) (hopened : bar * 1000000 ∣ opened) (t : ℤ) :
    barFloor bar t = opened ↔ opened ≤ t ∧ t < opened + bar * 1000000 := by
  unfold barFloor
  have hnonneg := Int.emod_nonneg t (show bar * 1000000 ≠ 0 by omega)
  have hlt := Int.emod_lt_of_pos t (show 0 < bar * 1000000 by omega)
  constructor
  · intro h
    omega
  · rintro ⟨hle, hend⟩
    obtain ⟨n, rfl⟩ := hopened
    have hmod : t % (bar * 1000000) = t - bar * 1000000 * n := by
      have hrest : (t - bar * 1000000 * n) % (bar * 1000000) = t - bar * 1000000 * n :=
        Int.emod_eq_of_lt (by omega) (by omega)
      rwa [Int.sub_mul_emod_self_left] at hrest
    omega

/-- Longer bars are made of shorter ones. -/
def coarser {short long : ℤ} (hshort : 0 < short) (hlong : 0 < long) (hdvd : short ∣ long) (label label' : String) :
    Coarser (barWindows short label) (barWindows long label') where
  up := barFloor long
  mono := barFloor_mono hlong
  key_up _ := (barFloor_opened hshort hlong hdvd _).symm
  begin candle := { candle with timeframe := label', openTime := barFloor long candle.openTime }
  add whole candle :=
    { whole with
      high := max whole.high candle.high
      low := min whole.low candle.low
      close := candle.close
      volume := whole.volume + candle.volume }
  begin_start quote := by
    have hopen : barFloor long (openOf short label quote) = openOf long label' quote :=
      barFloor_opened hshort hlong hdvd _
    show SettledCandle.mk _ _ (barFloor long (openOf short label quote)) _ _ _ _ _ = _
    rw [hopen]
    rfl
  begin_extend _ _ := rfl
  add_start _ _ := rfl
  add_extend whole candle quote := by
    show SettledCandle.mk _ _ _ _ (max _ (max _ _)) (min _ (min _ _)) _ (_ + (_ + _)) = _
    rw [← max_assoc, ← min_assoc, ← add_assoc]
    rfl

/-- A roll-up has the fields that one is to have. -/
theorem rollsUp_of_roll {short long : ℤ} {hshort : 0 < short} {hlong : 0 < long} {hdvd : short ∣ long}
    {label label' : String} {parts : List SettledCandle} {whole : SettledCandle}
    (h : (coarser hshort hlong hdvd label label').roll parts = some whole) : RollsUp whole parts := by
  induction parts using List.reverseRecOn generalizing whole with
  | nil => cases h
  | append_singleton parts part ih =>
    cases parts with
    | nil =>
      obtain rfl := Option.some.inj h
      exact ⟨rfl, rfl, rfl, rfl, add_zero _⟩
    | cons first parts =>
      have hfold : (coarser hshort hlong hdvd label label').roll (first :: parts ++ [part]) =
          some ((coarser hshort hlong hdvd label label').add (parts.foldl (coarser hshort hlong hdvd label label').add
            ((coarser hshort hlong hdvd label label').begin first)) part) := by
        simp [Coarser.roll]
      rw [hfold] at h
      obtain rfl := Option.some.inj h
      have hbefore := ih rfl
      have hhigh := Option.some.inj hbefore.high
      have hlow := Option.some.inj hbefore.low
      refine ⟨hbefore.openPrice, ?_, ?_, ?_, ?_⟩
      · rw [List.map_append, List.map_cons, List.cons_append]
        refine congrArg some ?_
        rw [List.foldl_append, hhigh]
        rfl
      · rw [List.map_append, List.map_cons, List.cons_append]
        refine congrArg some ?_
        rw [List.foldl_append, hlow]
        rfl
      · rw [List.map_append]
        exact List.getLast?_concat
      · rw [List.map_append, List.sum_append, hbefore.volume]
        exact congrArg _ (add_zero _)

section Runs

variable {host : Host} {reader : Reader} {cycle : RealtimeMarketCycle}

/-- The bars of quotes in order are in order. -/
theorem opens_in_order {bar : ℤ} (hpos : 0 < bar) (label : String) {quotes : List QuoteEvent}
    (horder : quotes.Pairwise fun a b => a.symbol = b.symbol → a.eventTime.astimezone ≤ b.eventTime.astimezone)
    (symbol : String) :
    (ofSymbol quotes symbol).Pairwise fun a b => (barWindows bar label).key a ≤ (barWindows bar label).key b := by
  apply List.pairwise_filter.mpr
  refine horder.imp ?_
  intro a b hle ha hb
  have hsymbol : a.symbol = b.symbol := (of_decide_eq_true ha).trans (of_decide_eq_true hb).symm
  have hsecond : epochSecond a.eventTime.astimezone ≤ epochSecond b.eventTime.astimezone :=
    Int.tdiv_le_tdiv (by decide) (hle hsymbol)
  exact mul_le_mul_of_nonneg_right (sub_emod_mono hpos hsecond) (by decide)

/-- The shorter bars in a longer one, of all that is settled. -/
theorem Traced.inside {lake : Lake} {quotes : List (QuoteEvent × Instant)} {s : CycleState}
    (h : Traced host reader cycle lake quotes s) {builder : CandleBuilder} (hbuilder : builder ∈ cycle.builders)
    {whole : Emission} (hlong : 0 < whole.seconds) (hdvd : builder.seconds ∣ whole.seconds) (label : String)
    (hopened : whole.seconds * 1000000 ∣ whole.candle.openTime) :
    ((emissions host reader cycle lake quotes).filter fun part => part.seconds = builder.seconds ∧ part.Inside whole).map
        Emission.candle =
      (coarser ((builders_sorted cycle).1 builder hbuilder).2 hlong hdvd builder.label label).inside whole.candle.openTime
        ((barWindows builder.seconds builder.label).closed (ofSymbol (quotes.map Prod.fst) whole.candle.symbol)) := by
  rw [← settled_eq, ← h.settled builder hbuilder]
  unfold Coarser.inside
  rw [List.filter_map, List.filter_filter]
  refine congrArg _ (List.filter_congr ?_)
  intro part _
  have hiff := barFloor_eq_iff hlong hopened part.candle.openTime
  have hinside : part.Inside whole ↔
      part.candle.symbol = whole.candle.symbol ∧ barFloor whole.seconds part.candle.openTime = whole.candle.openTime :=
    and_congr_right fun _ => hiff.symm
  rw [Function.comp_apply, ← Bool.decide_and]
  apply decide_eq_decide.mpr
  rw [hinside]
  constructor
  · rintro ⟨hseconds, hsymbol, hfloor⟩
    exact ⟨hfloor, hseconds, hsymbol⟩
  · rintro ⟨hfloor, hseconds, hsymbol⟩
    exact ⟨hseconds, hsymbol, hfloor⟩

/-- The quote that settles a candle: what is settled later for the same quote is of longer bars. -/
theorem exists_settling (hreader : reader.Documented) {lake : Lake} {quotes : List (QuoteEvent × Instant)}
    (htimes : ∀ input ∈ quotes, input.1.eventTime.astimezone < datetimeEnd) {before after : List Emission}
    {whole : Emission} (hlog : emissions host reader cycle lake quotes = before ++ whole :: after) :
    ∃ quotes₁ quotes₂ later, quotes = quotes₁ ++ quotes₂ ∧
      emissions host reader cycle lake quotes₁ = before ++ whole :: later ∧
      (∀ emission ∈ later, whole.seconds < emission.seconds) ∧
      ∃ builder ∈ cycle.builders, builder.seconds = whole.seconds := by
  obtain ⟨quotes₁, ⟨quote, now⟩, quotes₂, os₁, os₂, rfl, hstep, hbefore⟩ := Machine.exists_of_flatten_outputs hlog
  simp only [List.forall_mem_append, List.forall_mem_cons] at htimes
  have hprev := @traced host reader cycle hreader lake quotes₁ htimes.1
  have hemitted := (@emitQuote_emitted host reader cycle hreader now quote _ (hprev.opens htimes.1 htimes.2.1)).2
  obtain ⟨hincreasing, hbuilders⟩ := hprev.increasing hemitted
  have hemit : (emitQuote host reader cycle ((quoteCycle host reader cycle).exec { lake, builders := cycle.builders } quotes₁)
      quote now).1 = os₁ ++ whole :: os₂ := hstep
  rw [hemit] at hincreasing hbuilders
  refine ⟨quotes₁ ++ [(quote, now)], quotes₂, os₂, by simp, ?_, ?_, hbuilders whole (by simp)⟩
  · rw [emissions_concat, hemit, hbefore, List.append_assoc]
    rfl
  · exact (List.pairwise_cons.mp (List.pairwise_append.mp hincreasing).2.1).1

end Runs

/-- **Longer bars are the roll-ups of shorter ones.** Over quotes in order for each symbol, a bar that is settled is the
roll-up of all shorter bars in it that are ever settled; these were settled before it, and are in the lake by then. -/
theorem rolled_up (host : Host) {reader : Reader} (hreader : reader.Documented) (cycle : RealtimeMarketCycle) (lake : Lake)
    {quotes : List (QuoteEvent × Instant)} (htimes : ∀ input ∈ quotes, input.1.eventTime.astimezone < datetimeEnd)
    (horder : (quotes.map Prod.fst).Pairwise fun a b =>
      a.symbol = b.symbol → a.eventTime.astimezone ≤ b.eventTime.astimezone)
    {before after : List Emission} {whole : Emission}
    (hlog : emissions host reader cycle lake quotes = before ++ whole :: after) {short : ℤ}
    (hshort : short ∈ cycle.barTimeframes.values) (hlt : short < whole.seconds) (hdvd : short ∣ whole.seconds) :
    RollsUp whole.candle ((before.filter fun part => part.seconds = short ∧ part.Inside whole).map Emission.candle) ∧
      (∀ part ∈ before, part.seconds = short → part.Inside whole → part.PersistedIn host reader whole.lake) ∧
      ∀ part ∈ whole :: after, part.seconds = short → ¬ part.Inside whole := by
  obtain ⟨quotes₁, quotes₂, later, rfl, hsettling, hlater, long, hlong, hseconds⟩ := exists_settling hreader htimes hlog
  have htraced := @traced host reader cycle hreader lake quotes₁ fun input h => htimes input (List.mem_append_left _ h)
  have hall := @traced host reader cycle hreader lake _ htimes
  obtain ⟨builder, hbuilder, rfl⟩ : ∃ builder ∈ cycle.builders, builder.seconds = short := by
    obtain ⟨entry, hentry, rfl⟩ := List.mem_map.mp hshort
    exact ⟨_, List.mem_map_of_mem ((List.mem_insertionSort _).mpr hentry), rfl⟩
  have hpos : 0 < whole.seconds := hseconds ▸ ((builders_sorted cycle).1 long hlong).2
  rw [List.map_append] at horder
  have hquotes := opens_in_order ((builders_sorted cycle).1 builder hbuilder).2 builder.label
    (List.pairwise_append.mp horder).1 whole.candle.symbol
  have hsettled : whole.candle ∈ settled whole.seconds long.label (quotes₁.map Prod.fst) whole.candle.symbol := by
    rw [← hseconds, ← htraced.settled long hlong, hsettling]
    apply List.mem_map_of_mem
    simp [hseconds]
  have hopened : whole.seconds * 1000000 ∣ whole.candle.openTime := by
    obtain ⟨quote, -, hopen⟩ := exists_openOf (List.mem_append_left _ hsettled)
    rw [← hopen]
    exact mul_dvd_mul_right (Int.dvd_self_sub_emod) _
  have hinside := htraced.inside hbuilder hpos hdvd long.label hopened
  rw [settled_eq] at hsettled
  have hsame : ofSymbol ((quotes₁ ++ quotes₂).map Prod.fst) whole.candle.symbol =
      ofSymbol (quotes₁.map Prod.fst) whole.candle.symbol ++ ofSymbol (quotes₂.map Prod.fst) whole.candle.symbol := by
    rw [List.map_append]
    exact List.filter_append ..
  have hnone : (whole :: later).filter (fun part => part.seconds = builder.seconds ∧ part.Inside whole) = [] := by
    apply List.filter_eq_nil_iff.mpr
    simp only [List.forall_mem_cons, decide_eq_true_eq]
    exact ⟨fun h => hlt.ne' h.1, fun part hpart h => (hlt.trans (hlater part hpart)).ne' h.1⟩
  rw [hsettling, List.filter_append, hnone, List.append_nil] at hinside
  have hinside' : ((before ++ whole :: after).filter fun part => part.seconds = builder.seconds ∧ part.Inside whole).map
      Emission.candle = (before.filter fun part => part.seconds = builder.seconds ∧ part.Inside whole).map
        Emission.candle := by
    rw [← hlog, hall.inside hbuilder hpos hdvd long.label hopened, hsame, hinside]
    exact Coarser.inside_closed_append _ hquotes hsettled
  rw [List.filter_append, List.map_append] at hinside'
  have hnone' := List.append_right_eq_self.mp hinside'
  refine ⟨?_, ?_, ?_⟩
  · rw [hinside]
    exact rollsUp_of_roll (Coarser.rolled _ hquotes hsettled)
  · intro part hpart _ _
    exact hall.before before whole after hlog part hpart
  · intro part hpart hshort hinside
    have hmem := List.filter_eq_nil_iff.mp (List.map_eq_nil_iff.mp hnone') part hpart
    simp [hshort, hinside] at hmem

namespace Sample

/-- A cycle with bars of one minute and of two. -/
def twoBars : RealtimeMarketCycle where
  market := .crypto
  barTimeframes := (Dict.empty.set "2m" 120).set "1m" 60
  restores := false
  bars_pos := by decide
  bars_nodup := by decide

/-- Quotes of three minutes. -/
def minutes : List (QuoteEvent × Instant) :=
  [(10, 100), (50, 102), (70, 99), (130, 101)].map fun (second, price) =>
    (btcQuote (NanoDelta.seconds second) price, NanoDelta.seconds second)

end Sample

/-- The quote of the third minute settles the second minute, and then the first two as one bar. -/
theorem minutes_rolled_up :
    (emissions .cpython .plain Sample.twoBars {} Sample.minutes).map (fun emission =>
      (emission.seconds, emission.candle.openPrice, emission.candle.high, emission.candle.low, emission.candle.close)) =
        [(60, 100, 102, 100, 102), (60, 99, 99, 99, 99), (120, 100, 102, 99, 99)] ∧
      ∀ before whole after, emissions .cpython .plain Sample.twoBars {} Sample.minutes = before ++ whole :: after →
        whole.seconds = 120 → RollsUp whole.candle ((before.filter fun part =>
          part.seconds = 60 ∧ part.Inside whole).map Emission.candle) := by
  refine ⟨by rw [← Host.evaluated_eq]; decide +kernel, ?_⟩
  intro before whole after hlog hseconds
  have hlt : (60 : ℤ) < whole.seconds := by omega
  have hdvd : (60 : ℤ) ∣ whole.seconds := by omega
  exact (rolled_up .cpython documented_plain Sample.twoBars {} (by decide) (by decide) hlog (by decide) hlt hdvd).1

end NanoDelta.Runtime
