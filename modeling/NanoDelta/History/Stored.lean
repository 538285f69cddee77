import NanoDelta.History.Engine

/-!
# What a backfill stores

What a run of `BackfillEngine.sync` offers to Silver is a function of the responses of the
providers: the settled candle of every row that it reads, whatever its time. A run reads a
provider up to the first request or row that raises, and the next provider only if this one raised
or had no settled candle of the job.

* `sync_stores`: Silver after a run is Silver before it with the offered candles written to it.
* `sync_stores_settled_iff`: when a run stores no candle that is still forming.
-/

namespace NanoDelta.History

open Library Providers

/-! ### Offers -/

/-- The candles that a part of a run offers to Silver, and what it raises after them. -/
structure Offer where
  candles : List CanonicalCandle := []
  raised : Option PyError := none

/-- One part of a run and then another one. -/
def Offer.next (a b : Offer) : Offer :=
  match a.raised with
  | none => ⟨a.candles ++ b.candles, b.raised⟩
  | some _ => a

section Offers

variable (host : Host) (reader : Reader) (engine : BackfillEngine) (job : HistoryJob) (now : Instant)

section Provider

variable (provider : Provider) (client : HistoricalClient) (providerSymbol : String) (start stop : Instant)

/-- The offer of a row. -/
def rowOffer (payload : Payload) : Offer :=
  match settledOf host reader job.market provider providerSymbol payload (.aware now) with
  | .ok candle => { candles := candle.toList }
  | .error e => { raised := some e }

/-- The offer of the rows of a response. -/
def rowsOffer : List Payload → Offer
  | [] => {}
  | payload :: rows => (rowOffer host reader job now provider providerSymbol payload).next (rowsOffer rows)

/-- The offer of the responses to the requests of a number of windows. -/
def windowsOffer : ℕ → Instant → Offer
  | 0, _ => {}
  | n + 1, cursor =>
    if cursor ≤ stop then
      match job.response client providerSymbol stop cursor with
      | .ok rows =>
        (rowsOffer host reader job now provider providerSymbol rows).next (windowsOffer n (job.windowEnd stop cursor))
      | .error e => { raised := some e }
    else {}

end Provider

/-- The candles that the providers of a route offer. -/
def providersOffer (watermark : Provider → Option Watermark) (stop : Instant) : List Provider → List CanonicalCandle
  | [] => []
  | provider :: providers =>
    match engine.clientOf job provider with
    | .error _ => providersOffer watermark stop providers
    | .ok (client, providerSymbol) =>
      let start := job.start stop (watermark provider)
      let offer :=
        windowsOffer host reader job now provider client providerSymbol stop (job.windows start stop) start
      if offer.raised = some .killed ∨ offer.raised = none ∧ ∃ candle ∈ offer.candles, job.Matches start stop candle then
        offer.candles
      else offer.candles ++ providersOffer watermark stop providers

/-- The candles that a run offers to Silver: the settled candles of the rows that it reads. -/
def offered (now : DateTime) (w : World) : List CanonicalCandle :=
  match engine.plan job now with
  | .error _ => []
  | .ok (now, stop, route) => providersOffer host reader engine job now (fun provider => w.watermark job provider) stop route

end Offers

/-! ### A run writes what it offers -/

section Wrote

variable {σ : Type} [HistoryStore σ]

/-- The stores have the same watermarks. -/
def SameWatermarks (w w' : World σ) : Prop :=
  ∀ market provider symbol timeframe, HistoryStore.watermark w'.state market provider symbol timeframe =
    HistoryStore.watermark w.state market provider symbol timeframe

theorem SameWatermarks.trans {w w₁ w₂ : World σ} (h₁ : SameWatermarks w w₁) (h₂ : SameWatermarks w₁ w₂) :
    SameWatermarks w w₂ :=
  fun market provider symbol timeframe => (h₂ market provider symbol timeframe).trans (h₁ market provider symbol timeframe)

/-- The world after candles were written to Silver: the watermarks are the same. -/
def Wrote (candles : List CanonicalCandle) (w w' : World σ) : Prop :=
  w'.lake.silver = candles.foldl insertSilver w.lake.silver ∧ SameWatermarks w w'

theorem Wrote.append {cs ds : List CanonicalCandle} {w w₁ w₂ : World σ} (h₁ : Wrote cs w w₁) (h₂ : Wrote ds w₁ w₂) :
    Wrote (cs ++ ds) w w₂ := by
  refine ⟨?_, h₁.2.trans h₂.2⟩
  rw [h₂.1, h₁.1, List.foldl_append]

end Wrote

/-- A part of a run that reads rows: it writes its offer, and notes the opens of the candles of the job in it. -/
def Follows {σ : Type} [HistoryStore σ] (job : HistoryJob) (start stop : Instant)
    (x : Tally → EStateM PyError (World σ) Tally) (offer : Offer) : Prop :=
  ∀ tally w, Effect.Ends (x tally) w
    (fun tally' w' => offer.raised = none ∧ Wrote offer.candles w w' ∧ tally'.settledOpens =
      tally.settledOpens ++ (offer.candles.filter fun c => job.Matches start stop c).map CanonicalCandle.openTime)
    fun e w' => offer.raised = some e ∧ Wrote offer.candles w w'

section Follows

variable {σ : Type} [HistoryStore σ]
variable {host : Host} {reader : Reader} {engine : BackfillEngine} {job : HistoryJob} {now : Instant}
  {provider : Provider} {client : HistoricalClient} {providerSymbol : String} {start stop : Instant}

theorem follows_pure : Follows (σ := σ) job start stop pure {} := by
  intro tally w
  exact ⟨rfl, ⟨rfl, fun _ _ _ _ => rfl⟩, (List.append_nil _).symm⟩

theorem follows_error (e : PyError) : Follows (σ := σ) job start stop (fun _ => throw e) { raised := some e } := by
  intro tally w
  exact ⟨rfl, rfl, fun _ _ _ _ => rfl⟩

theorem Follows.next {x y : Tally → EStateM PyError (World σ) Tally} {a b : Offer} (hx : Follows job start stop x a)
    (hy : Follows job start stop y b) : Follows job start stop (fun tally => x tally >>= y) (a.next b) := by
  intro tally w
  refine Effect.Ends.bind ((hx tally w).mono ?_ ?_)
  · rintro tally₁ w₁ ⟨hnone, hwrote, hopens⟩
    have hnext : a.next b = ⟨a.candles ++ b.candles, b.raised⟩ := by
      unfold Offer.next
      rw [hnone]
    rw [hnext]
    refine (hy tally₁ w₁).mono ?_ ?_
    · rintro tally₂ w₂ ⟨hnone', hwrote', hopens'⟩
      refine ⟨hnone', hwrote.append hwrote', ?_⟩
      rw [hopens', hopens, List.filter_append, List.map_append, List.append_assoc]
    · rintro e w₂ ⟨hraised, hwrote'⟩
      exact ⟨hraised, hwrote.append hwrote'⟩
  · rintro e w₁ ⟨hraised, hwrote⟩
    have hnext : a.next b = a := by
      unfold Offer.next
      rw [hraised]
    rw [hnext]
    exact ⟨hraised, hwrote⟩

variable [LawfulHistoryStore σ]

/-- A row is stored before its time is looked at. -/
theorem ingestRow_follows (payload : Payload) :
    Follows (σ := σ) job start stop (fun tally => ingestRow host reader job now provider providerSymbol start stop tally payload)
      (rowOffer host reader job now provider providerSymbol payload) := by
  intro tally w
  refine Effect.Ends.bind ((ingest_ends w.lake).focus.mono ?_ ?_)
  · rintro result w' ⟨lake, rfl, candle, hsettled, hsilver, hcandle, -⟩
    have hoffer : rowOffer host reader job now provider providerSymbol payload = { candles := candle.toList } := by
      unfold rowOffer
      rw [hsettled]
    rw [hoffer, hcandle]
    cases candle with
    | none => exact ⟨rfl, ⟨hsilver, fun _ _ _ _ => rfl⟩, (List.append_nil _).symm⟩
    | some candle =>
      by_cases hmatches : job.Matches start stop candle
      · simp only [if_pos hmatches]
        refine ⟨trivial, ⟨hsilver, fun _ _ _ _ => LawfulHistoryStore.watermark_recordOpen .. ⟩, ?_⟩
        simp [hmatches]
      · simp only [if_neg hmatches]
        refine ⟨trivial, ⟨hsilver, fun _ _ _ _ => rfl⟩, ?_⟩
        simp [hmatches]
  · rintro e w' ⟨lake, rfl, hsettled, hsilver⟩
    have hoffer : rowOffer host reader job now provider providerSymbol payload = { raised := some e } := by
      unfold rowOffer
      rw [hsettled]
    rw [hoffer]
    exact ⟨rfl, hsilver, fun _ _ _ _ => rfl⟩

theorem rows_follow (rows : List Payload) :
    Follows (σ := σ) job start stop
      (fun tally => rows.foldlM (ingestRow host reader job now provider providerSymbol start stop) tally)
      (rowsOffer host reader job now provider providerSymbol rows) := by
  induction rows with
  | nil => exact follows_pure
  | cons payload rows ih => exact (ingestRow_follows payload).next ih

theorem fetchWindows_follows (n : ℕ) (cursor : Instant) :
    Follows (σ := σ) job start stop (fetchWindows host reader job now provider client providerSymbol start stop n cursor)
      (windowsOffer host reader job now provider client providerSymbol stop n cursor) := by
  induction n generalizing cursor with
  | zero => exact follows_pure
  | succ n ih =>
    intro tally
    rw [fetchWindows, windowsOffer]
    split_ifs with hcursor
    · cases hresponse : job.response client providerSymbol stop cursor with
      | error e => exact follows_error e tally
      | ok rows =>
        exact ((rows_follow rows).next (ih (job.windowEnd stop cursor)))
          { tally with rowsReceived := tally.rowsReceived + rows.length }
    · exact follows_pure tally

/-- What the engine does with a provider: it writes the offer of the provider, and it returns a run exactly if
nothing raised and there is a settled candle of the job in the offer. -/
theorem syncProvider_ends (run : HistoryRun) (finishedAt : Instant) (w : World σ) :
    let offer := windowsOffer host reader job now provider client providerSymbol stop (job.windows start stop) start
    Effect.Ends (syncProvider host reader job now provider client providerSymbol start stop run finishedAt) w
      (fun attempt w' => offer.raised = none ∧ w'.lake.silver = offer.candles.foldl insertSilver w.lake.silver ∧
        match attempt with
        | .ok _ => ∃ candle ∈ offer.candles, job.Matches start stop candle
        | .error _ => (¬ ∃ candle ∈ offer.candles, job.Matches start stop candle) ∧
          SameWatermarks w w')
      fun e w' => offer.raised = some e ∧ Wrote offer.candles w w' := by
  intro offer
  refine Effect.Ends.bind ((fetchWindows_follows (job.windows start stop) start {} w).mono ?_ fun _ _ h => h)
  rintro tally w' ⟨hnone, hwrote, hopens⟩
  rw [List.nil_append] at hopens
  cases hsettled : tally.settledOpens with
  | nil =>
    refine ⟨hnone, hwrote.1, ?_, hwrote.2⟩
    rintro ⟨candle, hcandle, hmatches⟩
    rw [hsettled] at hopens
    have hmem : candle ∈ offer.candles.filter fun c => job.Matches start stop c :=
      List.mem_filter.mpr ⟨hcandle, decide_eq_true hmatches⟩
    rw [List.map_eq_nil_iff.mp hopens.symm] at hmem
    cases hmem
  | cons opened opens =>
    refine ⟨hnone, hwrote.1, ?_⟩
    rw [hsettled] at hopens
    have hopened : opened ∈ (offer.candles.filter fun c => job.Matches start stop c).map CanonicalCandle.openTime :=
      hopens ▸ List.mem_cons_self ..
    obtain ⟨candle, hcandle, -⟩ := List.mem_map.mp hopened
    exact ⟨candle, (List.mem_filter.mp hcandle).1, of_decide_eq_true (List.mem_filter.mp hcandle).2⟩

theorem syncProviders_ends (run : HistoryRun) (finishedAt : Instant) {watermark : Provider → Option Watermark}
    (providers : List Provider) (errors : List String) (w : World σ)
    (hw : ∀ provider, w.watermark job provider = watermark provider) :
    let P := fun w' : World σ => w'.lake.silver =
      (providersOffer host reader engine job now watermark stop providers).foldl insertSilver w.lake.silver
    Effect.Ends (syncProviders host reader engine job now stop run finishedAt providers errors) w (fun _ => P)
      fun _ => P := by
  induction providers generalizing errors w with
  | nil => exact rfl
  | cons provider providers ih =>
    rw [syncProviders, providersOffer]
    cases hclient : engine.clientOf job provider with
    | error text => exact ih _ w hw
    | ok found =>
      obtain ⟨client, providerSymbol⟩ := found
      dsimp only
      rw [← hw provider]
      refine Effect.Ends.bind (Effect.ends_of_eq_ok (Effect.get_apply w) ?_)
      refine Effect.Ends.bind (Effect.Ends.tryCatch ((syncProvider_ends run finishedAt w).mono ?_ ?_))
      · rintro (text | run') w' ⟨hnone, hsilver, hmatch⟩
        · rw [if_neg (by simp [hnone, hmatch.1]), List.foldl_append, ← hsilver]
          exact ih _ w' fun provider' => (hmatch.2 _ provider' _ _).trans (hw provider')
        · rw [if_pos (Or.inr ⟨hnone, hmatch⟩)]
          exact hsilver
      · rintro e w' ⟨hraised, hsilver, hwatermarks⟩
        by_cases hkilled : e = .killed
        · rw [if_pos (Or.inl (hkilled ▸ hraised)), if_pos hkilled]
          exact hsilver
        · rw [if_neg hkilled, if_neg (by simp [hraised, hkilled]), List.foldl_append, ← hsilver]
          exact ih _ w' fun provider' => (hwatermarks _ provider' _ _).trans (hw provider')

/-- Silver after a run is Silver before it, with the candles that the run offers written to it. -/
theorem sync_stores (now : DateTime) (startedAt finishedAt : Instant) (w : World) :
    (Effect.final (sync host reader engine job now startedAt finishedAt w)).lake.silver =
      (offered host reader engine job now w).foldl insertSilver w.lake.silver := by
  let P := fun w' : World => w'.lake.silver =
    (offered host reader engine job now w).foldl insertSilver w.lake.silver
  suffices hends : Effect.Ends (sync host reader engine job now startedAt finishedAt) w (fun _ => P) fun _ => P from
    hends.final
  unfold P
  unfold sync offered
  refine Effect.Ends.bind ?_
  cases engine.plan job now with
  | error e => exact Eq.refl w.lake.silver
  | ok plan =>
    obtain ⟨now, stop, route⟩ := plan
    refine Effect.Ends.bind (Effect.ends_of_eq_ok (Effect.modify_apply _ w) ?_)
    exact syncProviders_ends _ finishedAt route [] _ fun _ => rfl

end Follows

/-! ### Bars that are still forming -/

/-- A bar that opens after the last settled open. -/
def Forming (now : DateTime) (timeframe : String) (opened : Instant) : Prop :=
  ∃ settled, lastSettledOpen now timeframe = .ok settled ∧ settled < opened

/-- **Settled candles.** A run stores no candle that opens after the last settled open exactly if no row that it reads
is such a candle under a key that Silver does not have. -/
theorem sync_stores_settled_iff (host : Host) (reader : Reader) (engine : BackfillEngine) (job : HistoryJob)
    (now : DateTime) (startedAt finishedAt : Instant) (w : World) :
    (∀ candle ∈ (Effect.final (sync host reader engine job now startedAt finishedAt w)).lake.silver,
        candle ∉ w.lake.silver → ¬ Forming now job.timeframe candle.openTime) ↔
      ∀ candle ∈ offered host reader engine job now w,
        (∀ other ∈ w.lake.silver, other.key ≠ candle.key) → ¬ Forming now job.timeframe candle.openTime := by
  rw [sync_stores]
  exact forall_new_iff (P := fun key => ¬ Forming now job.timeframe key.2.2.2)

namespace Sample

/-- 04:32 of Friday, 2026-08-14, in UTC: the bar of 04:25 is settled, that of 04:30 is forming. -/
def now : Instant := seconds 1786681920

/-- Dhan, with five-minute bars that open at the given seconds. -/
def dhan (opens : List ℤ) : DhanClient where
  securityId := none
  securityIds := Dict.empty.set "RELIANCE" "2885"
  transport _ :=
    let constant (q : ℚ) : Json := .arr (opens.map fun _ => .num q)
    .ok (.obj [("timestamp", .arr (opens.map fun opened => .num opened)), ("open", constant 100), ("high", constant 101),
      ("low", constant 99), ("close", constant 100), ("volume", constant 10)])

/-- The registry with the route of the NSE history. -/
def registry : ProviderRegistry where
  routes := Dict.empty.set (.nse, .historicalCandles) [.dhan, .truedata]
  nodup := by decide

/-- An engine with that client. -/
def engine (opens : List ℤ) : BackfillEngine where
  registry := registry
  clients := Dict.empty.set .dhan ((dhan opens).historical .plain)

theorem noWindow : ∀ w ∈ (none : Option (Instant × Instant)), w.1 < w.2 := by simp

/-- One day of five-minute bars. -/
def job : HistoryJob where
  market := .nse
  symbol := "RELIANCE"
  timeframe := "5m"
  providerSymbols := Dict.empty.set .dhan "RELIANCE"
  targetDays := 1
  step := seconds 300
  step_eq := by decide +kernel
  settings := by decide
  window_lt := noWindow

end Sample

/-- Bars up to 04:25: none of them is forming, and none is stored that is. -/
theorem settled_bars_are_stored :
    ∀ candle ∈ (Effect.final (sync .cpython .plain (Sample.engine [1786681200, 1786681500]) Sample.job
        (.aware Sample.now) Sample.now Sample.now ({} : World))).lake.silver,
      candle ∉ ([] : List CanonicalCandle) → ¬ Forming (.aware Sample.now) "5m" candle.openTime := by
  refine (sync_stores_settled_iff .cpython .plain (Sample.engine [1786681200, 1786681500]) Sample.job
    (.aware Sample.now) Sample.now Sample.now {}).mpr ?_
  have hopens : (offered .cpython .plain (Sample.engine [1786681200, 1786681500]) Sample.job (.aware Sample.now) {}).map
      CanonicalCandle.openTime = [seconds 1786681200, seconds 1786681500] := by
    rw [← Host.evaluated_eq]
    decide +kernel
  have hsettled : lastSettledOpen (.aware Sample.now) "5m" = .ok (seconds 1786681500) := by decide +kernel
  rintro candle hcandle - ⟨settled, hlast, hlt⟩
  cases hsettled.symm.trans hlast
  have hmem := List.mem_map_of_mem (f := CanonicalCandle.openTime) hcandle
  rw [hopens] at hmem
  have hall : ∀ t ∈ [seconds 1786681200, seconds 1786681500], t ≤ seconds 1786681500 := by decide
  exact absurd hlt (not_lt.mpr (hall _ hmem))

/-- Dhan answers at 04:32 with the bar of 04:30: it is stored as settled. -/
theorem forming_bar_is_stored :
    ∃ candle ∈ (Effect.final (sync .cpython .plain (Sample.engine [1786681500, 1786681800]) Sample.job
        (.aware Sample.now) Sample.now Sample.now ({} : World))).lake.silver,
      candle ∉ ([] : List CanonicalCandle) ∧ candle.isSettled = true ∧
        Forming (.aware Sample.now) Sample.job.timeframe candle.openTime := by
  have hbars : (Effect.final (sync .cpython .plain (Sample.engine [1786681500, 1786681800]) Sample.job
      (.aware Sample.now) Sample.now Sample.now ({} : World))).lake.silver.map (fun c => (c.isSettled, c.openTime)) =
      [(true, seconds 1786681500), (true, seconds 1786681800)] := by
    rw [← Host.evaluated_eq]
    decide +kernel
  have hmem : (true, seconds 1786681800) ∈ (Effect.final (sync .cpython .plain (Sample.engine [1786681500, 1786681800])
      Sample.job (.aware Sample.now) Sample.now Sample.now ({} : World))).lake.silver.map (fun c => (c.isSettled, c.openTime)) := by
    rw [hbars]
    decide
  obtain ⟨candle, hcandle, heq⟩ := List.mem_map.mp hmem
  obtain ⟨hsettled, hopened⟩ := Prod.mk.inj heq
  refine ⟨candle, hcandle, List.not_mem_nil, hsettled, seconds 1786681500, by decide +kernel, ?_⟩
  rw [hopened]
  decide

end NanoDelta.History
