import NanoDelta.Runtime.PaperSession
import NanoDelta.Storage
import NanoDelta.Strategies.Runtime

/-!
# The rows of the Gold layer and their readers

`PostgresStore` keeps the values of a feature record as one JSON object (`goldInsert`). Two modules read the rows: the
paper session, for the cycles that it retries (`retryableFeatures`), and the evaluator of strategies (`loadContexts`). The
order of the keys in a JSON object is not modelled, and texts are ordered by their characters.

* `decoded_iff`: the series whose rows both of them read back.
* `null_volume_change`: a candle without volume.
-/

namespace NanoDelta

open Library Strategies

/-! ### Rows -/

/-- A row of `gold.feature_snapshots`. -/
structure GoldRow where
  recordId : String
  candleRecordId : String
  symbol : String
  timeframe : String
  eventTime : Instant
  featureVersion : ℕ
  features : Dict String Json

/-- `FeatureRecord.to_dict`. -/
def FeatureRecord.toDict (feature : FeatureRecord) : Dict String Json where
  entries :=
    [("record_id", .str feature.recordId), ("candle_record_id", .str feature.candleRecordId),
      ("market", .str feature.market.value), ("symbol", .str feature.symbol), ("timeframe", .str feature.timeframe),
      ("event_time", .str (isoformat feature.eventTime.astimezone)), ("close", .num feature.close),
      ("return_1", .num feature.return1), ("range_pct", .num feature.rangePct), ("body_pct", .num feature.bodyPct),
      ("volume_change", feature.volumeChange.elim .null .num), ("feature_version", .num feature.featureVersion)]
  nodup := by simp

/-- The keys that are columns of their own. -/
def goldColumns : List String :=
  ["record_id", "candle_record_id", "market", "symbol", "timeframe", "event_time", "feature_version"]

/-- `_gold_insert`: the row of a record. -/
def goldInsert (recordId : String) (feature : FeatureRecord) : GoldRow where
  recordId := recordId
  candleRecordId := feature.candleRecordId
  symbol := feature.symbol
  timeframe := feature.timeframe
  eventTime := feature.eventTime.astimezone
  featureVersion := feature.featureVersion
  features :=
    ⟨feature.toDict.entries.filter fun e => e.1 ∉ goldColumns, feature.toDict.nodup.sublist (List.filter_sublist.map _)⟩

/-- The row of a record, as `build_gold` writes it. -/
def FeatureRecord.goldRow (feature : FeatureRecord) : GoldRow := goldInsert feature.recordId feature

/-- The records in the Gold table of a market. -/
def goldFeatures (tables : Dict RowKey LayerRecord) (market : Market) : List FeatureRecord :=
  tables.entries.filterMap fun
    | (.gold m _ _, .gold feature) => if m = market then some feature else none
    | _ => none

/-- The rows in the Gold table of a market. -/
def goldRows (tables : Dict RowKey LayerRecord) (market : Market) : List GoldRow :=
  (goldFeatures tables market).map FeatureRecord.goldRow

/-! ### The paper session -/

section Readers

variable (reader : Reader)

/-- `float(values[key])`. -/
def GoldRow.float (row : GoldRow) (key : String) : Except PyError ℚ :=
  match row.features.get? key with
  | none => .error (.keyError key)
  | some value => reader.number value

/-- The record of a row. -/
def GoldRow.record (row : GoldRow) : Except PyError FeatureRecord := do
  let close ← row.float reader "close"
  let return1 ← row.float reader "return_1"
  let rangePct ← row.float reader "range_pct"
  let bodyPct ← row.float reader "body_pct"
  let volumeChange ← match row.features.get? "volume_change" with
    | none | some .null => .ok none
    | some value => some <$> reader.number value
  return { recordId := row.recordId, candleRecordId := row.candleRecordId, market := .nse, symbol := row.symbol,
           timeframe := row.timeframe, eventTime := .aware row.eventTime, close, return1, rangePct, bodyPct, volumeChange,
           featureVersion := row.featureVersion }

/-- A cycle that failed, or whose lease has run out. -/
def Runtime.SessionCycleRow.retryable (asOf : Instant) (cycle : Runtime.SessionCycleRow) : Bool :=
  cycle.state = .failed || (cycle.state = .running && cycle.lockedUntil.any fun lockedUntil => lockedUntil ≤ asOf)

/-- The query of `retryable_features`: rows with the cycles that name them, in the order of the cycles. -/
def retryable {α : Type} (recordId : α → String) (cycles : List Runtime.SessionCycleRow) (rows : List α) (asOf : Instant)
    (limit : ℕ) : List (String × α) :=
  let due := ((cycles.filter (·.retryable asOf)).insertionSort fun a b =>
    toLex (a.eventTime, a.sessionCycleId) ≤ toLex (b.eventTime, b.sessionCycleId)).take limit
  let joined := due.flatMap fun cycle => cycle.featureRecordIds.flatMap fun id =>
    (rows.filter fun row => recordId row = id).map fun row => (cycle, row)
  (joined.insertionSort fun a b => toLex (a.1.eventTime, toLex (a.1.sessionCycleId, recordId a.2)) ≤
    toLex (b.1.eventTime, toLex (b.1.sessionCycleId, recordId b.2))).map fun e => (e.1.sessionCycleId, e.2)

/-- The rows of each cycle. -/
def grouped {α : Type} (rows : List (String × α)) : List (List α) :=
  (groupBy Prod.fst rows).values.map fun group => group.map Prod.snd

/-- `PostgresPaperSessionStore.retryable_features`. -/
def retryableFeatures (cycles : List Runtime.SessionCycleRow) (rows : List GoldRow) (asOf : Instant) (limit : ℤ) :
    Except PyError (List (List FeatureRecord)) :=
  if limit ≤ 0 then .error (.valueError "paper session retry limit must be positive")
  else do
    let decoded ← (retryable GoldRow.recordId cycles rows asOf limit.toNat).mapM fun e => (e.1, ·) <$> e.2.record reader
    return grouped decoded

/-! ### The evaluator of strategies -/

/-- The query of `_load_contexts`: the rows of a timeframe and version, by symbol and time. -/
def snapshots (identity : StrategyIdentity) (rows : List GoldRow) : List GoldRow :=
  (rows.filter fun row => row.timeframe = identity.timeframe && row.featureVersion = identity.featureSetVersion).insertionSort
    fun a b => toLex (a.symbol, a.eventTime) ≤ toLex (b.symbol, b.eventTime)

/-- `_context`. -/
def GoldRow.context (market : Market) (horizon : String) (row : GoldRow) : Except PyError StrategyContext := do
  let values ← row.features.entries.mapM fun e => (e.1, ·) <$> reader.number e.2
  StrategyContext.create market row.symbol none row.timeframe horizon row.featureVersion (.aware row.eventTime)
    [row.recordId] (values.foldl (fun d e => d.set e.1 e.2) .empty) true true "TRADEABLE" {}

/-- `PostgresStrategyEvaluator._load_contexts`. -/
def loadContexts (identity : StrategyIdentity) (rows : List GoldRow) : Except PyError (List StrategyContext) :=
  (snapshots identity rows).mapM (GoldRow.context reader identity.market identity.tradeHorizon)

end Readers

/-! ### Reading back -/

/-- The values of a record, by their names. -/
def FeatureRecord.value (feature : FeatureRecord) (name : String) : Option ℚ :=
  if name = "close" then some feature.close
  else if name = "return_1" then some feature.return1
  else if name = "range_pct" then some feature.rangePct
  else if name = "body_pct" then some feature.bodyPct
  else if name = "volume_change" then feature.volumeChange
  else none

/-- The context is the one of the record, with its values. -/
structure Carries (feature : FeatureRecord) (context : StrategyContext) : Prop where
  market : context.market = feature.market
  symbol : context.symbol = feature.symbol
  timeframe : context.timeframe = feature.timeframe
  version : context.featureSetVersion = feature.featureVersion
  eventTime : .aware context.eventTime = feature.eventTime
  snapshot : context.goldSnapshotIds = [feature.recordId]
  features : ∀ name, context.features.get? name = feature.value name

/-- The values in a row. -/
theorem entries_goldRow (feature : FeatureRecord) : feature.goldRow.features.entries =
    [("close", .num feature.close), ("return_1", .num feature.return1), ("range_pct", .num feature.rangePct),
      ("body_pct", .num feature.bodyPct), ("volume_change", feature.volumeChange.elim .null .num)] := by
  simp [FeatureRecord.goldRow, goldInsert, FeatureRecord.toDict, goldColumns]

variable {reader : Reader} {feature : FeatureRecord} {t : Instant}

/-- The paper session reads back every record of NSE. -/
theorem record_goldRow (hmarket : feature.market = .nse) (htime : feature.eventTime = .aware t) :
    feature.goldRow.record reader = .ok feature := by
  have hget : ∀ name, feature.goldRow.features.get? name = _ :=
    fun name => congrArg (fun entries => (entries.find? fun e => e.1 = name).map Prod.snd) (entries_goldRow feature)
  obtain ⟨recordId, candleRecordId, market, symbol, timeframe, eventTime, close, return1, rangePct, bodyPct, volumeChange,
    featureVersion⟩ := feature
  dsimp only at hmarket htime
  subst hmarket htime
  cases volumeChange <;>
  · simp [GoldRow.record, GoldRow.float, hget, Reader.number]
    rfl

theorem ne_empty_of_not_isBlank {text : String} (h : isBlank text = false) : text ≠ "" := by
  rintro rfl
  cases h

/-- The evaluator reads back a record that has a change of volume and a symbol. -/
theorem context_goldRow {identity : StrategyIdentity} (hmarket : feature.market = identity.market)
    (htimeframe : feature.timeframe = identity.timeframe) (hversion : feature.featureVersion = identity.featureSetVersion)
    (htime : feature.eventTime = .aware t) (hvolume : feature.volumeChange ≠ none) (hsymbol : feature.symbol ≠ "") :
    ∃ context, feature.goldRow.context reader identity.market identity.tradeHorizon = .ok context ∧
      Carries feature context := by
  obtain ⟨change, hchange⟩ := Option.ne_none_iff_exists'.mp hvolume
  have hframe : feature.timeframe ≠ "" := htimeframe ▸ ne_empty_of_not_isBlank identity.texts.2.2.1
  have hhorizon : identity.tradeHorizon ≠ "" := ne_empty_of_not_isBlank identity.texts.2.2.2
  have hpos : 1 ≤ feature.featureVersion := hversion ▸ identity.version_pos
  have hinstant : feature.eventTime.astimezone = t := by rw [htime]; rfl
  have hvalues : feature.goldRow.features.entries.mapM (fun e => (e.1, ·) <$> reader.number e.2) =
      .ok [("close", feature.close), ("return_1", feature.return1), ("range_pct", feature.rangePct),
        ("body_pct", feature.bodyPct), ("volume_change", change)] := by
    rw [entries_goldRow, hchange]
    rfl
  have hcreate : feature.goldRow.context reader identity.market identity.tradeHorizon =
      StrategyContext.create identity.market feature.symbol none feature.timeframe identity.tradeHorizon
        feature.featureVersion (.aware feature.eventTime.astimezone) [feature.recordId]
        ([("close", feature.close), ("return_1", feature.return1), ("range_pct", feature.rangePct),
          ("body_pct", feature.bodyPct), ("volume_change", change)].foldl (fun d e => d.set e.1 e.2) .empty)
        true true "TRADEABLE" {} := by
    unfold GoldRow.context
    rw [hvalues]
    rfl
  rw [hcreate, hinstant]
  unfold StrategyContext.create
  rw [dif_neg (by simp [hsymbol, hframe, hhorizon]), dif_neg (by simp; omega)]
  refine ⟨_, rfl, hmarket.symm, rfl, rfl, rfl, htime.symm, rfl, ?_⟩
  intro name
  simp only [List.foldl_cons, List.foldl_nil, Dict.get?_set, Dict.get?_empty, FeatureRecord.value, hchange]
  split_ifs <;> simp_all

/-- It raises on every other record. -/
theorem of_context_goldRow {market : Market} {horizon : String} {context : StrategyContext}
    (h : feature.goldRow.context reader market horizon = .ok context) :
    feature.volumeChange ≠ none ∧ feature.symbol ≠ "" := by
  obtain ⟨values, hvalues, hcreate⟩ := Effect.except_bind_eq_ok.mp h
  constructor
  · intro hnone
    rw [entries_goldRow, hnone] at hvalues
    cases hvalues
  · intro hsymbol
    have hcolumn : feature.goldRow.symbol = "" := hsymbol
    unfold StrategyContext.create at hcreate
    rw [dif_pos (Or.inl hcolumn)] at hcreate
    cases hcreate

/-! ### Runs of the pipeline -/

/-- The pairs of candles that `materialize_features` looks at. -/
def pairsOf (candles : List CanonicalCandle) : List (CanonicalCandle × CanonicalCandle) :=
  (groupBy CanonicalCandle.series (candles.filter fun c => c.isSettled)).values.flatMap fun group =>
    adjacent (group.insertionSort fun a b => a.openTime ≤ b.openTime)

theorem mem_materializeFeatures {host : Host} {candles : List CanonicalCandle} :
    feature ∈ materializeFeatures host candles ↔ ∃ e ∈ pairsOf candles, featureOf host e.1 e.2 = some feature := by
  unfold materializeFeatures pairsOf
  simp only [List.mem_insertionSort, List.mem_flatMap, featuresOf, List.mem_filterMap]
  constructor
  · rintro ⟨group, hgroup, e, he, hfeature⟩
    exact ⟨e, ⟨group, hgroup, he⟩, hfeature⟩
  · rintro ⟨e, ⟨group, hgroup, he⟩, hfeature⟩
    exact ⟨group, hgroup, e, he, hfeature⟩

/-- A pair gives a change of volume unless the earlier candle has no volume. -/
theorem volumeChange_featureOf {host : Host} {previous current : CanonicalCandle}
    (h : featureOf host previous current = some feature) : feature.volumeChange ≠ none ↔ previous.volume ≠ 0 := by
  unfold featureOf at h
  split_ifs at h with hzero hpos
  · cases h
    simp [hpos.ne']
  · cases h
    simp [le_antisymm (not_lt.mp hpos) previous.volume_nonneg]

section Runs

variable (host : Host) (reader : Reader)

/-- The calls of the pipeline over a store. -/
def etl {σ : Type} (store : RecordStore σ) : Machine σ EtlCall (Except PyError EtlReply) where
  step s call := (Effect.final (call.run host reader store s), replyOf (call.run host reader store s))

/-- What a row of the database is from: it was there, or one of the records is its. -/
theorem of_get?_puts {tables : Dict RowKey LayerRecord} {records : List LayerRecord} {key : RowKey}
    {record : LayerRecord} (h : (postgresStore.puts tables records).2.get? key = some record) :
    tables.get? key = some record ∨ record ∈ records ∧ key = record.row := by
  induction records generalizing tables with
  | nil => exact Or.inl h
  | cons r records ih =>
    obtain hold | ⟨hmem, hkey⟩ := ih h
    · have hput : (writeNew tables r.row r).2.get? key = some record := hold
      unfold writeNew at hput
      cases hrow : tables.get? r.row with
      | some other =>
        rw [hrow] at hput
        exact Or.inl hput
      | none =>
        rw [hrow] at hput
        dsimp only at hput
        rw [Dict.get?_set] at hput
        split_ifs at hput with heq
        · cases hput
          exact Or.inr ⟨List.mem_cons_self .., heq⟩
        · exact Or.inl hput
    · exact Or.inr ⟨List.mem_cons_of_mem _ hmem, hkey⟩

/-- The rows after a run are from the calls of the run. -/
theorem of_get?_exec {tables : Dict RowKey LayerRecord} {calls : List EtlCall} {key : RowKey} {record : LayerRecord}
    (h : ((etl host reader postgresStore).exec tables calls).get? key = some record) :
    tables.get? key = some record ∨ (∃ call ∈ calls, record ∈ call.records host reader) ∧ key = record.row := by
  induction calls generalizing tables with
  | nil => exact Or.inl h
  | cons call calls ih =>
    obtain hold | ⟨⟨c, hc, hrecord⟩, hkey⟩ := ih h
    · have hputs : (postgresStore.puts tables (call.records host reader)).2.get? key = some record := by
        rw [← (run_puts host reader postgresStore call tables).1]
        exact hold
      refine (of_get?_puts hputs).imp_right ?_
      rintro ⟨hmem, hkey⟩
      exact ⟨⟨call, List.mem_cons_self .., hmem⟩, hkey⟩
    · exact Or.inr ⟨⟨c, List.mem_cons_of_mem _ hc, hrecord⟩, hkey⟩

/-- A record in the Gold table of a market, after a run from an empty database: a pair of candles of the run gave it. -/
theorem of_mem_goldFeatures {calls : List EtlCall} {market : Market}
    (h : feature ∈ goldFeatures ((etl host reader postgresStore).exec .empty calls) market) :
    feature.market = market ∧
      ((etl host reader postgresStore).exec .empty calls).get? (LayerRecord.gold feature).row = some (.gold feature) ∧
      ∃ candles, .buildGold candles ∈ calls ∧ ∃ e ∈ pairsOf candles, featureOf host e.1 e.2 = some feature := by
  obtain ⟨⟨key, record⟩, hentry, hrecord⟩ := List.mem_filterMap.mp h
  have hget := Dict.get?_eq_some_iff.mpr hentry
  obtain hempty | ⟨⟨call, hcall, hmem⟩, rfl⟩ := of_get?_exec host reader hget
  · cases hempty
  cases record with
  | bronze => cases hrecord
  | silver => cases hrecord
  | gold f =>
    simp only [LayerRecord.row, rowKey, Option.ite_none_right_eq_some, Option.some.injEq] at hrecord
    obtain ⟨hmarket, rfl⟩ := hrecord
    refine ⟨hmarket, hget, ?_⟩
    cases call with
    | ingest market provider eventType providerSymbol payload receivedAt =>
      unfold EtlCall.records at hmem
      dsimp only at hmem
      cases hraw : RawRecord.create host reader market provider eventType providerSymbol receivedAt payload with
      | error e => simp [hraw] at hmem
      | ok raw =>
        simp only [hraw] at hmem
        obtain heq | ⟨candle, -, heq⟩ := recordsOf_cases host reader raw <;> simp [heq] at hmem
    | buildGold candles =>
      obtain ⟨f', hf', heq⟩ := List.mem_map.mp hmem
      cases heq
      exact ⟨candles, hcall, mem_materializeFeatures.mp hf'⟩

theorem mem_goldFeatures {tables : Dict RowKey LayerRecord}
    (h : tables.get? (LayerRecord.gold feature).row = some (.gold feature)) :
    feature ∈ goldFeatures tables feature.market := by
  apply List.mem_filterMap.mpr
  exact ⟨_, Dict.get?_eq_some_iff.mp h, if_pos rfl⟩

end Runs

/-! ### Both readers -/

/-- The records of a timeframe and version, by symbol and time. -/
def selected (identity : StrategyIdentity) (features : List FeatureRecord) : List FeatureRecord :=
  (features.filter fun f => f.timeframe = identity.timeframe && f.featureVersion = identity.featureSetVersion).insertionSort
    fun a b => toLex (a.symbol, a.eventTime.astimezone) ≤ toLex (b.symbol, b.eventTime.astimezone)

/-- Neither reader raises: the paper session reads the records as they were written, and the evaluator reads contexts with
their values. -/
structure Decoded (reader : Reader) (identity : StrategyIdentity) (tables : Dict RowKey LayerRecord) : Prop where
  retried : ∀ cycles asOf (limit : ℤ), 0 < limit → retryableFeatures reader cycles (goldRows tables .nse) asOf limit =
    .ok (grouped (retryable FeatureRecord.recordId cycles (goldFeatures tables .nse) asOf limit.toNat))
  contexts : ∃ contexts, loadContexts reader identity (goldRows tables identity.market) = .ok contexts ∧
    List.Forall₂ Carries (selected identity (goldFeatures tables identity.market)) contexts

/-- The queries look at the columns of the rows, which are those of the records. -/
theorem retryable_map (cycles : List Runtime.SessionCycleRow) (features : List FeatureRecord) (asOf : Instant) (limit : ℕ) :
    retryable GoldRow.recordId cycles (features.map FeatureRecord.goldRow) asOf limit =
      (retryable FeatureRecord.recordId cycles features asOf limit).map fun e => (e.1, e.2.goldRow) := by
  unfold retryable
  have hjoined : ∀ due : List Runtime.SessionCycleRow,
      (due.flatMap fun cycle => cycle.featureRecordIds.flatMap fun id =>
        ((features.map FeatureRecord.goldRow).filter fun row => row.recordId = id).map fun row => (cycle, row)) =
      (due.flatMap fun cycle => cycle.featureRecordIds.flatMap fun id =>
        (features.filter fun f => f.recordId = id).map fun f => (cycle, f)).map fun e => (e.1, e.2.goldRow) := by
    intro due
    simp only [List.map_flatMap, List.filter_map, List.map_map]
    rfl
  dsimp only
  rw [hjoined, ← List.map_insertionSort (fun a b : Runtime.SessionCycleRow × FeatureRecord =>
    toLex (a.1.eventTime, toLex (a.1.sessionCycleId, a.2.recordId)) ≤
      toLex (b.1.eventTime, toLex (b.1.sessionCycleId, b.2.recordId))), List.map_map, List.map_map]
  · rfl
  · intro a _ b _
    exact Iff.rfl

theorem mem_of_mem_retryable {α : Type} {recordId : α → String} {cycles : List Runtime.SessionCycleRow} {rows : List α}
    {asOf : Instant} {limit : ℕ} {e : String × α} (h : e ∈ retryable recordId cycles rows asOf limit) : e.2 ∈ rows := by
  unfold retryable at h
  simp only [List.mem_map, List.mem_insertionSort, List.mem_flatMap, List.mem_filter] at h
  obtain ⟨_, ⟨cycle, -, id, -, row, ⟨hrow, -⟩, rfl⟩, rfl⟩ := h
  exact hrow

theorem snapshots_map (identity : StrategyIdentity) (features : List FeatureRecord) :
    snapshots identity (features.map FeatureRecord.goldRow) = (selected identity features).map FeatureRecord.goldRow := by
  unfold snapshots selected
  rw [List.filter_map, ← List.map_insertionSort (fun a b : FeatureRecord =>
    toLex (a.symbol, a.eventTime.astimezone) ≤ toLex (b.symbol, b.eventTime.astimezone))]
  · rfl
  · intro a _ b _
    exact Iff.rfl

theorem retryableFeatures_map {features : List FeatureRecord} (h : ∀ f ∈ features, f.goldRow.record reader = .ok f)
    (cycles : List Runtime.SessionCycleRow) (asOf : Instant) {limit : ℤ} (hlimit : 0 < limit) :
    retryableFeatures reader cycles (features.map FeatureRecord.goldRow) asOf limit =
      .ok (grouped (retryable FeatureRecord.recordId cycles features asOf limit.toNat)) := by
  have hrows : ∀ rows : List (String × FeatureRecord), (∀ e ∈ rows, e.2 ∈ features) →
      (rows.map fun e => (e.1, e.2.goldRow)).mapM (fun e => (e.1, ·) <$> e.2.record reader) = .ok rows := by
    intro rows hrows
    apply Effect.mapM_of_forall₂
    rw [List.forall₂_map_left_iff]
    apply List.forall₂_same.mpr
    intro e he
    rw [h e.2 (hrows e he)]
    rfl
  unfold retryableFeatures
  rw [if_neg (not_le.mpr hlimit), retryable_map, hrows _ fun e he => mem_of_mem_retryable he]
  rfl

/-- The evaluator raises just if a row that it selects has no change of volume or no symbol. -/
theorem loadContexts_map {features : List FeatureRecord} {identity : StrategyIdentity}
    (h : ∀ f ∈ features, f.market = identity.market ∧ ∃ t, f.eventTime = .aware t) :
    (∃ contexts, loadContexts reader identity (features.map FeatureRecord.goldRow) = .ok contexts ∧
      List.Forall₂ Carries (selected identity features) contexts) ↔
    ∀ f ∈ features, f.timeframe = identity.timeframe → f.featureVersion = identity.featureSetVersion →
      f.volumeChange ≠ none ∧ f.symbol ≠ "" := by
  have hmem : ∀ f, f ∈ selected identity features ↔
      f ∈ features ∧ f.timeframe = identity.timeframe ∧ f.featureVersion = identity.featureSetVersion := by
    intro f
    simp [selected]
  unfold loadContexts
  rw [snapshots_map]
  constructor
  · rintro ⟨contexts, hcontexts, -⟩ f hf htimeframe hversion
    have hrow : f.goldRow ∈ (selected identity features).map FeatureRecord.goldRow :=
      List.mem_map_of_mem ((hmem f).mpr ⟨hf, htimeframe, hversion⟩)
    obtain ⟨context, hcontext⟩ := Effect.exists_of_mapM hcontexts _ hrow
    exact of_context_goldRow hcontext
  · intro hall
    have hcontext : ∀ f ∈ selected identity features, ∃ context,
        f.goldRow.context reader identity.market identity.tradeHorizon = .ok context ∧ Carries f context := by
      intro f hf
      obtain ⟨hf, htimeframe, hversion⟩ := (hmem f).mp hf
      obtain ⟨hmarket, t, htime⟩ := h f hf
      obtain ⟨hvolume, hsymbol⟩ := hall f hf htimeframe hversion
      exact context_goldRow hmarket htimeframe hversion htime hvolume hsymbol
    generalize selected identity features = fs at hcontext
    induction fs with
    | nil => exact ⟨[], rfl, .nil⟩
    | cons f fs ih =>
      obtain ⟨⟨context, hf, hcarries⟩, hrest⟩ := List.forall_mem_cons.mp hcontext
      obtain ⟨contexts, hfs, hforall⟩ := ih hrest
      refine ⟨context :: contexts, ?_, .cons hcarries hforall⟩
      rw [List.map_cons, List.mapM_cons, hf, hfs]
      rfl

/-- The candles of a run have what the evaluator needs: for every row of the identity that a pair of candles has in the
table, the earlier candle has volume and the later one a symbol. -/
def Traded (host : Host) (identity : StrategyIdentity) (calls : List EtlCall) (tables : Dict RowKey LayerRecord) : Prop :=
  ∀ candles, .buildGold candles ∈ calls → ∀ e ∈ pairsOf candles, ∀ feature ∈ featureOf host e.1 e.2,
    tables.get? (LayerRecord.gold feature).row = some (.gold feature) → feature.market = identity.market →
    feature.timeframe = identity.timeframe → feature.featureVersion = identity.featureSetVersion →
    e.1.volume ≠ 0 ∧ e.2.symbol ≠ ""

/-- **Both readers** read back every row of Gold that a run of the pipeline writes, exactly if each row that the evaluator
selects is of a candle with a symbol whose predecessor has volume. -/
theorem decoded_iff (host : Host) (reader : Reader) (identity : StrategyIdentity) (calls : List EtlCall) :
    Decoded reader identity ((etl host reader postgresStore).exec .empty calls) ↔
      Traded host identity calls ((etl host reader postgresStore).exec .empty calls) := by
  have hof : ∀ market, ∀ f ∈ goldFeatures ((etl host reader postgresStore).exec .empty calls) market,
      f.market = market ∧ ∃ t, f.eventTime = .aware t := by
    intro market f hf
    obtain ⟨hmarket, -, candles, -, e, -, hpair⟩ := of_mem_goldFeatures host reader hf
    have hfields := of_featureOf hpair
    simp only [Prod.mk.injEq] at hfields
    exact ⟨hmarket, _, hfields.2.2.2⟩
  have hcontexts : (∃ contexts, loadContexts reader _ _ = .ok contexts ∧ _) ↔ _ := loadContexts_map (hof identity.market)
  constructor
  · intro h candles hcall e he f hf hget hmarket htimeframe hversion
    have hmem := mem_goldFeatures hget
    rw [hmarket] at hmem
    obtain ⟨hvolume, hsymbol⟩ := hcontexts.mp h.contexts f hmem htimeframe hversion
    have hfields := of_featureOf hf
    simp only [Prod.mk.injEq] at hfields
    exact ⟨(volumeChange_featureOf hf).mp hvolume, hfields.2.1 ▸ hsymbol⟩
  · intro h
    refine ⟨?_, hcontexts.mpr ?_⟩
    · intro cycles asOf limit hlimit
      apply retryableFeatures_map _ cycles asOf hlimit
      intro f hf
      obtain ⟨hmarket, t, htime⟩ := hof .nse f hf
      exact record_goldRow hmarket htime
    · intro f hf htimeframe hversion
      obtain ⟨hmarket, hget, candles, hcall, e, he, hpair⟩ := of_mem_goldFeatures host reader hf
      obtain ⟨hvolume, hsymbol⟩ := h candles hcall e he f hpair hget hmarket htimeframe hversion
      have hfields := of_featureOf hpair
      simp only [Prod.mk.injEq] at hfields
      exact ⟨(volumeChange_featureOf hpair).mpr hvolume, hfields.2.1.symm ▸ hsymbol⟩

namespace GoldSample

/-- A candle of a quarter of an hour, with some volume. -/
def candle (openTime : Instant) (volume : ℚ) (h : 0 ≤ volume) : CanonicalCandle where
  recordId := isoformat openTime
  rawRecordId := ""
  market := .nse
  provider := .dhan
  symbol := "HDFCBANK"
  timeframe := "15m"
  openTime := openTime
  openPrice := 100
  high := 101
  low := 99
  close := 100
  volume := volume
  isSettled := true
  volume_nonneg := h
  range := by norm_num

/-- A strategy over quarters of an hour. -/
def identity : StrategyIdentity where
  market := .nse
  strategyId := "momentum-continuation"
  strategyVersion := "1"
  timeframe := "15m"
  tradeHorizon := "intraday"
  featureSetVersion := 1
  texts := by decide +kernel
  version_pos := le_rfl

/-- Gold of two candles, the first one without volume. -/
def calls : List EtlCall :=
  [.buildGold [candle 0 0 le_rfl, candle (seconds 900) 10 (by norm_num)]]

end GoldSample

/-- A candle without volume: the next one has a row whose change of volume is null, and the evaluator raises. -/
theorem null_volume_change :
    ¬ Decoded .plain GoldSample.identity ((etl .cpython .plain postgresStore).exec .empty GoldSample.calls) := by
  rintro ⟨-, contexts, hcontexts, -⟩
  have hraises : (loadContexts .plain GoldSample.identity
      (goldRows ((etl .cpython .plain postgresStore).exec .empty GoldSample.calls) .nse)).toOption = none := by
    decide +kernel
  have hmarket : GoldSample.identity.market = .nse := rfl
  rw [hmarket] at hcontexts
  rw [hcontexts] at hraises
  cases hraises

end NanoDelta
