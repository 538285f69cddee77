import NanoDelta.Features
import NanoDelta.Library.FirstWrites
import NanoDelta.Library.Machine
import NanoDelta.Pipeline

/-!
# Record stores

`storage.py` and `persistence/postgres.py`: the two stores that the pipeline writes to, and the pipeline over any store. A
store keeps the first record that it files under a key; the file lake files a record by its id and the date of its event
time, the database by its id or, in Silver, by symbol, timeframe and open time.

* `lakes_agree_iff`: what the two stores report in a run of the pipeline.
* `delivered_twice`: a candle that is delivered before and after midnight.
-/

namespace NanoDelta

open Library Markets

/-! ### Stores -/

/-- The layers. -/
inductive Layer where
  | bronze
  | silver
  | gold
  deriving DecidableEq

/-- A record of a layer. -/
inductive LayerRecord where
  | bronze (raw : RawRecord)
  | silver (candle : CanonicalCandle)
  | gold (feature : FeatureRecord)

/-- The layer of a record. -/
def LayerRecord.layer : LayerRecord → Layer
  | .bronze _ => .bronze
  | .silver _ => .silver
  | .gold _ => .gold

/-- `RecordStore`: a write reports if the record is new. -/
structure RecordStore (σ : Type) where
  write : Market → Instant → String → LayerRecord → σ → Bool × σ

/-- `value.date()` of a time in UTC, as a number of days. -/
def eventDate (t : Instant) : ℤ := t / 86400000000

/-- The path of a file: its market, layer, date and name. -/
abbrev FilePath := Market × Layer × ℤ × String

/-- `FileLake`. -/
def fileLake : RecordStore (Dict FilePath LayerRecord) where
  write market eventTime recordId record files :=
    writeNew files (market, record.layer, eventDate eventTime, recordId) record

/-- The primary key of a row, with the schema of its table. -/
inductive RowKey where
  | bronze (market : Market) (recordId : String)
  | silver (market : Market) (symbol timeframe : String) (openTime : Instant)
  | gold (market : Market) (recordId : String) (eventTime : Instant)
  deriving DecidableEq

/-- The key under which `PostgresStore` inserts a record. -/
def rowKey (market : Market) (recordId : String) : LayerRecord → RowKey
  | .bronze _ => .bronze market recordId
  | .silver candle => .silver market candle.symbol candle.timeframe candle.openTime
  | .gold feature => .gold market recordId feature.eventTime.astimezone

/-- `PostgresStore`. -/
def postgresStore : RecordStore (Dict RowKey LayerRecord) where
  write market _ recordId record tables := writeNew tables (rowKey market recordId record) record

/-! ### The pipeline over a store -/

section Pipeline

variable (host : Host) (reader : Reader) {σ : Type} (store : RecordStore σ)

/-- The part of `ingest` after the raw record is made. -/
def RecordStore.ingestRaw (raw : RawRecord) : EStateM PyError σ IngestionResult := fun s =>
  let bronzeCreated := (store.write raw.market raw.receivedAt raw.recordId (.bronze raw) s).1
  let s := (store.write raw.market raw.receivedAt raw.recordId (.bronze raw) s).2
  if raw.eventType ≠ .candle then .ok ⟨none, bronzeCreated, false, none⟩ s
  else
    match canonicalOf host reader raw with
    | .error e =>
      match e.rejection with
      | some reason => .ok ⟨none, bronzeCreated, false, some reason⟩ s
      | none => .error e s
    | .ok canonical =>
      if canonical.isSettled = false then
        .ok ⟨some canonical, bronzeCreated, false, some "candle is not settled"⟩ s
      else
        let silver := store.write raw.market canonical.openTime canonical.recordId (.silver canonical) s
        .ok ⟨some canonical, bronzeCreated, silver.1, none⟩ silver.2

/-- `EtlPipeline.ingest`. -/
def RecordStore.ingest (market : Market) (provider : Provider) (eventType : EventType) (providerSymbol : String)
    (payload : Payload) (receivedAt : DateTime) : EStateM PyError σ IngestionResult := do
  let raw ← Effect.ofExcept (RawRecord.create host reader market provider eventType providerSymbol receivedAt payload)
  store.ingestRaw host reader raw

/-- `EtlPipeline.build_gold`. -/
def RecordStore.buildGold (candles : List CanonicalCandle) : EStateM PyError σ (List FeatureRecord) := fun s =>
  let features := materializeFeatures host candles
  .ok features (features.foldl (fun s feature =>
    (store.write feature.market feature.eventTime.astimezone feature.recordId (.gold feature) s).2) s)

/-- The layers of the pipeline's lake as a store. It has no Gold. -/
def lakeStore : RecordStore Lake where
  write _ _ recordId
    | .bronze _, lake => lake.writeBronze recordId
    | .silver candle, lake => lake.writeSilver candle
    | .gold _, lake => (true, lake)

/-- Over that store, the pipeline is the one of the lake. -/
theorem ingest_lakeStore : lakeStore.ingest host reader = ingest host reader := rfl

/-- A call of the pipeline. -/
inductive EtlCall where
  | ingest (market : Market) (provider : Provider) (eventType : EventType) (providerSymbol : String) (payload : Payload)
    (receivedAt : DateTime)
  | buildGold (candles : List CanonicalCandle)

/-- What a call returns. -/
inductive EtlReply where
  | ingested (result : IngestionResult)
  | built (features : List FeatureRecord)

/-- A call, as a program. -/
def EtlCall.run : EtlCall → EStateM PyError σ EtlReply
  | .ingest market provider eventType providerSymbol payload receivedAt =>
    EtlReply.ingested <$> store.ingest host reader market provider eventType providerSymbol payload receivedAt
  | .buildGold candles => EtlReply.built <$> store.buildGold host candles

/-- A reply, or what was raised. -/
def replyOf {α : Type} : EStateM.Result PyError σ α → Except PyError α
  | .ok a _ => .ok a
  | .error e _ => .error e

/-- The calls of the pipeline as a machine, with two stores that get the same calls. -/
def bothStores {τ : Type} (other : RecordStore τ) :
    Machine (σ × τ) EtlCall (Except PyError EtlReply × Except PyError EtlReply) where
  step s call :=
    let first := call.run host reader store s.1
    let second := call.run host reader other s.2
    ((Effect.final first, Effect.final second), replyOf first, replyOf second)

end Pipeline

/-! ### What a call writes -/

section Writes

variable (host : Host) (reader : Reader) {σ : Type} (store : RecordStore σ)

/-- The market of a record. -/
def LayerRecord.market : LayerRecord → Market
  | .bronze raw => raw.market
  | .silver candle => candle.market
  | .gold feature => feature.market

/-- The event time of a record. -/
def LayerRecord.eventTime : LayerRecord → Instant
  | .bronze raw => raw.receivedAt
  | .silver candle => candle.openTime
  | .gold feature => feature.eventTime.astimezone

/-- The id of a record. -/
def LayerRecord.recordId : LayerRecord → String
  | .bronze raw => raw.recordId
  | .silver candle => candle.recordId
  | .gold feature => feature.recordId

/-- Write a record. -/
def RecordStore.put (s : σ) (record : LayerRecord) : Bool × σ :=
  store.write record.market record.eventTime record.recordId record s

/-- Write records in their order: which of them are new, and the store after them. -/
def RecordStore.puts : σ → List LayerRecord → List Bool × σ
  | s, [] => ([], s)
  | s, record :: records =>
    ((store.put s record).1 :: (puts (store.put s record).2 records).1, (puts (store.put s record).2 records).2)

/-- The records that follow from a raw record. -/
def recordsOf (raw : RawRecord) : List LayerRecord :=
  .bronze raw :: (if raw.eventType ≠ .candle then [] else
    match settledRaw host reader raw with
    | .ok (some candle) => [.silver candle]
    | _ => [])

/-- The records that a call writes. -/
def EtlCall.records : EtlCall → List LayerRecord
  | .ingest market provider eventType providerSymbol payload receivedAt =>
    match RawRecord.create host reader market provider eventType providerSymbol receivedAt payload with
    | .error _ => []
    | .ok raw => recordsOf host reader raw
  | .buildGold candles => (materializeFeatures host candles).map LayerRecord.gold

/-- What `ingest` returns, by which of its records are new. -/
def resultOf (raw : RawRecord) (created : List Bool) : Except PyError IngestionResult :=
  let bronzeCreated := created.headD false
  if raw.eventType ≠ .candle then .ok ⟨none, bronzeCreated, false, none⟩
  else
    match canonicalOf host reader raw with
    | .error e =>
      match e.rejection with
      | some reason => .ok ⟨none, bronzeCreated, false, some reason⟩
      | none => .error e
    | .ok canonical =>
      if canonical.isSettled = false then .ok ⟨some canonical, bronzeCreated, false, some "candle is not settled"⟩
      else .ok ⟨some canonical, bronzeCreated, created.tail.headD false, none⟩

/-- What a call returns, by which of its records are new. -/
def EtlCall.reply (created : List Bool) : EtlCall → Except PyError EtlReply
  | .ingest market provider eventType providerSymbol payload receivedAt =>
    match RawRecord.create host reader market provider eventType providerSymbol receivedAt payload with
    | .error e => .error e
    | .ok raw => (resultOf host reader raw created).map EtlReply.ingested
  | .buildGold candles => .ok (.built (materializeFeatures host candles))

theorem ingestRaw_puts (raw : RawRecord) (s : σ) :
    Effect.final (store.ingestRaw host reader raw s) = (store.puts s (recordsOf host reader raw)).2 ∧
      replyOf (store.ingestRaw host reader raw s) =
        resultOf host reader raw (store.puts s (recordsOf host reader raw)).1 := by
  unfold RecordStore.ingestRaw recordsOf resultOf settledRaw
  by_cases hcandle : raw.eventType ≠ .candle
  · simp only [if_pos hcandle]
    exact ⟨rfl, rfl⟩
  · simp only [if_neg hcandle]
    cases hcanonical : canonicalOf host reader raw with
    | error e =>
      cases hreason : e.rejection with
      | some reason =>
        simp only [hreason]
        exact ⟨rfl, rfl⟩
      | none =>
        simp only [hreason]
        exact ⟨rfl, rfl⟩
    | ok canonical =>
      by_cases hsettled : canonical.isSettled = false
      · simp only [hsettled, if_true]
        exact ⟨rfl, rfl⟩
      · have hput : ∀ s, store.write raw.market canonical.openTime canonical.recordId (.silver canonical) s =
            store.put s (.silver canonical) := by
          intro s
          rw [← (of_canonicalOf hcanonical).1]
          rfl
        simp only [if_neg hsettled, hput]
        exact ⟨rfl, rfl⟩

/-- **A call** writes its records, and what it returns depends on which of them are new. -/
theorem run_puts (call : EtlCall) (s : σ) :
    Effect.final (call.run host reader store s) = (store.puts s (call.records host reader)).2 ∧
      replyOf (call.run host reader store s) = call.reply host reader (store.puts s (call.records host reader)).1 := by
  cases call with
  | ingest market provider eventType providerSymbol payload receivedAt =>
    dsimp only [EtlCall.run, EtlCall.records, EtlCall.reply, RecordStore.ingest]
    rw [Effect.map_apply]
    cases hraw : RawRecord.create host reader market provider eventType providerSymbol receivedAt payload with
    | error e => exact ⟨rfl, rfl⟩
    | ok raw =>
      rw [Effect.ofExcept_ok, Effect.bind_of_ok (Effect.pure_apply raw s)]
      obtain ⟨hfinal, hreply⟩ := ingestRaw_puts host reader store raw s
      dsimp only
      rw [← hfinal, ← hreply]
      cases store.ingestRaw host reader raw s with
      | ok result s' => exact ⟨rfl, rfl⟩
      | error e s' => exact ⟨rfl, rfl⟩
  | buildGold candles =>
    refine ⟨?_, rfl⟩
    show (materializeFeatures host candles).foldl _ s = (store.puts s ((materializeFeatures host candles).map .gold)).2
    generalize materializeFeatures host candles = features
    induction features generalizing s with
    | nil => rfl
    | cons feature features ih => exact ih _

end Writes

/-! ### Two stores -/

/-- Where a record is looked for: its market, layer and id. -/
abbrev Place := Market × Layer × String

/-- The place of a record. -/
def LayerRecord.place (record : LayerRecord) : Place := (record.market, record.layer, record.recordId)

/-- The path of a record. -/
def LayerRecord.path (record : LayerRecord) : FilePath :=
  (record.market, record.layer, eventDate record.eventTime, record.recordId)

/-- The primary key of a record. -/
def LayerRecord.row (record : LayerRecord) : RowKey := rowKey record.market record.recordId record

/-- The place of a file. -/
def placeOfPath (path : FilePath) : Place := (path.1, path.2.1, path.2.2.2)

/-- The place of a row. A row in Silver has the id of its candle in its columns. -/
def placeOfRow (host : Host) : RowKey → Place
  | .bronze market recordId => (market, .bronze, recordId)
  | .silver market symbol timeframe openTime =>
    (market, .silver, stableId host [market.value, symbol, timeframe, isoformat openTime])
  | .gold market recordId _ => (market, .gold, recordId)

/-- The file lake and the database. -/
abbrev TwoStores := Dict FilePath LayerRecord × Dict RowKey LayerRecord

section Agreement

variable (host : Host) (reader : Reader)

/-- The file lake has the record id. -/
def HasFile (files : Dict FilePath LayerRecord) (place : Place) : Prop :=
  ∃ path, placeOfPath path = place ∧ files.get? path ≠ none

/-- The database has the record id. -/
def HasRow (tables : Dict RowKey LayerRecord) (place : Place) : Prop :=
  ∃ key, placeOfRow host key = place ∧ tables.get? key ≠ none

/-- If the id of a record is held, both stores hold it under the key of the record. -/
def Refiled (s : TwoStores) (record : LayerRecord) : Prop :=
  HasFile s.1 record.place ∨ HasRow host s.2 record.place →
    s.1.get? record.path ≠ none ∧ s.2.get? record.row ≠ none

/-- Nothing is created for the record ids that are held. -/
def CreatesNothing (s s' : TwoStores) : Prop :=
  ∀ place, HasFile s.1 place ∨ HasRow host s.2 place →
    (∀ path, placeOfPath path = place → s'.1.get? path ≠ none → s.1.get? path ≠ none) ∧
      ∀ key, placeOfRow host key = place → s'.2.get? key ≠ none → s.2.get? key ≠ none

/-- A call of `ingest`. -/
def EtlCall.Ingests : EtlCall → Prop
  | .ingest .. => True
  | .buildGold _ => False

/-- Both stores return the same for a call, and `ingest` creates nothing in either for a record id that is held. -/
def Agree (s : TwoStores) (call : EtlCall) : Prop :=
  let next := (bothStores host reader fileLake postgresStore).step s call
  next.2.1 = next.2.2 ∧ (call.Ingests → CreatesNothing host s next.1)

/-- The record ids that a call of `ingest` delivers again are those of records with the same keys. -/
def Redelivers (s : TwoStores) (call : EtlCall) : Prop :=
  call.Ingests → ∀ record ∈ call.records host reader, Refiled host s record

/-- A candle has the id of its row. -/
def LayerRecord.Named (record : LayerRecord) : Prop := placeOfRow host record.row = record.place

/-- Both stores have the records that were written. -/
def Written (s : TwoStores) : Prop :=
  ∃ records : List LayerRecord, Files LayerRecord.path s.1 records ∧ Files LayerRecord.row s.2 records ∧
    ∀ record ∈ records, record.Named host

variable {host reader} {s : TwoStores} {record : LayerRecord}

/-- A record in both stores. -/
def putBoth (s : TwoStores) (record : LayerRecord) : TwoStores :=
  ((fileLake.put s.1 record).2, (postgresStore.put s.2 record).2)

/-- The same record ids are held in both. -/
theorem Written.same (h : Written host s) (place : Place) : HasFile s.1 place ↔ HasRow host s.2 place := by
  obtain ⟨records, hfiles, hrows, hnamed⟩ := h
  constructor
  · rintro ⟨path, rfl, hpath⟩
    obtain ⟨r, hr, rfl⟩ := (hfiles path).mp hpath
    exact ⟨r.row, hnamed r hr, (hrows r.row).mpr ⟨r, hr, rfl⟩⟩
  · rintro ⟨key, rfl, hkey⟩
    obtain ⟨r, hr, rfl⟩ := (hrows key).mp hkey
    exact ⟨r.path, (hnamed r hr).symm, (hfiles r.path).mpr ⟨r, hr, rfl⟩⟩

theorem Written.put (h : Written host s) (hnamed : record.Named host) : Written host (putBoth s record) := by
  obtain ⟨records, hfiles, hrows, hall⟩ := h
  refine ⟨records ++ [record], hfiles.write record record, hrows.write record record, ?_⟩
  intro r hr
  rcases List.mem_append.mp hr with hr | hr
  · exact hall r hr
  · rw [List.mem_singleton.mp hr]
    exact hnamed

/-- Records with the id in both stores, after some are written. -/
theorem get?_puts_path (files : Dict FilePath LayerRecord) (records : List LayerRecord) (path : FilePath) :
    (fileLake.puts files records).2.get? path ≠ none ↔ files.get? path ≠ none ∨ ∃ r ∈ records, r.path = path := by
  induction records generalizing files with
  | nil => simp [RecordStore.puts]
  | cons record records ih =>
    have hput : (fileLake.put files record).2.get? path ≠ none ↔ files.get? path ≠ none ∨ path = record.path :=
      get?_writeNew_ne_none files record.path path record
    rw [RecordStore.puts, ih, hput, List.exists_mem_cons_iff, or_assoc, eq_comm]

theorem get?_puts_row (tables : Dict RowKey LayerRecord) (records : List LayerRecord) (key : RowKey) :
    (postgresStore.puts tables records).2.get? key ≠ none ↔ tables.get? key ≠ none ∨ ∃ r ∈ records, r.row = key := by
  induction records generalizing tables with
  | nil => simp [RecordStore.puts]
  | cons record records ih =>
    have hput : (postgresStore.put tables record).2.get? key ≠ none ↔ tables.get? key ≠ none ∨ key = record.row :=
      get?_writeNew_ne_none tables record.row key record
    rw [RecordStore.puts, ih, hput, List.exists_mem_cons_iff, or_assoc, eq_comm]

variable {records : List LayerRecord}

/-- The stores after records are written. -/
def putsBoth (s : TwoStores) (records : List LayerRecord) : TwoStores :=
  ((fileLake.puts s.1 records).2, (postgresStore.puts s.2 records).2)

theorem Written.puts (h : Written host s) (hnamed : ∀ r ∈ records, r.Named host) : Written host (putsBoth s records) := by
  induction records generalizing s with
  | nil => exact h
  | cons record records ih =>
    obtain ⟨hfirst, hrest⟩ := List.forall_mem_cons.mp hnamed
    exact ih (h.put hfirst) hrest

/-- **What is created**: nothing for ids that are held, exactly if the records are under the keys that they have there. -/
theorem createsNothing_iff (hnamed : ∀ r ∈ records, r.Named host) :
    CreatesNothing host s (putsBoth s records) ↔ ∀ r ∈ records, Refiled host s r := by
  constructor
  · intro h r hr hheld
    obtain ⟨hfiles, hrows⟩ := h r.place hheld
    refine ⟨hfiles r.path rfl ?_, hrows r.row (hnamed r hr) ?_⟩
    · exact (get?_puts_path s.1 records r.path).mpr (Or.inr ⟨r, hr, rfl⟩)
    · exact (get?_puts_row s.2 records r.row).mpr (Or.inr ⟨r, hr, rfl⟩)
  · intro h place hheld
    refine ⟨fun path hpath hget => ?_, fun key hkey hget => ?_⟩
    · rcases (get?_puts_path s.1 records path).mp hget with hold | ⟨r, hr, rfl⟩
      · exact hold
      · cases hpath
        exact (h r hr hheld).1
    · rcases (get?_puts_row s.2 records key).mp hget with hold | ⟨r, hr, rfl⟩
      · exact hold
      · rw [← hkey, hnamed r hr] at hheld
        exact (h r hr hheld).2

/-- **One record** is new in both stores or in neither, if it is under its keys where its id is held. -/
theorem put_eq (hnamed : record.Named host) (hrefiled : Refiled host s record) :
    (fileLake.put s.1 record).1 = (postgresStore.put s.2 record).1 := by
  have hfile : (fileLake.put s.1 record).1 = true ↔ s.1.get? record.path = none := created_iff s.1 record.path record
  have hrow : (postgresStore.put s.2 record).1 = true ↔ s.2.get? record.row = none := created_iff s.2 record.row record
  rw [Bool.eq_iff_iff, hfile, hrow]
  by_cases hheld : HasFile s.1 record.place ∨ HasRow host s.2 record.place
  · obtain ⟨hpath, hkey⟩ := hrefiled hheld
    exact iff_of_false hpath hkey
  · obtain ⟨hnofile, hnorow⟩ := not_or.mp hheld
    refine iff_of_true ?_ ?_
    · by_contra hpath
      exact hnofile ⟨record.path, rfl, hpath⟩
    · by_contra hkey
      exact hnorow ⟨record.row, hnamed, hkey⟩

/-- A record with another id is still under its keys. -/
theorem Refiled.put {r : LayerRecord} (h : Refiled host s r) (hnamed : record.Named host) (hne : record.place ≠ r.place) :
    Refiled host (putBoth s record) r := by
  have hfile : ∀ path, (putBoth s record).1.get? path ≠ none ↔ s.1.get? path ≠ none ∨ path = record.path :=
    fun path => get?_writeNew_ne_none s.1 record.path path record
  have hrow : ∀ key, (putBoth s record).2.get? key ≠ none ↔ s.2.get? key ≠ none ∨ key = record.row :=
    fun key => get?_writeNew_ne_none s.2 record.row key record
  intro hheld
  rw [hfile, hrow]
  have hbefore : HasFile s.1 r.place ∨ HasRow host s.2 r.place := by
    apply hheld.imp
    · rintro ⟨path, hplace, hpath⟩
      rcases (hfile path).mp hpath with hold | rfl
      · exact ⟨path, hplace, hold⟩
      · exact absurd hplace hne
    · rintro ⟨key, hplace, hkey⟩
      rcases (hrow key).mp hkey with hold | rfl
      · exact ⟨key, hplace, hold⟩
      · exact absurd (hnamed.symm.trans hplace) hne
  exact ⟨Or.inl (h hbefore).1, Or.inl (h hbefore).2⟩

/-- **Records with different ids** are new in both stores or in neither. -/
theorem puts_eq (hnamed : ∀ r ∈ records, r.Named host)
    (hdistinct : records.Pairwise fun a b => a.place ≠ b.place) (hrefiled : ∀ r ∈ records, Refiled host s r) :
    (fileLake.puts s.1 records).1 = (postgresStore.puts s.2 records).1 := by
  induction records generalizing s with
  | nil => rfl
  | cons record records ih =>
    obtain ⟨hname, hnames⟩ := List.forall_mem_cons.mp hnamed
    obtain ⟨hne, hpairs⟩ := List.pairwise_cons.mp hdistinct
    obtain ⟨hfirst, hrest⟩ := List.forall_mem_cons.mp hrefiled
    have hsecond : (fileLake.puts (putBoth s record).1 records).1 = (postgresStore.puts (putBoth s record).2 records).1 :=
      ih hnames hpairs fun r hr => (hrest r hr).put hname (hne r hr)
    rw [RecordStore.puts, RecordStore.puts, put_eq hname hfirst]
    exact congrArg _ hsecond

variable (host reader) in
/-- A delivery writes a raw record, and the settled candle that it has. -/
theorem recordsOf_cases (raw : RawRecord) : recordsOf host reader raw = [.bronze raw] ∨
    ∃ candle, canonicalOf host reader raw = .ok candle ∧ recordsOf host reader raw = [.bronze raw, .silver candle] := by
  unfold recordsOf settledRaw
  split_ifs with hcandle
  · exact Or.inl rfl
  · cases hcanonical : canonicalOf host reader raw with
    | error e =>
      refine Or.inl ?_
      dsimp only
      split_ifs <;> rfl
    | ok candle =>
      dsimp only
      split_ifs
      · exact Or.inl rfl
      · exact Or.inr ⟨candle, rfl, rfl⟩

/-- The records of a call have ids as in the database. -/
theorem named_records (call : EtlCall) : ∀ r ∈ call.records host reader, r.Named host := by
  cases call with
  | ingest market provider eventType providerSymbol payload receivedAt =>
    unfold EtlCall.records
    dsimp only
    cases RawRecord.create host reader market provider eventType providerSymbol receivedAt payload with
    | error e => simp
    | ok raw =>
      dsimp only
      rcases recordsOf_cases host reader raw with heq | ⟨candle, hcandle, heq⟩
      · rw [heq]
        exact List.forall_mem_singleton.mpr rfl
      · have hid := (of_canonicalOf hcandle).2
        rw [heq]
        refine List.forall_mem_cons.mpr ⟨rfl, List.forall_mem_singleton.mpr ?_⟩
        exact congrArg (fun id => (candle.market, Layer.silver, id)) hid.symm
  | buildGold candles =>
    intro r hr
    obtain ⟨feature, -, rfl⟩ := List.mem_map.mp hr
    rfl

/-- The records of one delivery have different ids. -/
theorem distinct_records {call : EtlCall} (h : call.Ingests) :
    (call.records host reader).Pairwise fun a b => a.place ≠ b.place := by
  cases call with
  | ingest market provider eventType providerSymbol payload receivedAt =>
    unfold EtlCall.records
    dsimp only
    cases RawRecord.create host reader market provider eventType providerSymbol receivedAt payload with
    | error e => exact .nil
    | ok raw =>
      dsimp only
      rcases recordsOf_cases host reader raw with heq | ⟨candle, -, heq⟩
      · rw [heq]
        exact List.pairwise_singleton ..
      · rw [heq]
        simp [LayerRecord.place, LayerRecord.layer]
  | buildGold candles => exact h.elim

variable (host reader) in
/-- A call takes both stores through its records. -/
theorem step_bothStores (s : TwoStores) (call : EtlCall) :
    (bothStores host reader fileLake postgresStore).step s call = (putsBoth s (call.records host reader),
      call.reply host reader (fileLake.puts s.1 (call.records host reader)).1,
      call.reply host reader (postgresStore.puts s.2 (call.records host reader)).1) := by
  obtain ⟨hfiles, hreply⟩ := run_puts host reader fileLake call s.1
  obtain ⟨htables, hreply'⟩ := run_puts host reader postgresStore call s.2
  exact Prod.ext (Prod.ext hfiles htables) (Prod.ext hreply hreply')

variable (host reader) in
/-- **One call** returns the same from both stores, and creates nothing twice, exactly if what it delivers again is under
the same keys. -/
theorem agree_iff (s : TwoStores) (call : EtlCall) : Agree host reader s call ↔ Redelivers host reader s call := by
  unfold Agree Redelivers
  rw [step_bothStores]
  dsimp only
  constructor
  · rintro ⟨-, hnothing⟩ hingests
    exact (createsNothing_iff (named_records call)).mp (hnothing hingests)
  · intro h
    refine ⟨?_, fun hingests => (createsNothing_iff (named_records call)).mpr (h hingests)⟩
    cases call with
    | buildGold candles => rfl
    | ingest market provider eventType providerSymbol payload receivedAt =>
      have hingests : (EtlCall.ingest market provider eventType providerSymbol payload receivedAt).Ingests := trivial
      rw [puts_eq (named_records _) (distinct_records hingests) (h hingests)]

/-- **The stores agree**: after every run of calls they hold the same record ids. In every run, they report the same for
each call and create nothing for an id that they hold, exactly if everything that is delivered again is under the keys that
it has in both. -/
theorem lakes_agree_iff (host : Host) (reader : Reader) (calls : List EtlCall) :
    (∀ place, HasFile ((bothStores host reader fileLake postgresStore).exec (.empty, .empty) calls).1 place ↔
      HasRow host ((bothStores host reader fileLake postgresStore).exec (.empty, .empty) calls).2 place) ∧
    ((bothStores host reader fileLake postgresStore).Along (Agree host reader) (.empty, .empty) calls ↔
      (bothStores host reader fileLake postgresStore).Along (Redelivers host reader) (.empty, .empty) calls) := by
  constructor
  · have hstart : Written host (.empty, .empty) := ⟨[], files_empty _, files_empty _, by simp⟩
    have hwritten : Written host ((bothStores host reader fileLake postgresStore).exec (.empty, .empty) calls) := by
      refine Machine.exec_invariant (P := Written host) ?_ hstart calls
      intro s call h
      rw [step_bothStores]
      exact h.puts (named_records call)
    exact hwritten.same
  · have hsame : Agree host reader = Redelivers host reader :=
      funext fun s => funext fun call => propext (agree_iff host reader s call)
    rw [hsame]

end Agreement

/-! ### A second delivery -/

namespace StorageSample

/-- A candle of HDFC Bank. -/
def bar : Payload :=
  entriesOf [("timestamp", .num 1786708800), ("open", .num 100), ("high", .num 102), ("low", .num 99),
    ("close", .num 101), ("volume", .num 10)]

/-- Its delivery, some minutes after midnight of 2026-08-15 in UTC. -/
def delivery (minute : ℤ) : EtlCall :=
  .ingest .nse .dhan .candle "HDFCBANK" bar (.aware (seconds (1786752000 + 60 * minute)))

end StorageSample

/-- What is reported of the two layers. -/
def EtlReply.created : EtlReply → Option (Bool × Bool)
  | .ingested result => some (result.bronzeCreated, result.silverCreated)
  | .built _ => none

/-- The second delivery comes after midnight: the file lake reports a new raw record, the database does not. -/
theorem delivered_twice :
    ¬ (bothStores .cpython .plain fileLake postgresStore).Along (Agree .cpython .plain) (.empty, .empty)
      [StorageSample.delivery (-1), StorageSample.delivery 1] := by
  have hreplies : ((bothStores .cpython .plain fileLake postgresStore).outputs (.empty, .empty)
      [StorageSample.delivery (-1), StorageSample.delivery 1]).map (fun replies => (replies.1.toOption.bind EtlReply.created,
        replies.2.toOption.bind EtlReply.created)) =
      [(some (true, true), some (true, true)), (some (true, false), some (false, false))] := by
    rw [← Host.evaluated_eq]
    decide +kernel
  rintro ⟨-, ⟨hsame, -⟩, -⟩
  obtain ⟨-, hsecond⟩ := List.cons.inj hreplies
  obtain ⟨hdiffer, -⟩ := List.cons.inj hsecond
  dsimp only at hdiffer
  rw [hsame] at hdiffer
  have hone := (congrArg Prod.fst hdiffer).symm.trans (congrArg Prod.snd hdiffer)
  exact absurd hone (by decide)

end NanoDelta
