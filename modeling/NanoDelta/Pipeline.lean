import NanoDelta.Library.Effect
import NanoDelta.Markets.Adapters

/-!
# The pipeline

`pipeline.py` over a record store: a payload becomes a raw record in Bronze and, if it is a candle
that the adapter of its provider takes as settled, a candle in Silver. The first write of a record
wins, in Bronze by its id and in Silver by market, symbol, timeframe and open time.

* `ingest_ends`: everything that a call of `ingest` does to Silver.
-/

namespace NanoDelta

open Library Markets

/-- The Bronze and Silver layers: the ids of the raw records, and the candles. -/
structure Lake where
  bronze : List String := []
  silver : List CanonicalCandle := []
  deriving DecidableEq

/-- `write` in the Bronze layer: whether the record is new, and the layer after it. -/
def Lake.writeBronze (lake : Lake) (recordId : String) : Bool × Lake :=
  if recordId ∈ lake.bronze then (false, lake) else (true, { lake with bronze := lake.bronze ++ [recordId] })

/-- Silver after a candle is written: unchanged if it has one with the same key. -/
def insertSilver (silver : List CanonicalCandle) (candle : CanonicalCandle) : List CanonicalCandle :=
  if ∃ other ∈ silver, other.key = candle.key then silver else silver ++ [candle]

/-- `write` in the Silver layer. -/
def Lake.writeSilver (lake : Lake) (candle : CanonicalCandle) : Bool × Lake :=
  (decide (¬ ∃ other ∈ lake.silver, other.key = candle.key), { lake with silver := insertSilver lake.silver candle })

/-- `IngestionResult`, without the raw record. -/
structure IngestionResult where
  canonical : Option CanonicalCandle
  bronzeCreated : Bool
  silverCreated : Bool
  rejectionReason : Option String := none

/-- `str(exc)` of an exception that `ingest` catches; nothing if it does not catch it. -/
def PyError.rejection : PyError → Option String
  | .valueError message => some (PyError.text (.valueError message))
  | .keyError key => some (PyError.text (.keyError key))
  | .typeError message => some (PyError.text (.typeError message))
  | _ => none

section Ingest

variable (host : Host) (reader : Reader)

/-- The candle of a raw record, by the adapter of its provider. -/
def canonicalOf (raw : RawRecord) : Except PyError CanonicalCandle := do
  let adapter ← adapterFor host reader raw.market raw.provider
  adapter raw

/-- The part of `ingest` after the raw record is made. -/
def ingestRaw (raw : RawRecord) : EStateM PyError Lake IngestionResult := fun lake =>
  let bronzeCreated := (lake.writeBronze raw.recordId).1
  let lake := (lake.writeBronze raw.recordId).2
  if raw.eventType ≠ .candle then .ok ⟨none, bronzeCreated, false, none⟩ lake
  else
    match canonicalOf host reader raw with
    | .error e =>
      match e.rejection with
      | some reason => .ok ⟨none, bronzeCreated, false, some reason⟩ lake
      | none => .error e lake
    | .ok canonical =>
      if canonical.isSettled = false then
        .ok ⟨some canonical, bronzeCreated, false, some "candle is not settled"⟩ lake
      else .ok ⟨some canonical, bronzeCreated, (lake.writeSilver canonical).1, none⟩ (lake.writeSilver canonical).2

/-- `EtlPipeline.ingest`. -/
def ingest (market : Market) (provider : Provider) (eventType : EventType) (providerSymbol : String) (payload : Payload)
    (receivedAt : DateTime) : EStateM PyError Lake IngestionResult := do
  let raw ← Effect.ofExcept (RawRecord.create host reader market provider eventType providerSymbol receivedAt payload)
  ingestRaw host reader raw

/-- What `ingest` makes of a raw record of a candle: the candle that it stores, if any, or what it raises. -/
def settledRaw (raw : RawRecord) : Except PyError (Option CanonicalCandle) :=
  match canonicalOf host reader raw with
  | .error e => if e.rejection = none then .error e else .ok none
  | .ok canonical => .ok (if canonical.isSettled = false then none else some canonical)

/-- The same of a payload. -/
def settledOf (market : Market) (provider : Provider) (providerSymbol : String) (payload : Payload)
    (receivedAt : DateTime) : Except PyError (Option CanonicalCandle) := do
  let raw ← RawRecord.create host reader market provider .candle providerSymbol receivedAt payload
  settledRaw host reader raw

variable {host reader}

/-- The candle of a raw record is of its market, and its id is that of its market, symbol, timeframe and open time. -/
theorem of_canonicalOf {raw : RawRecord} {candle : CanonicalCandle} (h : canonicalOf host reader raw = .ok candle) :
    candle.market = raw.market ∧ candle.recordId =
      stableId host [candle.market.value, candle.symbol, candle.timeframe, isoformat candle.openTime] := by
  unfold canonicalOf at h
  obtain ⟨adapter, hadapter, h⟩ := Effect.except_bind_eq_ok.mp h
  unfold adapterFor at hadapter
  dsimp only at hadapter
  split_ifs at hadapter
  cases hadapter
  exact of_adapters h

theorem writeBronze_silver (lake : Lake) (recordId : String) : (lake.writeBronze recordId).2.silver = lake.silver := by
  unfold Lake.writeBronze
  split_ifs
  · rfl
  · rfl

theorem ingestRaw_ends {raw : RawRecord} (hcandle : raw.eventType = .candle) (lake : Lake) :
    Effect.Ends (ingestRaw host reader raw) lake
      (fun result lake' => ∃ candle, settledRaw host reader raw = .ok candle ∧
        lake'.silver = candle.toList.foldl insertSilver lake.silver ∧
        (result.canonical.filter fun c => c.isSettled) = candle ∧
        result.silverCreated = candle.any fun c => ¬ ∃ other ∈ lake.silver, other.key = c.key)
      fun e lake' => settledRaw host reader raw = .error e ∧ lake'.silver = lake.silver := by
  unfold Effect.Ends ingestRaw settledRaw
  simp only [hcandle, ne_eq, not_true_eq_false, if_false]
  cases hcanonical : canonicalOf host reader raw with
  | error e =>
    cases hreason : e.rejection with
    | some reason =>
      simp only [hreason]
      exact ⟨none, rfl, writeBronze_silver lake raw.recordId, rfl, rfl⟩
    | none =>
      simp only [hreason]
      exact ⟨rfl, writeBronze_silver lake raw.recordId⟩
  | ok canonical =>
    by_cases hsettled : canonical.isSettled = false
    · simp only [hsettled, if_true]
      exact ⟨none, rfl, writeBronze_silver lake raw.recordId, by simp [hsettled], rfl⟩
    · simp only [hsettled]
      refine ⟨some canonical, rfl, ?_, ?_, ?_⟩
      · show insertSilver (lake.writeBronze raw.recordId).2.silver canonical = _
        rw [writeBronze_silver]
        rfl
      · simpa [Option.filter] using hsettled
      · show decide (¬ ∃ other ∈ (lake.writeBronze raw.recordId).2.silver, other.key = canonical.key) = _
        rw [writeBronze_silver]
        rfl

/-- Everything that a call of `ingest` does to Silver for a candle: it stores the settled candle of the payload, or it
raises and stores nothing. -/
theorem ingest_ends {market : Market} {provider : Provider} {providerSymbol : String} {payload : Payload}
    {receivedAt : DateTime} (lake : Lake) :
    Effect.Ends (ingest host reader market provider .candle providerSymbol payload receivedAt) lake
      (fun result lake' => ∃ candle,
        settledOf host reader market provider providerSymbol payload receivedAt = .ok candle ∧
        lake'.silver = candle.toList.foldl insertSilver lake.silver ∧
        (result.canonical.filter fun c => c.isSettled) = candle ∧
        result.silverCreated = candle.any fun c => ¬ ∃ other ∈ lake.silver, other.key = c.key)
      fun e lake' => settledOf host reader market provider providerSymbol payload receivedAt = .error e ∧
        lake'.silver = lake.silver := by
  unfold ingest settledOf
  cases hraw : RawRecord.create host reader market provider .candle providerSymbol receivedAt payload with
  | error e => exact ⟨rfl, rfl⟩
  | ok raw =>
    have hcandle : raw.eventType = .candle := by
      unfold RawRecord.create at hraw
      obtain ⟨t, -, h⟩ := Effect.except_bind_eq_ok.mp hraw
      cases h
      rfl
    exact ingestRaw_ends hcandle lake

/-- A record that is not a candle leaves Silver alone. -/
theorem ingest_keeps_silver {market : Market} {provider : Provider} {eventType : EventType} (h : eventType ≠ .candle)
    {providerSymbol : String} {payload : Payload} {receivedAt : DateTime} :
    Effect.Keeps Lake.silver (ingest host reader market provider eventType providerSymbol payload receivedAt) := by
  intro lake
  unfold ingest
  cases hraw : RawRecord.create host reader market provider eventType providerSymbol receivedAt payload with
  | error e => rfl
  | ok raw =>
    have htype : raw.eventType = eventType := by
      unfold RawRecord.create at hraw
      obtain ⟨t, -, hraw⟩ := Effect.except_bind_eq_ok.mp hraw
      cases hraw
      rfl
    show (Effect.final (ingestRaw host reader raw lake)).silver = lake.silver
    unfold ingestRaw
    simp only [htype, if_pos h]
    exact writeBronze_silver lake raw.recordId

/-- The candle of a payload is settled and of the market it was received for. -/
theorem settledOf_ok {market : Market} {provider : Provider} {providerSymbol : String} {payload : Payload}
    {receivedAt : DateTime} {candle : CanonicalCandle}
    (h : settledOf host reader market provider providerSymbol payload receivedAt = .ok (some candle)) :
    candle.isSettled = true ∧ candle.market = market := by
  unfold settledOf at h
  obtain ⟨raw, hraw, h⟩ := Effect.except_bind_eq_ok.mp h
  have hmarket : raw.market = market := by
    unfold RawRecord.create at hraw
    obtain ⟨t, -, hraw⟩ := Effect.except_bind_eq_ok.mp hraw
    cases hraw
    rfl
  unfold settledRaw at h
  cases hcanonical : canonicalOf host reader raw with
  | error e =>
    rw [hcanonical] at h
    dsimp only at h
    split_ifs at h
    cases h
  | ok canonical =>
    rw [hcanonical] at h
    have h := Except.ok.inj h
    split_ifs at h with hsettled
    cases h
    refine ⟨by simpa using hsettled, ?_⟩
    exact (of_canonicalOf hcanonical).1.trans hmarket

end Ingest

/-! ### First writes -/

/-- What a sequence of writes leaves in Silver: what it had, and new candles under keys that it did not have. -/
theorem mem_foldl_insertSilver {silver candles : List CanonicalCandle} {candle : CanonicalCandle}
    (h : candle ∈ candles.foldl insertSilver silver) :
    candle ∈ silver ∨ candle ∈ candles ∧ ∀ other ∈ silver, other.key ≠ candle.key := by
  induction candles generalizing silver with
  | nil => exact Or.inl h
  | cons c cs ih =>
    have hstep : candle ∈ insertSilver silver c → candle ∈ silver ∨ candle ∈ c :: cs ∧
        ∀ other ∈ silver, other.key ≠ candle.key := by
      intro hmem
      unfold insertSilver at hmem
      split_ifs at hmem with hkey
      · exact Or.inl hmem
      · rcases List.mem_append.mp hmem with hmem | hmem
        · exact Or.inl hmem
        · obtain rfl := List.mem_singleton.mp hmem
          exact Or.inr ⟨List.mem_cons_self .., fun other hother heq => hkey ⟨other, hother, heq⟩⟩
    rcases ih h with hmem | ⟨hmem, hnew⟩
    · exact hstep hmem
    · refine Or.inr ⟨List.mem_cons_of_mem _ hmem, fun other hother => hnew other ?_⟩
      unfold insertSilver
      split_ifs
      · exact hother
      · exact List.mem_append_left _ hother

theorem mem_insertSilver_of_mem {silver : List CanonicalCandle} {candle : CanonicalCandle} (h : candle ∈ silver)
    (other : CanonicalCandle) : candle ∈ insertSilver silver other := by
  unfold insertSilver
  split_ifs
  · exact h
  · exact List.mem_append_left _ h

theorem mem_foldl_of_mem {silver : List CanonicalCandle} {candle : CanonicalCandle} (h : candle ∈ silver)
    (candles : List CanonicalCandle) : candle ∈ candles.foldl insertSilver silver := by
  induction candles generalizing silver with
  | nil => exact h
  | cons c cs ih => exact ih (mem_insertSilver_of_mem h c)

/-- Every candle that is written has its key in Silver afterwards. -/
theorem exists_key_foldl_insertSilver {candles : List CanonicalCandle} {candle : CanonicalCandle} (h : candle ∈ candles)
    (silver : List CanonicalCandle) : ∃ other ∈ candles.foldl insertSilver silver, other.key = candle.key := by
  induction candles generalizing silver with
  | nil => cases h
  | cons c cs ih =>
    rcases List.mem_cons.mp h with rfl | h
    · have hkey : ∃ other ∈ insertSilver silver candle, other.key = candle.key := by
        unfold insertSilver
        split_ifs with hold
        · exact hold
        · exact ⟨candle, List.mem_append_right _ (List.mem_singleton_self _), rfl⟩
      obtain ⟨other, hother, heq⟩ := hkey
      exact ⟨other, mem_foldl_of_mem hother cs, heq⟩
    · exact ih h _

/-- New candles of a sequence of writes have a property of their keys exactly if those written under new keys do. -/
theorem forall_new_iff {P : Market × String × String × Instant → Prop} {silver candles : List CanonicalCandle} :
    (∀ candle ∈ candles.foldl insertSilver silver, candle ∉ silver → P candle.key) ↔
      ∀ candle ∈ candles, (∀ other ∈ silver, other.key ≠ candle.key) → P candle.key := by
  constructor
  · intro h candle hcandle hnew
    obtain ⟨other, hother, heq⟩ := exists_key_foldl_insertSilver hcandle silver
    rw [← heq]
    exact h other hother fun hold => hnew other hold heq
  · intro h candle hcandle hnew
    rcases mem_foldl_insertSilver hcandle with hold | ⟨hmem, hkeys⟩
    · exact absurd hold hnew
    · exact h candle hmem hkeys

end NanoDelta
