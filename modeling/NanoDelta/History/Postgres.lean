import NanoDelta.History.Engine

/-!
# The history in PostgreSQL

`PostgresHistoryState` (`history/postgres.py`): the tables `control.provider_watermarks` and `control.history_runs`, by
their primary keys. What is covered is read off the candles of Silver.
-/

namespace NanoDelta.History

open Library

/-- A row of `control.provider_watermarks`, for the data set of candles: the watermark and when it was updated. -/
structure WatermarkRow where
  eventTimeWatermark : Instant
  updatedAt : Instant

/-- `PostgresHistoryState`. -/
structure PostgresHistoryState where
  watermarks : Dict (Market × Provider × String × String) WatermarkRow := .empty
  runs : Dict String HistoryRun := .empty

namespace PostgresHistoryState

variable (self : PostgresHistoryState)

/-- `covered`. -/
def covered (lake : Lake) (market : Market) (symbol timeframe : String) : List Instant :=
  (lake.silver.filter fun c => c.market = market ∧ c.symbol = symbol ∧ c.timeframe = timeframe ∧ c.isSettled = true).map
    CanonicalCandle.openTime

/-- `watermark`. -/
def watermark (market : Market) (provider : Provider) (symbol timeframe : String) : Option Watermark :=
  (self.watermarks.get? (market, provider, symbol, timeframe)).map fun row =>
    ⟨market, provider, symbol, timeframe, row.eventTimeWatermark, row.updatedAt⟩

/-- `commit_watermark`: `INSERT … ON CONFLICT … DO UPDATE SET event_time_watermark = GREATEST(…)`. -/
def commitWatermark (value : Watermark) : PostgresHistoryState :=
  let row : WatermarkRow :=
    match self.watermarks.get? value.key with
    | some current => ⟨max current.eventTimeWatermark value.eventTime, value.updatedAt⟩
    | none => ⟨value.eventTime, value.updatedAt⟩
  { self with watermarks := self.watermarks.set value.key row }

/-- `save_run`: `INSERT … ON CONFLICT (run_id) DO UPDATE`, which leaves what the run is of and when it started. -/
def saveRun (run : HistoryRun) : PostgresHistoryState :=
  let row :=
    match self.runs.get? run.runId with
    | some current => { run with
        market := current.market, symbol := current.symbol, timeframe := current.timeframe,
        startedAt := current.startedAt }
    | none => run
  { self with runs := self.runs.set run.runId row }

instance : HistoryStore PostgresHistoryState where
  covered lake _ := covered lake
  recordOpen self _ _ _ _ := self
  watermark := watermark
  commitWatermark := commitWatermark
  saveRun := saveRun

theorem time_eq (key : Market × Provider × String × String) :
    HistoryStore.time self key = (self.watermarks.get? key).map WatermarkRow.eventTimeWatermark := by
  show ((self.watermarks.get? key).map _).map _ = _
  rw [Option.map_map]
  rfl

/-- In the table, a watermark is the greatest of those that were committed. -/
theorem time_commitWatermark (value : Watermark) (key : Market × Provider × String × String) :
    HistoryStore.time (self.commitWatermark value) key =
      if key = value.key then some ((HistoryStore.time self key).elim value.eventTime fun t => max t value.eventTime)
      else HistoryStore.time self key := by
  rw [time_eq, time_eq]
  unfold commitWatermark
  dsimp only
  rw [Dict.get?_set]
  split_ifs with hkey
  · rw [hkey]
    cases self.watermarks.get? value.key with
    | none => rfl
    | some current => rfl
  · rfl

end PostgresHistoryState

instance : LawfulHistoryStore PostgresHistoryState where
  watermark_recordOpen _ _ _ _ _ _ _ _ _ := rfl
  watermark_saveRun _ _ _ _ _ _ := rfl
  time_commitWatermark := PostgresHistoryState.time_commitWatermark

end NanoDelta.History
