import NanoDelta.Pipeline
import NanoDelta.Providers.Registry

/-!
# The backfill engine

`BackfillEngine.sync` (`history/engine.py`): the candles of a job are requested window by window
from the providers of its route, in their order, until one of them has given a settled candle of
the job. Every row of a response goes through the pipeline before the engine looks at its time.

* `HistoryStore`: what the engine does with a store; `LawfulHistoryStore`: what its watermarks do.
* `fetchWindows_add`, `stop_lt_windows`: the loop over the windows ends.
-/

namespace NanoDelta.History

open Library Providers

/-! ### Jobs and runs -/

/-- `HistoryJob`, its window overrides as one value. -/
structure HistoryJob where
  market : Market
  symbol : String
  timeframe : String
  providerSymbols : Dict Provider String
  targetDays : ℤ := 730
  overlapBars : ℤ := 3
  requestLimit : ℤ := 1000
  window : Option (Instant × Instant) := none
  /-- The length of a bar. -/
  step : ℤ
  step_eq : timeframeDelta timeframe = .ok step
  settings : symbol ≠ "" ∧ 1 ≤ targetDays ∧ 0 ≤ overlapBars
  window_lt : ∀ w ∈ window, w.1 < w.2

/-- The constructor of `HistoryJob`, with the checks of `__post_init__` in their order. -/
def HistoryJob.create (market : Market) (symbol timeframe : String) (providerSymbols : Dict Provider String)
    (targetDays overlapBars requestLimit : ℤ) (windowStart windowEnd : Option DateTime) : Except PyError HistoryJob :=
  match hstep : timeframeDelta timeframe with
  | .error e => .error e
  | .ok step =>
    if hsettings : symbol = "" ∨ targetDays < 1 ∨ overlapBars < 0 then
      .error (.valueError "history job settings are invalid")
    else
      have settings : symbol ≠ "" ∧ 1 ≤ targetDays ∧ 0 ≤ overlapBars := by
        obtain ⟨h₁, h₂, h₃⟩ := by simpa [not_or] using hsettings
        exact ⟨h₁, h₂, h₃⟩
      match windowStart, windowEnd with
      | none, none => .ok
          { market, symbol, timeframe, providerSymbols, targetDays, overlapBars, requestLimit, step, step_eq := hstep,
            settings, window_lt := by simp }
      | some windowStart, some windowEnd => do
        let start ← utc windowStart "window_start"
        let stop ← utc windowEnd "window_end"
        if hwindow : start < stop then
          return { market, symbol, timeframe, providerSymbols, targetDays, overlapBars, requestLimit,
                   window := some (start, stop), step, step_eq := hstep, settings, window_lt := by simpa using hwindow }
        else throw (.valueError "history window start must be before end")
      | _, _ => .error (.valueError "both history window overrides are required")

theorem HistoryJob.step_pos (job : HistoryJob) : 0 < job.step := by
  obtain ⟨n, hn, hstep⟩ := timeframeDelta_ok job.step_eq
  rw [hstep]
  unfold seconds
  positivity

/-- `HistoryRunState`. -/
inductive HistoryRunState where
  | running
  | succeeded
  | failed
  deriving DecidableEq

/-- `Watermark`. -/
structure Watermark where
  market : Market
  provider : Provider
  symbol : String
  timeframe : String
  eventTime : Instant
  updatedAt : Instant

/-- `HistoryRun`. -/
structure HistoryRun where
  runId : String
  market : Market
  symbol : String
  timeframe : String
  state : HistoryRunState
  startedAt : Instant
  finishedAt : Option Instant
  provider : Option Provider
  rowsReceived : ℕ
  bronzeCreated : ℕ
  silverCreated : ℕ
  error : Option String

/-- `InMemoryHistoryState`. -/
structure HistoryState where
  watermarks : Dict (Market × Provider × String × String) Watermark := .empty
  coverage : Dict (Market × String × String) (List Instant) := .empty
  runs : Dict String HistoryRun := .empty

/-- `record_open`. -/
def HistoryState.recordOpen (self : HistoryState) (market : Market) (symbol timeframe : String) (opened : Instant) :
    HistoryState :=
  let opens := (self.coverage.get? (market, symbol, timeframe)).getD []
  { self with coverage := self.coverage.set (market, symbol, timeframe) (opens.insert opened) }

/-- `commit_watermark`: a watermark does not go back. -/
def HistoryState.commitWatermark (self : HistoryState) (value : Watermark) : HistoryState :=
  let key := (value.market, value.provider, value.symbol, value.timeframe)
  match self.watermarks.get? key with
  | some current =>
    if current.eventTime ≤ value.eventTime then { self with watermarks := self.watermarks.set key value } else self
  | none => { self with watermarks := self.watermarks.set key value }

/-- `save_run`. -/
def HistoryState.saveRun (self : HistoryState) (run : HistoryRun) : HistoryState :=
  { self with runs := self.runs.set run.runId run }

/-- `covered`. -/
def HistoryState.covered (self : HistoryState) (market : Market) (symbol timeframe : String) : List Instant :=
  (self.coverage.get? (market, symbol, timeframe)).getD []

/-- The protocol that the engine is written against, `HistoryState` in the source. -/
class HistoryStore (σ : Type) where
  /-- The opens that are covered; a store may read them off the lake. -/
  covered : Lake → σ → Market → String → String → List Instant
  recordOpen : σ → Market → String → String → Instant → σ
  watermark : σ → Market → Provider → String → String → Option Watermark
  commitWatermark : σ → Watermark → σ
  saveRun : σ → HistoryRun → σ

instance : HistoryStore HistoryState where
  covered _ := HistoryState.covered
  recordOpen := HistoryState.recordOpen
  watermark self market provider symbol timeframe := self.watermarks.get? (market, provider, symbol, timeframe)
  commitWatermark := HistoryState.commitWatermark
  saveRun := HistoryState.saveRun

/-- The event time of a watermark, by market, provider, symbol and timeframe. -/
def HistoryStore.time {σ : Type} [HistoryStore σ] (self : σ) (key : Market × Provider × String × String) :
    Option Instant :=
  (HistoryStore.watermark self key.1 key.2.1 key.2.2.1 key.2.2.2).map Watermark.eventTime

/-- The key of a watermark. -/
def Watermark.key (value : Watermark) : Market × Provider × String × String :=
  (value.market, value.provider, value.symbol, value.timeframe)

/-- A store whose watermarks do not go back, and change only by `commit_watermark`. -/
class LawfulHistoryStore (σ : Type) [HistoryStore σ] : Prop where
  watermark_recordOpen : ∀ (self : σ) (market market' : Market) (provider : Provider)
    (symbol timeframe symbol' timeframe' : String) (opened : Instant),
    HistoryStore.watermark (HistoryStore.recordOpen self market symbol timeframe opened) market' provider symbol'
      timeframe' = HistoryStore.watermark self market' provider symbol' timeframe'
  watermark_saveRun : ∀ (self : σ) (run : HistoryRun) (market : Market) (provider : Provider) (symbol timeframe : String),
    HistoryStore.watermark (HistoryStore.saveRun self run) market provider symbol timeframe =
      HistoryStore.watermark self market provider symbol timeframe
  time_commitWatermark : ∀ (self : σ) (value : Watermark) (key : Market × Provider × String × String),
    HistoryStore.time (HistoryStore.commitWatermark self value) key =
      if key = value.key then some ((HistoryStore.time self key).elim value.eventTime fun t => max t value.eventTime)
      else HistoryStore.time self key

/-- In memory, a later watermark replaces an earlier one. -/
theorem HistoryState.time_commitWatermark (self : HistoryState) (value : Watermark)
    (key : Market × Provider × String × String) :
    HistoryStore.time (self.commitWatermark value) key =
      if key = value.key then some ((HistoryStore.time self key).elim value.eventTime fun t => max t value.eventTime)
      else HistoryStore.time self key := by
  have htime : ∀ state : HistoryState, HistoryStore.time state key = (state.watermarks.get? key).map Watermark.eventTime :=
    fun _ => rfl
  have hcommit : (self.commitWatermark value).watermarks =
      match self.watermarks.get? value.key with
      | some current =>
        if current.eventTime ≤ value.eventTime then self.watermarks.set value.key value else self.watermarks
      | none => self.watermarks.set value.key value := by
    unfold HistoryState.commitWatermark Watermark.key
    dsimp only
    split
    · split_ifs <;> rfl
    · rfl
  rw [htime, htime, hcommit]
  by_cases hkey : key = value.key
  · subst hkey
    rw [if_pos rfl]
    cases hcurrent : self.watermarks.get? value.key with
    | none => rw [Dict.get?_set, if_pos rfl, Option.map_some, Option.map_none, Option.elim_none]
    | some current =>
      rw [Option.map_some, Option.elim_some]
      dsimp only
      split_ifs with hle
      · rw [Dict.get?_set, if_pos rfl, Option.map_some, max_eq_right hle]
      · rw [hcurrent, Option.map_some, max_eq_left (not_le.mp hle).le]
  · rw [if_neg hkey]
    split
    · split_ifs
      · rw [Dict.get?_set, if_neg hkey]
      · rfl
    · rw [Dict.get?_set, if_neg hkey]

instance : LawfulHistoryStore HistoryState where
  watermark_recordOpen _ _ _ _ _ _ _ _ _ := rfl
  watermark_saveRun _ _ _ _ _ _ := rfl
  time_commitWatermark := HistoryState.time_commitWatermark

/-- What a run reads and writes: the lake and the state of the history. -/
structure World (σ : Type := HistoryState) where
  lake : Lake := {}
  state : σ

instance : EmptyCollection World := ⟨{ state := {} }⟩

/-- `BackfillEngine`, without its pipeline, its state and its calendars. -/
structure BackfillEngine where
  registry : ProviderRegistry
  clients : Dict Provider HistoricalClient

/-! ### One provider -/

section Sync

variable {σ : Type} [HistoryStore σ]
variable (host : Host) (reader : Reader) (engine : BackfillEngine) (job : HistoryJob) (now : Instant)

/-- What a run counts while it reads a provider. -/
structure Tally where
  rowsReceived : ℕ := 0
  bronze : ℕ := 0
  silver : ℕ := 0
  settledOpens : List Instant := []

/-- The client of a provider and the symbol it is asked for, or why the provider is passed over. -/
def BackfillEngine.clientOf (provider : Provider) : Except String (HistoricalClient × String) :=
  match engine.clients.get? provider, job.providerSymbols.get? provider with
  | some client, some providerSymbol =>
    if client.market ≠ job.market ∨ client.provider ≠ provider then .error (provider.value ++ ": ownership mismatch")
    else .ok (client, providerSymbol)
  | _, _ => .error (provider.value ++ ": unavailable")

/-- The open of the last bar that a run asks for. -/
def HistoryJob.stop : Except PyError Instant := do
  let settled ← lastSettledOpen (.aware now) job.timeframe
  return match job.window with
    | some window => min window.2 settled
    | none => settled

/-- The open of the first bar that a run asks a provider for. -/
def HistoryJob.start (stop : Instant) (watermark : Option Watermark) : Instant :=
  match job.window with
  | some window => window.1
  | none =>
    let targetStart := stop - seconds (86400 * job.targetDays)
    match watermark with
    | some watermark => max targetStart (watermark.eventTime - job.step * job.overlapBars)
    | none => targetStart

/-- A settled candle is of the job, and in its window. -/
def HistoryJob.Matches (start stop : Instant) (candle : CanonicalCandle) : Prop :=
  candle.symbol = job.symbol ∧ candle.timeframe = job.timeframe ∧ start ≤ candle.openTime ∧ candle.openTime ≤ stop

instance (start stop : Instant) (candle : CanonicalCandle) : Decidable (job.Matches start stop candle) :=
  inferInstanceAs (Decidable (_ ∧ _ ∧ _ ∧ _))

section Provider

variable (provider : Provider) (client : HistoricalClient) (providerSymbol : String) (start stop : Instant)

/-- One row of a response. -/
def ingestRow (tally : Tally) (payload : Payload) : EStateM PyError (World σ) Tally := do
  let result ← Effect.focus World.lake (fun w lake => { w with lake := lake })
    (ingest host reader job.market provider .candle providerSymbol payload (.aware now))
  let tally := { tally with
    bronze := tally.bronze + result.bronzeCreated.toNat, silver := tally.silver + result.silverCreated.toNat }
  match result.canonical.filter fun candle => candle.isSettled with
  | some candle =>
    if job.Matches start stop candle then
      modify fun w => { w with state := HistoryStore.recordOpen w.state job.market job.symbol job.timeframe candle.openTime }
      return { tally with settledOpens := tally.settledOpens ++ [candle.openTime] }
    else return tally
  | none => return tally

/-- The end of the window that begins at the cursor. -/
def HistoryJob.windowEnd (cursor : Instant) : Instant := min (stop + job.step) (cursor + job.step * job.requestLimit)

/-- The response to the request for the window that begins at the cursor. -/
def HistoryJob.response (cursor : Instant) : Except PyError (List Payload) := do
  let request ← HistoricalRequest.create providerSymbol job.timeframe cursor (job.windowEnd stop cursor) job.requestLimit
  client.fetchCandles request

/-- The loop over the windows, for a number of steps. -/
def fetchWindows : ℕ → Instant → Tally → EStateM PyError (World σ) Tally
  | 0, _, tally => pure tally
  | n + 1, cursor, tally =>
    if cursor ≤ stop then do
      let rows ← Effect.ofExcept (job.response client providerSymbol stop cursor)
      let tally := { tally with rowsReceived := tally.rowsReceived + rows.length }
      let tally ← rows.foldlM (ingestRow host reader job now provider providerSymbol start stop) tally
      fetchWindows n (job.windowEnd stop cursor) tally
    else pure tally

/-- As many steps as the loop over the windows can take. -/
def HistoryJob.windows : ℕ := ((stop - start) / job.step + 2).toNat

/-- The body of the `try` of `sync`: the run if the provider gave a settled candle of the job, or else why not. -/
def syncProvider (run : HistoryRun) (finishedAt : Instant) : EStateM PyError (World σ) (Except String HistoryRun) := do
  let tally ← fetchWindows host reader job now provider client providerSymbol start stop (job.windows start stop) start {}
  match tally.settledOpens with
  | [] => return .error (provider.value ++ ": no matching settled candles")
  | opened :: opens =>
    let watermark : Watermark := ⟨job.market, provider, job.symbol, job.timeframe, opens.foldl max opened, now⟩
    modify fun w => { w with state := HistoryStore.commitWatermark w.state watermark }
    let run := { run with
      state := .succeeded, finishedAt := some finishedAt, provider := some provider,
      rowsReceived := tally.rowsReceived, bronzeCreated := tally.bronze, silverCreated := tally.silver }
    modify fun w => { w with state := HistoryStore.saveRun w.state run }
    return .ok run

end Provider

/-! ### The run -/

/-- The watermark of a provider for the job. -/
def World.watermark (w : World σ) (provider : Provider) : Option Watermark :=
  HistoryStore.watermark w.state job.market provider job.symbol job.timeframe

/-- The loop over the providers, with the texts of the errors so far. -/
def syncProviders (stop : Instant) (run : HistoryRun) (finishedAt : Instant) :
    List Provider → List String → EStateM PyError (World σ) HistoryRun
  | [], errors => do
    let run := { run with
      state := .failed, finishedAt := some finishedAt, error := some ("; ".intercalate errors) }
    modify fun w => { w with state := HistoryStore.saveRun w.state run }
    return run
  | provider :: providers, errors =>
    match engine.clientOf job provider with
    | .error text => syncProviders stop run finishedAt providers (errors ++ [text])
    | .ok (client, providerSymbol) => do
      let start := job.start stop ((← get).watermark job provider)
      let attempt ← tryCatch (syncProvider host reader job now provider client providerSymbol start stop run finishedAt)
        fun e =>
          if e = .killed then throw e
          else return .error (provider.value ++ ": " ++ e.typeName ++ ": " ++ e.text)
      match attempt with
      | .ok run => return run
      | .error text => syncProviders stop run finishedAt providers (errors ++ [text])

/-- What `sync` reads before it tries a provider: the time, the last open, and the route. -/
def BackfillEngine.plan (now : DateTime) : Except PyError (Instant × Instant × List Provider) := do
  let now ← utc now "now"
  let stop ← job.stop now
  let route ← engine.registry.route job.market .historicalCandles
  return (now, stop, route)

/-- `BackfillEngine.sync`, with the two readings of the clock. -/
def sync (now : DateTime) (startedAt finishedAt : Instant) : EStateM PyError (World σ) HistoryRun := do
  let (now, stop, route) ← Effect.ofExcept (engine.plan job now)
  let runId := stableId host [job.market.value, job.symbol, job.timeframe, isoformat now]
  let run : HistoryRun :=
    ⟨runId, job.market, job.symbol, job.timeframe, .running, startedAt, none, none, 0, 0, 0, none⟩
  modify fun w => { w with state := HistoryStore.saveRun w.state run }
  syncProviders host reader engine job now stop run finishedAt route []

/-! ### Repair -/

/-- `replace(job, window_start=…, window_end=…)`, with the check of `__post_init__`. -/
def HistoryJob.within (window : Instant × Instant) : Except PyError HistoryJob :=
  if hwindow : window.1 < window.2 then
    .ok { job with window := some window, window_lt := by simpa using hwindow }
  else .error (.valueError "history window start must be before end")

/-- The gaps in groups of adjacent bars: the first gap of each group and the others. -/
def gapGroups (step : Instant) : List Instant → List (Instant × List Instant)
  | [] => []
  | gap :: gaps =>
    match gapGroups step gaps with
    | [] => [(gap, [])]
    | (next, more) :: groups =>
      if next = gap + step then (gap, next :: more) :: groups else (gap, []) :: (next, more) :: groups

/-- `now + timedelta(microseconds=index)`. -/
def later (index : ℕ) : DateTime → DateTime
  | .naive wall => .naive (wall + index)
  | .aware t => .aware (t + index)

/-- The job that repairs a group. -/
def HistoryJob.repairing (group : Instant × List Instant) : Except PyError HistoryJob :=
  job.within (group.1, group.2.getLastD group.1 + job.step)

/-- The body of the loop of `repair`, for a group and its place. -/
def repairGroup (now : DateTime) (clock : ℕ → Instant × Instant) (group : (Instant × List Instant) × ℕ) :
    EStateM PyError (World σ) HistoryRun := do
  let repairJob ← Effect.ofExcept (job.repairing group.1)
  let run ← sync host reader engine repairJob (later group.2 now) (clock group.2).1 (clock group.2).2
  let w ← get
  let covered := HistoryStore.covered w.lake w.state job.market job.symbol job.timeframe
  let remaining := (group.1.1 :: group.1.2).filter (· ∉ covered)
  if remaining ≠ [] ∧ run.state = .succeeded then do
    let run := { run with
      state := .failed, error := some ("targeted gaps remain: " ++ toString remaining.length) }
    modify fun w => { w with state := HistoryStore.saveRun w.state run }
    return run
  else return run

/-- The groups of `repair`, with their places. -/
def HistoryJob.groups (gaps : List DateTime) : Except PyError (List ((Instant × List Instant) × ℕ)) := do
  let ordered ← gaps.mapM fun gap => utc gap "gap"
  return (gapGroups job.step (ordered.dedup.insertionSort (· ≤ ·))).zipIdx

/-- `BackfillEngine.repair`, with the readings of the clock. -/
def repair (gaps : List DateTime) (now : DateTime) (clock : ℕ → Instant × Instant) :
    EStateM PyError (World σ) (List HistoryRun) := do
  let groups ← Effect.ofExcept (job.groups gaps)
  Effect.each (repairGroup host reader engine job now clock) groups

end Sync

/-! ### The loop over the windows ends -/

section Windows

variable {σ : Type} [HistoryStore σ]
variable {host : Host} {reader : Reader} {job : HistoryJob} {now : Instant} {provider : Provider}
  {client : HistoricalClient} {providerSymbol : String} {start stop : Instant}

/-- A window that is requested is at least one bar long. -/
theorem windowEnd_of_response {cursor : Instant} {rows : List Payload} (hcursor : cursor ≤ stop)
    (h : job.response client providerSymbol stop cursor = .ok rows) : cursor + job.step ≤ job.windowEnd stop cursor := by
  obtain ⟨request, hrequest, -⟩ := Effect.except_bind_eq_ok.mp h
  unfold HistoricalRequest.create at hrequest
  split_ifs at hrequest with _ _ hlimit
  have hstep := job.step_pos
  have hbars : job.step * 1 ≤ job.step * job.requestLimit :=
    mul_le_mul_of_nonneg_left (by omega) hstep.le
  refine le_min ?_ ?_
  · linarith
  · linarith

/-- More steps than bars from the cursor to the end do not change what the loop does: it has ended. -/
theorem fetchWindows_add {n : ℕ} {cursor : Instant} (hn : stop < cursor + n * job.step) (k : ℕ) (tally : Tally) :
    fetchWindows (σ := σ) host reader job now provider client providerSymbol start stop (n + k) cursor tally =
      fetchWindows host reader job now provider client providerSymbol start stop n cursor tally := by
  induction n generalizing cursor tally with
  | zero =>
    rw [Nat.cast_zero, zero_mul, add_zero] at hn
    cases k with
    | zero => rfl
    | succ k => rw [Nat.zero_add, fetchWindows, fetchWindows, if_neg (not_le.mpr hn)]
  | succ n ih =>
    rw [Nat.succ_add, fetchWindows, fetchWindows]
    split_ifs with hcursor
    · cases hresponse : job.response client providerSymbol stop cursor with
      | error e => rfl
      | ok rows =>
        have hwindow := windowEnd_of_response hcursor hresponse
        have hrest : stop < job.windowEnd stop cursor + n * job.step := by
          push_cast at hn
          linarith
        simp only [ih hrest]
    · rfl

/-- The engine takes enough steps. -/
theorem stop_lt_windows : stop < start + job.windows start stop * job.step := by
  have hstep := job.step_pos
  have hdiv : stop - start < job.step * ((stop - start) / job.step) + job.step := Int.lt_mul_ediv_self_add hstep
  have hcast : (stop - start) / job.step + 2 ≤ ((job.windows start stop : ℕ) : ℤ) := Int.self_le_toNat _
  have hmul := mul_le_mul_of_nonneg_left hcast hstep.le
  linarith

end Windows

end NanoDelta.History
