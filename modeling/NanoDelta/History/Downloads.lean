import NanoDelta.History.Stored
import NanoDelta.Library.Tiles

/-!
# The windows of a download

The loop of `BackfillEngine.sync` over the windows of a job. `download` is the loop with a note of the requests that it
sends; it is nothing as long as the loop has not ended.

* `download_ends`: the loop ends, whatever the limit is.
* `windows_tile`: what the windows of the requests are, and that of a limit that no request has nothing is downloaded.
-/

namespace NanoDelta.History

open Library Providers

section Download

variable {σ : Type} [HistoryStore σ]
variable (host : Host) (reader : Reader) (job : HistoryJob) (now : Instant) (provider : Provider)
  (client : HistoricalClient) (providerSymbol : String) (start stop : Instant)

/-- The requests that the loop over the windows sends in a number of steps, and how it ends if it ends in these. -/
def downloadFrom : ℕ → Instant → Tally → World σ →
    List HistoricalRequest × Option (EStateM.Result PyError (World σ) Tally)
  | 0, _, _, _ => ([], none)
  | n + 1, cursor, tally, w =>
    if cursor ≤ stop then
      match HistoricalRequest.create providerSymbol job.timeframe cursor (job.windowEnd stop cursor) job.requestLimit with
      | .error e => ([], some (.error e w))
      | .ok request =>
        match client.fetchCandles request with
        | .error e => ([request], some (.error e w))
        | .ok rows =>
          match rows.foldlM (ingestRow host reader job now provider providerSymbol start stop)
              { tally with rowsReceived := tally.rowsReceived + rows.length } w with
          | .error e w' => ([request], some (.error e w'))
          | .ok tally' w' =>
            let rest := downloadFrom n (job.windowEnd stop cursor) tally' w'
            (request :: rest.1, rest.2)
    else ([], some (.ok tally w))

/-- The loop over the windows of a job, with the requests that it sends. -/
def download (w : World σ) : List HistoricalRequest × Option (EStateM.Result PyError (World σ) Tally) :=
  downloadFrom host reader job now provider client providerSymbol start stop (job.windows start stop + 1) start {} w

/-- The window of a request. -/
def window (request : HistoricalRequest) : Instant × Instant := (request.start, request.stop)

/-- How far the windows reach. -/
def HistoryJob.reached : Instant :=
  min (stop + job.step) (start + job.step * job.requestLimit * ((stop - start) / (job.step * job.requestLimit) + 1))

end Download

section Loop

variable {σ : Type} [HistoryStore σ]
variable {host : Host} {reader : Reader} {job : HistoryJob} {now : Instant} {provider : Provider}
  {client : HistoricalClient} {providerSymbol : String} {start stop : Instant}

/-- A window that is requested is at least one bar long. -/
theorem step_le_of_create {cursor : Instant} {request : HistoricalRequest} (hcursor : cursor ≤ stop)
    (h : HistoricalRequest.create providerSymbol job.timeframe cursor (job.windowEnd stop cursor) job.requestLimit =
      .ok request) :
    cursor + job.step ≤ job.windowEnd stop cursor ∧ window request = (cursor, job.windowEnd stop cursor) ∧
      1 ≤ job.requestLimit ∧ request.limit = job.requestLimit := by
  unfold HistoricalRequest.create at h
  split_ifs at h with _ _ hlimit
  obtain rfl := Except.ok.inj h
  have hstep := job.step_pos
  have hbars : job.step * 1 ≤ job.step * job.requestLimit := mul_le_mul_of_nonneg_left (by omega) hstep.le
  refine ⟨le_min ?_ ?_, rfl, by omega, rfl⟩
  · linarith
  · linarith

/-- One step of the loop, at a window: it raises, or it goes on after the window. -/
theorem window_cases {cursor : Instant} (hcursor : cursor ≤ stop) (tally : Tally) (w : World σ) :
    (∃ requests e w', (∀ request ∈ requests, HistoricalRequest.create providerSymbol job.timeframe cursor
          (job.windowEnd stop cursor) job.requestLimit = .ok request) ∧ requests.length ≤ 1 ∧
        (∀ n, fetchWindows host reader job now provider client providerSymbol start stop (n + 1) cursor tally w =
          .error e w') ∧
        ∀ n, downloadFrom host reader job now provider client providerSymbol start stop (n + 1) cursor tally w =
          (requests, some (.error e w'))) ∨
    ∃ request tally' w', HistoricalRequest.create providerSymbol job.timeframe cursor (job.windowEnd stop cursor)
          job.requestLimit = .ok request ∧
        (∀ n, fetchWindows host reader job now provider client providerSymbol start stop (n + 1) cursor tally w =
          fetchWindows host reader job now provider client providerSymbol start stop n (job.windowEnd stop cursor) tally' w') ∧
        ∀ n, downloadFrom host reader job now provider client providerSymbol start stop (n + 1) cursor tally w =
          (request :: (downloadFrom host reader job now provider client providerSymbol start stop n
              (job.windowEnd stop cursor) tally' w').1,
            (downloadFrom host reader job now provider client providerSymbol start stop n
              (job.windowEnd stop cursor) tally' w').2) := by
  simp only [fetchWindows, downloadFrom, if_pos hcursor, HistoryJob.response]
  cases hcreate : HistoricalRequest.create providerSymbol job.timeframe cursor (job.windowEnd stop cursor)
      job.requestLimit with
  | error e =>
    exact Or.inl ⟨[], e, w, fun _ h => absurd h List.not_mem_nil, Nat.zero_le _, fun _ => rfl, fun _ => rfl⟩
  | ok request =>
    have hmem : ∀ request' ∈ [request], (Except.ok request : Except PyError HistoricalRequest) = .ok request' :=
      List.forall_mem_singleton.mpr rfl
    dsimp only
    cases hfetch : client.fetchCandles request with
    | error e =>
      have hbind : (Except.ok request >>= client.fetchCandles) = .error e := hfetch
      rw [hbind]
      exact Or.inl ⟨[request], e, w, hmem, le_rfl, fun _ => rfl, fun _ => rfl⟩
    | ok rows =>
      have hbind : (Except.ok request >>= client.fetchCandles) = .ok rows := hfetch
      rw [hbind]
      cases hrows : rows.foldlM (ingestRow host reader job now provider providerSymbol start stop)
          { tally with rowsReceived := tally.rowsReceived + rows.length } w with
      | error e w' =>
        refine Or.inl ⟨[request], e, w', hmem, le_rfl, fun _ => ?_, fun _ => ?_⟩
        · exact (Effect.bind_of_ok rfl _).trans (Effect.bind_of_error hrows _)
        · dsimp only
          rw [hrows]
      | ok tally' w' =>
        refine Or.inr ⟨request, tally', w', rfl, fun _ => ?_, fun _ => ?_⟩
        · exact (Effect.bind_of_ok rfl _).trans (Effect.bind_of_ok hrows _)
        · dsimp only
          rw [hrows]

/-- **The loop ends.** More steps than bars change nothing, and what the loop does is what the engine does. -/
theorem downloadFrom_ends {n : ℕ} {cursor : Instant} (hn : stop < cursor + n * job.step) (tally : Tally) (w : World σ) :
    ∃ requests r, fetchWindows host reader job now provider client providerSymbol start stop n cursor tally w = r ∧
      ∀ k, downloadFrom host reader job now provider client providerSymbol start stop (n + k + 1) cursor tally w =
        (requests, some r) := by
  induction n generalizing cursor tally w with
  | zero =>
    rw [Nat.cast_zero, zero_mul, add_zero] at hn
    refine ⟨[], _, rfl, ?_⟩
    intro k
    rw [downloadFrom, if_neg (not_le.mpr hn)]
    rfl
  | succ n ih =>
    have hfuel : ∀ k, n + 1 + k + 1 = n + k + 1 + 1 := by omega
    simp only [hfuel]
    by_cases hcursor : cursor ≤ stop
    · rcases @window_cases σ _ host reader job now provider client providerSymbol start stop cursor hcursor tally w with
        ⟨requests, e, w', -, -, hfetch, hdownload⟩ | ⟨request, tally', w', hcreate, hfetch, hdownload⟩
      · exact ⟨requests, _, hfetch n, fun k => hdownload _⟩
      · have hrest : stop < job.windowEnd stop cursor + n * job.step := by
          have hwindow := (step_le_of_create hcursor hcreate).1
          push_cast at hn
          linarith
        obtain ⟨requests, r, hloop, hends⟩ := ih hrest tally' w'
        refine ⟨request :: requests, r, (hfetch n).trans hloop, ?_⟩
        intro k
        rw [hdownload, hends k]
    · refine ⟨[], _, rfl, ?_⟩
      intro k
      rw [downloadFrom, if_neg hcursor, fetchWindows, if_neg hcursor]
      rfl

/-! ### Windows that are requested -/

/-- How far the windows reach does not change from a window to the next one. -/
theorem reached_windowEnd {cursor : Instant} (hlimit : 1 ≤ job.requestLimit) (hcursor : cursor ≤ stop) :
    cursor < job.windowEnd stop cursor ∧ job.windowEnd stop cursor ≤ job.reached cursor stop ∧
      if job.windowEnd stop cursor ≤ stop then job.reached (job.windowEnd stop cursor) stop = job.reached cursor stop
      else job.windowEnd stop cursor = job.reached cursor stop := by
  have hstep := job.step_pos
  have hsize : 0 < job.step * job.requestLimit := mul_pos hstep (by omega)
  unfold HistoryJob.windowEnd HistoryJob.reached
  generalize job.step * job.requestLimit = size at *
  generalize job.step = step at *
  rcases le_or_gt (cursor + size) stop with hnext | hnext
  · have hdiv : (stop - (cursor + size)) / size = (stop - cursor) / size - 1 := by
      rw [show stop - (cursor + size) = stop - cursor - 1 * size by ring, Int.sub_mul_ediv_right _ _ hsize.ne']
    have hmin : min (stop + step) (cursor + size) = cursor + size := min_eq_right (by linarith)
    have hnonneg := mul_nonneg hsize.le (Int.ediv_nonneg (show 0 ≤ stop - cursor by linarith) hsize.le)
    rw [hmin, if_pos hnext, hdiv]
    refine ⟨by linarith, le_min (by linarith) (by linarith), ?_⟩
    congr 1
    ring
  · have hdiv : (stop - cursor) / size = 0 := Int.ediv_eq_zero_of_lt (by linarith) (by linarith)
    rw [hdiv, zero_add, mul_one, if_neg (not_le.mpr (lt_min (by linarith) hnext))]
    exact ⟨lt_min (by linarith) (by linarith), le_rfl, rfl⟩

/-- **The windows of a download** follow each other from the cursor on, and unless something raised they reach as far as
they are to. -/
theorem downloadFrom_tiles (n : ℕ) {cursor : Instant} (hlimit : 1 ≤ job.requestLimit) (hcursor : cursor ≤ stop)
    (tally : Tally) (w : World σ) {requests : List HistoricalRequest} {r : EStateM.Result PyError (World σ) Tally}
    (h : downloadFrom host reader job now provider client providerSymbol start stop n cursor tally w = (requests, some r)) :
    ∃ upTo ≤ job.reached cursor stop, Tiles upTo cursor (requests.map window) ∧
      (∀ tally' w', r = .ok tally' w' → upTo = job.reached cursor stop) := by
  induction n generalizing cursor tally w requests with
  | zero => cases h
  | succ n ih =>
    obtain ⟨hlt, hle, hreached⟩ := reached_windowEnd hlimit hcursor
    rcases @window_cases σ _ host reader job now provider client providerSymbol start stop cursor hcursor tally w with
      ⟨requests', e, w', hcreate, hlength, -, hdownload⟩ | ⟨request, tally', w', hcreate, -, hdownload⟩
    · rw [hdownload] at h
      obtain ⟨rfl, rfl⟩ : requests' = requests ∧ .error e w' = r := by simpa using h
      have hnot : ∀ (tally' : Tally) (w'' : World σ),
          (EStateM.Result.error e w' : EStateM.Result PyError (World σ) Tally) ≠ .ok tally' w'' := fun _ _ => nofun
      match requests' with
      | [] => exact ⟨cursor, hlt.le.trans hle, rfl, fun tally' w'' h => absurd h (hnot tally' w'')⟩
      | [request] =>
        have hwindow := (step_le_of_create hcursor (hcreate request (by simp))).2.1
        refine ⟨job.windowEnd stop cursor, hle, ?_, fun tally' w'' h => absurd h (hnot tally' w'')⟩
        rw [List.map_singleton, hwindow]
        exact ⟨rfl, hlt, rfl⟩
      | _ :: _ :: _ => simp at hlength
    · rw [hdownload] at h
      have hwindow := (step_le_of_create hcursor hcreate).2.1
      cases hrest : downloadFrom host reader job now provider client providerSymbol start stop n (job.windowEnd stop cursor)
          tally' w' with
      | mk requests' r' =>
        rw [hrest] at h
        obtain ⟨rfl, rfl⟩ : request :: requests' = requests ∧ r' = some r := by simpa using h
        rw [List.map_cons, hwindow]
        split_ifs at hreached with hnext
        · obtain ⟨upTo, hupTo, htiles, hok⟩ := ih hnext tally' w' hrest
          rw [hreached] at hupTo hok
          exact ⟨upTo, hupTo, ⟨rfl, hlt, htiles⟩, hok⟩
        · cases n with
          | zero => cases hrest
          | succ n =>
            rw [downloadFrom, if_neg hnext] at hrest
            cases hrest
            exact ⟨job.windowEnd stop cursor, hle, ⟨rfl, hlt, rfl⟩, fun _ _ _ => hreached⟩

/-- Each request is for the window at a cursor. -/
theorem create_of_mem_downloadFrom {n : ℕ} {cursor : Instant} {tally : Tally} {w : World σ} :
    ∀ request ∈ (downloadFrom host reader job now provider client providerSymbol start stop n cursor tally w).1,
      ∃ cursor', HistoricalRequest.create providerSymbol job.timeframe cursor' (job.windowEnd stop cursor')
        job.requestLimit = .ok request ∧ cursor' ≤ stop := by
  induction n generalizing cursor tally w with
  | zero => exact fun _ h => (nomatch h)
  | succ n ih =>
    by_cases hcursor : cursor ≤ stop
    · rcases @window_cases σ _ host reader job now provider client providerSymbol start stop cursor hcursor tally w with
        ⟨requests, e, w', hcreate, -, -, hdownload⟩ | ⟨request, tally', w', hcreate, -, hdownload⟩
      · rw [hdownload]
        exact fun request hrequest => ⟨cursor, hcreate request hrequest, hcursor⟩
      · rw [hdownload]
        exact List.forall_mem_cons.mpr ⟨⟨cursor, hcreate, hcursor⟩, ih⟩
    · rw [downloadFrom, if_neg hcursor]
      exact fun _ h => (nomatch h)

/-- How far the windows reach: past the last bar, and not past its end. -/
theorem reached_spec (hlimit : 1 ≤ job.requestLimit) :
    stop < job.reached start stop ∧ job.reached start stop ≤ stop + job.step ∧
      (job.reached start stop = stop + job.step ↔
        (stop - start) % (job.step * job.requestLimit) ≤ job.step * (job.requestLimit - 1)) := by
  have hstep := job.step_pos
  have hsize : 0 < job.step * job.requestLimit := mul_pos hstep (by omega)
  have hsplit : job.step * (job.requestLimit - 1) = job.step * job.requestLimit - job.step := by ring
  unfold HistoryJob.reached
  rw [hsplit]
  generalize job.step * job.requestLimit = size at *
  generalize job.step = step at *
  have hdiv := Int.mul_ediv_add_emod (stop - start) size
  have hlt := Int.emod_lt_of_pos (stop - start) hsize
  have hnext : start + size * ((stop - start) / size + 1) = stop + size - (stop - start) % size := by linarith
  rw [hnext]
  refine ⟨lt_min (by linarith) (by linarith), min_le_left _ _, ?_⟩
  rw [min_eq_left_iff]
  constructor
  · intro h
    linarith
  · intro h
    linarith

end Loop

/-! ### Answers -/

section Answers

variable {σ : Type} [HistoryStore σ] [LawfulHistoryStore σ]
variable {host : Host} {reader : Reader} {job : HistoryJob} {now : Instant} {provider : Provider}
  {client : HistoricalClient} {providerSymbol : String} {start stop : Instant}

/-- A timeframe that has a length is not blank. -/
theorem isBlank_of_timeframeDelta {timeframe : String} {step : ℤ} (h : timeframeDelta timeframe = .ok step) :
    isBlank timeframe = false := by
  have hunit : ∃ c ∈ timeframe.toList, isSpace c = false := by
    unfold timeframeDelta at h
    cases hunit : unitSeconds timeframe.toList.getLast? with
    | none =>
      rw [hunit] at h
      cases hvalue : parseInt (String.ofList timeframe.toList.dropLast) <;> simp [hvalue] at h
    | some unit =>
      unfold unitSeconds at hunit
      split at hunit
      · rename_i hlast
        exact ⟨'m', List.mem_of_getLast? hlast, by decide⟩
      · rename_i hlast
        exact ⟨'h', List.mem_of_getLast? hlast, by decide⟩
      · rename_i hlast
        exact ⟨'d', List.mem_of_getLast? hlast, by decide⟩
      · cases hunit
  obtain ⟨c, hmem, hspace⟩ := hunit
  exact List.all_eq_false.mpr ⟨c, hmem, by simp [hspace]⟩

variable (host reader job now provider client providerSymbol) in
/-- The provider answers every request, with rows that the pipeline takes in. -/
def Answers : Prop :=
  isBlank providerSymbol = false ∧ ∀ request, ∃ rows, client.fetchCandles request = .ok rows ∧
    ∀ payload ∈ rows, ∃ candle,
      settledOf host reader job.market provider providerSymbol payload (.aware now) = .ok candle

theorem raised_rowsOffer {rows : List Payload} (h : ∀ payload ∈ rows, ∃ candle,
    settledOf host reader job.market provider providerSymbol payload (.aware now) = .ok candle) :
    (rowsOffer host reader job now provider providerSymbol rows).raised = none := by
  induction rows with
  | nil => rfl
  | cons payload rows ih =>
    obtain ⟨⟨candle, hcandle⟩, hrows⟩ := List.forall_mem_cons.mp h
    have hrow : rowOffer host reader job now provider providerSymbol payload = { candles := candle.toList } := by
      unfold rowOffer
      rw [hcandle]
    rw [rowsOffer, hrow]
    exact ih hrows

/-- Nothing raises if the provider answers. -/
theorem Answers.raised (h : Answers host reader job now provider client providerSymbol) (hlimit : 1 ≤ job.requestLimit)
    (hlimit' : job.requestLimit ≤ 5000) (n : ℕ) (cursor : Instant) :
    (windowsOffer host reader job now provider client providerSymbol stop n cursor).raised = none := by
  induction n generalizing cursor with
  | zero => rfl
  | succ n ih =>
    rw [windowsOffer]
    split_ifs with hcursor
    · obtain ⟨hlt, -⟩ := reached_windowEnd hlimit hcursor
      have hcreate : HistoricalRequest.create providerSymbol job.timeframe cursor (job.windowEnd stop cursor)
          job.requestLimit =
          .ok ⟨providerSymbol, job.timeframe, cursor, job.windowEnd stop cursor, job.requestLimit⟩ := by
        unfold HistoricalRequest.create
        rw [if_neg (not_le.mpr hlt), h.1, isBlank_of_timeframeDelta job.step_eq, if_neg (by simp), if_neg (by omega)]
      obtain ⟨rows, hrows, htaken⟩ := h.2 ⟨providerSymbol, job.timeframe, cursor, job.windowEnd stop cursor, job.requestLimit⟩
      have hresponse : job.response client providerSymbol stop cursor = .ok rows := by
        unfold HistoryJob.response
        rw [hcreate]
        exact hrows
      rw [hresponse]
      dsimp only
      unfold Offer.next
      rw [raised_rowsOffer htaken]
      exact ih _
    · rfl

end Answers

/-! ### Limits that no request has -/

section Rejected

variable {σ : Type} [HistoryStore σ] [LawfulHistoryStore σ]
variable {host : Host} {reader : Reader} {engine : BackfillEngine} {job : HistoryJob} {now : Instant} {provider : Provider}
  {client : HistoricalClient} {providerSymbol : String} {start stop : Instant}

/-- A request of another limit is rejected. -/
theorem create_of_limit (hlimit : ¬ (1 ≤ job.requestLimit ∧ job.requestLimit ≤ 5000)) (cursor : Instant) :
    ∃ message, HistoricalRequest.create providerSymbol job.timeframe cursor (job.windowEnd stop cursor) job.requestLimit =
      .error (.valueError message) := by
  unfold HistoricalRequest.create
  rw [if_pos (show job.requestLimit < 1 ∨ 5000 < job.requestLimit by omega)]
  split_ifs
  · exact ⟨_, rfl⟩
  · exact ⟨_, rfl⟩
  · exact ⟨_, rfl⟩

omit [LawfulHistoryStore σ] in
/-- The loop over the windows raises then, or there is no window. -/
theorem syncProvider_of_limit (hlimit : ¬ (1 ≤ job.requestLimit ∧ job.requestLimit ≤ 5000)) (run : HistoryRun)
    (finishedAt : Instant) (w : World σ) :
    Effect.Ends (syncProvider host reader job now provider client providerSymbol start stop run finishedAt) w
      (fun attempt w' => (∃ text, attempt = .error text) ∧ w' = w) fun _ w' => w' = w := by
  have hloop : Effect.Ends (fetchWindows host reader job now provider client providerSymbol start stop
      (job.windows start stop) start {}) w (fun tally w' => tally.settledOpens = [] ∧ w' = w) fun _ w' => w' = w := by
    cases job.windows start stop with
    | zero => exact ⟨rfl, rfl⟩
    | succ n =>
      rw [fetchWindows]
      split_ifs with hle
      · obtain ⟨message, hcreate⟩ := @create_of_limit job providerSymbol stop hlimit start
        have hresponse : job.response client providerSymbol stop start = .error (.valueError message) := by
          unfold HistoryJob.response
          rw [hcreate]
          rfl
        rw [hresponse]
        exact rfl
      · exact ⟨rfl, rfl⟩
  refine Effect.Ends.bind (hloop.mono ?_ fun _ _ h => h)
  rintro tally w' ⟨hnone, rfl⟩
  rw [hnone]
  exact ⟨⟨_, rfl⟩, rfl⟩

theorem syncProviders_of_limit (hlimit : ¬ (1 ≤ job.requestLimit ∧ job.requestLimit ≤ 5000)) {run : HistoryRun}
    (hrun : run.provider = none) (finishedAt : Instant) (providers : List Provider) (errors : List String) (w : World σ) :
    Effect.Ends (syncProviders host reader engine job now stop run finishedAt providers errors) w
      (fun run' w' => (run'.state = .failed ∧ run'.provider = none) ∧ SameWatermarks w w') fun _ w' => w' = w := by
  induction providers generalizing errors w with
  | nil => exact ⟨⟨rfl, hrun⟩, fun _ _ _ _ => LawfulHistoryStore.watermark_saveRun ..⟩
  | cons provider providers ih =>
    rw [syncProviders]
    cases hclient : engine.clientOf job provider with
    | error text => exact ih _ w
    | ok found =>
      obtain ⟨client, providerSymbol⟩ := found
      refine Effect.Ends.bind (Effect.ends_of_eq_ok (Effect.get_apply w) ?_)
      refine Effect.Ends.bind (Effect.Ends.tryCatch ((syncProvider_of_limit hlimit run finishedAt w).mono ?_ ?_))
      · rintro _ w' ⟨⟨text, rfl⟩, rfl⟩
        exact ih _ w'
      · rintro e w' rfl
        by_cases hkilled : e = .killed
        · rw [if_pos hkilled]
          exact rfl
        · rw [if_neg hkilled]
          exact ih _ w'

/-- No provider is marked as successful. -/
theorem sync_of_limit (hlimit : ¬ (1 ≤ job.requestLimit ∧ job.requestLimit ≤ 5000)) (now : DateTime)
    (startedAt finishedAt : Instant) (w : World σ) :
    Effect.Ends (sync host reader engine job now startedAt finishedAt) w
      (fun run w' => (run.state = .failed ∧ run.provider = none) ∧ SameWatermarks w w') fun _ w' => SameWatermarks w w' := by
  refine Effect.Ends.bind ?_
  cases engine.plan job now with
  | error e => exact fun _ _ _ _ => rfl
  | ok plan =>
    obtain ⟨now, stop, route⟩ := plan
    refine Effect.Ends.bind (Effect.ends_of_eq_ok (Effect.modify_apply _ w) ?_)
    have hsaved : ∀ run, SameWatermarks w { w with state := HistoryStore.saveRun w.state run } :=
      fun run _ _ _ _ => LawfulHistoryStore.watermark_saveRun ..
    refine (syncProviders_of_limit hlimit rfl finishedAt route [] _).mono ?_ ?_
    · rintro run w' ⟨hrun, hsame⟩
      exact ⟨hrun, (hsaved _).trans hsame⟩
    · rintro e w' rfl
      exact hsaved _

end Rejected

/-! ### Downloads -/

/-- Requests for the windows from a time up to another: one after another, and none of more bars than the limit. -/
structure Covers (job : HistoryJob) (start upTo : Instant) (requests : List HistoricalRequest) : Prop where
  tiles : Tiles upTo start (requests.map window)
  /-- Every time is in the window of one request. -/
  once : ∀ t, (requests.filter fun request => request.start ≤ t ∧ t < request.stop).length =
    if start ≤ t ∧ t < upTo then 1 else 0
  /-- The opens of bars in the window of a request are as many as the limit at most. -/
  bars : ∀ request ∈ requests, ∀ opens : List Instant, opens.Pairwise (fun a b => a + job.step ≤ b) →
    (∀ opened ∈ opens, request.start ≤ opened ∧ opened < request.stop) → (opens.length : ℤ) ≤ job.requestLimit

section Downloads

variable {σ : Type} [HistoryStore σ]
variable (host : Host) (reader : Reader) (job : HistoryJob) (now : Instant) (provider : Provider)
  (client : HistoricalClient) (providerSymbol : String) (start stop : Instant) (w : World σ)

/-- What a download is to do. -/
structure Downloads : Prop where
  /-- The loop ends, and it does what the engine does. -/
  ends : ∃ r, (download host reader job now provider client providerSymbol start stop w).2 = some r ∧
    fetchWindows host reader job now provider client providerSymbol start stop (job.windows start stop) start {} w = r
  /-- No exception leaves the loop if the provider answers. -/
  answered : 1 ≤ job.requestLimit → job.requestLimit ≤ 5000 →
    Answers host reader job now provider client providerSymbol →
      ∃ tally w', (download host reader job now provider client providerSymbol start stop w).2 = some (.ok tally w')
  /-- The windows of the requests, unless an exception leaves the loop. -/
  windows : 1 ≤ job.requestLimit → job.requestLimit ≤ 5000 → start ≤ stop →
    ∀ tally w', (download host reader job now provider client providerSymbol start stop w).2 = some (.ok tally w') →
      Covers job start (job.reached start stop) (download host reader job now provider client providerSymbol start stop w).1
  /-- The first request of another limit is rejected. -/
  rejected : ¬ (1 ≤ job.requestLimit ∧ job.requestLimit ≤ 5000) → start ≤ stop → ∃ message,
    HistoricalRequest.create providerSymbol job.timeframe start (job.windowEnd stop start) job.requestLimit =
      .error (.valueError message) ∧
    download host reader job now provider client providerSymbol start stop w = ([], some (.error (.valueError message) w))

variable {host reader job now provider client providerSymbol start stop w}

theorem download_ends : ∃ r, (download host reader job now provider client providerSymbol start stop w).2 = some r ∧
    fetchWindows host reader job now provider client providerSymbol start stop (job.windows start stop) start {} w = r := by
  obtain ⟨requests, r, hloop, hends⟩ := @downloadFrom_ends σ _ host reader job now provider client providerSymbol start stop
    _ start stop_lt_windows {} w
  refine ⟨r, ?_, hloop⟩
  unfold download
  rw [hends 0]

/-- The window of a request is not of more bars than the limit. -/
theorem bars_of_create {cursor : Instant} {request : HistoricalRequest} (hcursor : cursor ≤ stop)
    (h : HistoricalRequest.create providerSymbol job.timeframe cursor (job.windowEnd stop cursor) job.requestLimit =
      .ok request) {opens : List Instant} (hspaced : opens.Pairwise fun a b => a + job.step ≤ b)
    (hin : ∀ opened ∈ opens, request.start ≤ opened ∧ opened < request.stop) :
    (opens.length : ℤ) ≤ job.requestLimit := by
  obtain ⟨-, hwindow, hlimit, -⟩ := step_le_of_create hcursor h
  obtain ⟨hstart, hstop⟩ := Prod.mk.inj hwindow
  refine @length_le_of_spaced _ _ cursor job.step_pos (by omega) opens hspaced ?_
  intro opened hopened
  obtain ⟨hle, hlt⟩ := hin opened hopened
  rw [hstart] at hle
  rw [hstop] at hlt
  exact ⟨hle, hlt.trans_le (min_le_right _ _)⟩

/-- The first request of another limit is rejected. -/
theorem download_of_limit (hlimit : ¬ (1 ≤ job.requestLimit ∧ job.requestLimit ≤ 5000)) (hle : start ≤ stop) :
    ∃ message, HistoricalRequest.create providerSymbol job.timeframe start (job.windowEnd stop start) job.requestLimit =
        .error (.valueError message) ∧
      download host reader job now provider client providerSymbol start stop w =
        ([], some (.error (.valueError message) w)) := by
  obtain ⟨message, hcreate⟩ := @create_of_limit job providerSymbol stop hlimit start
  refine ⟨message, hcreate, ?_⟩
  unfold download
  rw [downloadFrom, if_pos hle, hcreate]

/-- The windows of the requests, unless an exception leaves the loop. -/
theorem covers_of_download (hle : start ≤ stop) {tally : Tally} {w' : World σ}
    (hok : (download host reader job now provider client providerSymbol start stop w).2 = some (.ok tally w')) :
    1 ≤ job.requestLimit ∧
      Covers job start (job.reached start stop)
        (download host reader job now provider client providerSymbol start stop w).1 := by
  have hlimit : 1 ≤ job.requestLimit ∧ job.requestLimit ≤ 5000 := by
    by_contra hlimit
    obtain ⟨message, -, hdownload⟩ := @download_of_limit σ _ host reader job now provider client providerSymbol start stop w
      hlimit hle
    rw [hdownload] at hok
    cases hok
  obtain ⟨upTo, -, htiles, hreached⟩ := downloadFrom_tiles _ hlimit.1 hle {} w (Prod.ext rfl hok)
  obtain rfl := hreached tally w' rfl
  refine ⟨hlimit.1, htiles, ?_, ?_⟩
  · intro t
    rw [← htiles.count t, List.filter_map, List.length_map]
    rfl
  · intro request hrequest opens hspaced hin
    obtain ⟨cursor, hcreate, hcursor⟩ := create_of_mem_downloadFrom request hrequest
    exact bars_of_create hcursor hcreate hspaced hin

end Downloads

/-- **The windows of a download.** The loop ends, whatever the limit is. With a limit that requests have, the windows
follow each other from the start up to the end of the last bar, or up to a time before it and after its open; where they
reach the end is a matter of what is left of a whole window. With another limit the first request is rejected, and no
provider is marked as successful. -/
theorem windows_tile {σ : Type} [HistoryStore σ] [LawfulHistoryStore σ] (host : Host) (reader : Reader) (job : HistoryJob) :
    (∀ now provider client providerSymbol start stop (w : World σ),
      Downloads host reader job now provider client providerSymbol start stop w) ∧
    (1 ≤ job.requestLimit → ∀ start stop, stop < job.reached start stop ∧ job.reached start stop ≤ stop + job.step ∧
      (job.reached start stop = stop + job.step ↔
        (stop - start) % (job.step * job.requestLimit) ≤ job.step * (job.requestLimit - 1))) ∧
    (¬ (1 ≤ job.requestLimit ∧ job.requestLimit ≤ 5000) → ∀ engine now startedAt finishedAt (w : World σ),
      Effect.Ends (sync host reader engine job now startedAt finishedAt) w
        (fun run w' => (run.state = .failed ∧ run.provider = none) ∧ SameWatermarks w w') fun _ w' => SameWatermarks w w') := by
  refine ⟨?_, ?_, ?_⟩
  · intro now provider client providerSymbol start stop w
    refine ⟨download_ends, ?_, ?_, ?_⟩
    · intro hlimit hlimit' hanswers
      obtain ⟨r, hdownload, hloop⟩ :=
        @download_ends σ _ host reader job now provider client providerSymbol start stop w
      have hfollows := @fetchWindows_follows σ _ host reader job now provider client providerSymbol start stop _
        (job.windows start stop) start {} w
      have hnone := @Answers.raised host reader job now provider client providerSymbol stop hanswers hlimit hlimit'
        (job.windows start stop) start
      unfold Effect.Ends at hfollows
      rw [hloop] at hfollows
      cases r with
      | ok tally w' => exact ⟨tally, w', hdownload⟩
      | error e w' => exact absurd (hnone.symm.trans hfollows.1) (Option.some_ne_none e).symm
    · exact fun _ _ hle tally w' hok => (covers_of_download hle hok).2
    · exact fun hlimit hle => download_of_limit hlimit hle
  · exact fun hlimit start stop => reached_spec hlimit
  · exact fun hlimit engine now startedAt finishedAt w => sync_of_limit hlimit now startedAt finishedAt w

namespace Sample

/-- A client that answers every request, with no rows. -/
def empty : HistoricalClient := ⟨.nse, .dhan, fun _ => .ok []⟩

/-- A day of five-minute bars, a hundred of them at a time. -/
def hundreds : HistoryJob := { job with requestLimit := 100 }

/-- Bars from 04:21 on, one at a time. -/
def unaligned : HistoryJob :=
  { job with
    requestLimit := 1
    window := some (seconds 1786681260, seconds 1786681800)
    window_lt := by decide }

end Sample

/-- A day in three windows. -/
theorem day_in_hundreds :
    (download .cpython .plain Sample.hundreds Sample.now .dhan Sample.empty "RELIANCE" (seconds 1786595100)
        (seconds 1786681500) ({} : World)).1.map window =
      [(seconds 1786595100, seconds 1786625100), (seconds 1786625100, seconds 1786655100),
        (seconds 1786655100, seconds 1786681800)] ∧
      Covers Sample.hundreds (seconds 1786595100) (seconds 1786681800) (download .cpython .plain Sample.hundreds Sample.now
        .dhan Sample.empty "RELIANCE" (seconds 1786595100) (seconds 1786681500) ({} : World)).1 := by
  refine ⟨by decide +kernel, ?_⟩
  have hdownloads := (windows_tile .cpython .plain Sample.hundreds).1 Sample.now .dhan Sample.empty "RELIANCE"
    (seconds 1786595100) (seconds 1786681500) ({} : World)
  obtain ⟨tally, w, hok⟩ := hdownloads.answered (by decide) (by decide)
    ⟨by decide, fun _ => ⟨[], rfl, fun _ h => (nomatch h)⟩⟩
  exact hdownloads.windows (by decide) (by decide) (by decide) tally w hok

/-- The window from 04:21 on is up to 04:26, and not up to the end of the bar of 04:25. -/
theorem unaligned_window_is_short :
    ¬ ∀ (job : HistoryJob) (now stop : Instant) (watermark : Option Watermark) (provider : Provider)
      (client : HistoricalClient) (providerSymbol : String) (w : World), job.stop now = .ok stop →
        1 ≤ job.requestLimit → job.requestLimit ≤ 5000 → job.start stop watermark ≤ stop →
          Answers .cpython .plain job now provider client providerSymbol →
            Covers job (job.start stop watermark) (stop + job.step) (download .cpython .plain job now provider client
              providerSymbol (job.start stop watermark) stop w).1 := by
  intro h
  have hcovers := h Sample.unaligned Sample.now (seconds 1786681500) none .dhan Sample.empty "RELIANCE" {}
    (by decide +kernel) (by decide) (by decide) (by decide) ⟨by decide, fun _ => ⟨[], rfl, fun _ h => (nomatch h)⟩⟩
  have hcount := hcovers.once (seconds 1786681799)
  revert hcount
  decide +kernel

end NanoDelta.History
