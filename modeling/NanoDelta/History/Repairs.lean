import Mathlib.Data.List.Dedup
import NanoDelta.History.Downloads
import NanoDelta.History.Postgres
import NanoDelta.Library.MaximalRuns
import NanoDelta.Library.Series

/-!
# Repairs

What `BackfillEngine.repair` does with gaps. The gaps are split into runs, and for each run there is one `sync` of the
window from its first gap to the end of its last one.

* `groups_maximal`: the runs are the maximal runs of the gaps.
* `CoveringStore`: what a store does with what is covered.
* `gaps_are_repaired`: what is covered after a repair, and what its runs say.
-/

namespace NanoDelta.History

open Library Providers

/-! ### Runs of gaps -/

/-- The gaps of a group. -/
def members (group : Instant × List Instant) : List Instant := group.1 :: group.2

/-- The groups are the gaps again. -/
theorem flatten_gapGroups (step : Instant) (gaps : List Instant) :
    ((gapGroups step gaps).map members).flatten = gaps := by
  induction gaps with
  | nil => rfl
  | cons gap gaps ih =>
    rw [gapGroups]
    cases hgroups : gapGroups step gaps with
    | nil =>
      rw [hgroups] at ih
      rw [← ih]
      rfl
    | cons group groups =>
      rw [hgroups] at ih
      obtain ⟨next, more⟩ := group
      dsimp only
      split_ifs
      · exact congrArg (gap :: ·) ih
      · exact congrArg (gap :: ·) ih

/-- The gaps of a group follow each other, and the next group does not go on from there. -/
theorem chain_gapGroups (step : Instant) (gaps : List Instant) :
    (∀ run ∈ (gapGroups step gaps).map members, run.IsChain fun a b => b = a + step) ∧
      ((gapGroups step gaps).map members).IsChain fun run run' => ∀ a ∈ run.getLast?, ∀ b ∈ run'.head?, b ≠ a + step := by
  induction gaps with
  | nil => exact ⟨fun _ h => (nomatch h), .nil⟩
  | cons gap gaps ih =>
    rw [gapGroups]
    cases hgroups : gapGroups step gaps with
    | nil => exact ⟨List.forall_mem_singleton.mpr (.singleton gap), .singleton _⟩
    | cons group groups =>
      rw [hgroups] at ih
      obtain ⟨next, more⟩ := group
      obtain ⟨hchain, hmaximal⟩ := ih
      obtain ⟨hfirst, hothers⟩ := List.forall_mem_cons.mp hchain
      dsimp only
      split_ifs with hnext
      · refine ⟨List.forall_mem_cons.mpr ⟨List.isChain_cons_cons.mpr ⟨hnext, hfirst⟩, hothers⟩, ?_⟩
        rw [List.map_cons, List.isChain_cons] at hmaximal ⊢
        refine ⟨?_, hmaximal.2⟩
        intro run hrun a ha
        exact hmaximal.1 run hrun a (by simpa [members] using ha)
      · refine ⟨List.forall_mem_cons.mpr ⟨.singleton gap, hchain⟩, List.isChain_cons_cons.mpr ⟨?_, hmaximal⟩⟩
        rintro a ha b hb
        obtain rfl : gap = a := by simpa [members] using ha
        obtain rfl : next = b := by simpa [members] using hb
        exact hnext

/-- **The groups of a repair** are the maximal runs of the gaps. -/
theorem groups_maximal {job : HistoryJob} {gaps : List DateTime} {groups : List ((Instant × List Instant) × ℕ)}
    (h : job.groups gaps = .ok groups) : ∃ opens, gaps.mapM (fun gap => utc gap "gap") = .ok opens ∧
      MaximalRuns job.step opens (groups.map fun group => members group.1) := by
  obtain ⟨opens, hopens, hgroups⟩ := Effect.except_bind_eq_ok.mp h
  obtain rfl := Except.ok.inj hgroups
  refine ⟨opens, hopens, ?_⟩
  have hmembers : ((gapGroups job.step (opens.dedup.insertionSort (· ≤ ·))).zipIdx.map fun group => members group.1) =
      (gapGroups job.step (opens.dedup.insertionSort (· ≤ ·))).map members :=
    (List.map_map ..).symm.trans (congrArg (List.map members) (List.zipIdx_map_fst ..))
  rw [hmembers]
  obtain ⟨hchain, hmaximal⟩ := chain_gapGroups job.step (opens.dedup.insertionSort (· ≤ ·))
  refine ⟨?_, ?_, ?_, hchain, hmaximal⟩
  · rw [flatten_gapGroups]
    exact pairwise_lt_insertionSort opens.nodup_dedup
  · intro t
    rw [flatten_gapGroups, List.mem_insertionSort, List.mem_dedup]
  · intro run hrun
    obtain ⟨group, -, rfl⟩ := List.mem_map.mp hrun
    exact List.cons_ne_nil _ _

/-! ### What is covered -/

/-- All that is in Silver is settled, as the pipeline stores it. -/
def World.Settled {σ : Type} (w : World σ) : Prop := ∀ candle ∈ w.lake.silver, candle.isSettled = true

/-- The opens that are covered for a job. -/
def World.covered {σ : Type} [HistoryStore σ] (w : World σ) (job : HistoryJob) : List Instant :=
  HistoryStore.covered w.lake w.state job.market job.symbol job.timeframe

/-- A store that goes on covering what it covers, and covers an open that is recorded, if Silver has its candle. -/
class CoveringStore (σ : Type) [HistoryStore σ] : Prop where
  covered_silver : ∀ (lake lake' : Lake) (self : σ) (market : Market) (symbol timeframe : String),
    lake.silver ⊆ lake'.silver →
      HistoryStore.covered lake self market symbol timeframe ⊆ HistoryStore.covered lake' self market symbol timeframe
  covered_recordOpen : ∀ (lake : Lake) (self : σ) (market : Market) (symbol timeframe : String) (opened : Instant),
    HistoryStore.covered lake self market symbol timeframe ⊆
      HistoryStore.covered lake (HistoryStore.recordOpen self market symbol timeframe opened) market symbol timeframe
  mem_recordOpen : ∀ (lake : Lake) (self : σ) (market : Market) (symbol timeframe : String) (opened : Instant),
    (∃ candle ∈ lake.silver, candle.key = (market, symbol, timeframe, opened) ∧ candle.isSettled = true) →
      opened ∈ HistoryStore.covered lake (HistoryStore.recordOpen self market symbol timeframe opened) market symbol timeframe
  covered_commitWatermark : ∀ (lake : Lake) (self : σ) (value : Watermark) (market : Market) (symbol timeframe : String),
    HistoryStore.covered lake (HistoryStore.commitWatermark self value) market symbol timeframe =
      HistoryStore.covered lake self market symbol timeframe
  covered_saveRun : ∀ (lake : Lake) (self : σ) (run : HistoryRun) (market : Market) (symbol timeframe : String),
    HistoryStore.covered lake (HistoryStore.saveRun self run) market symbol timeframe =
      HistoryStore.covered lake self market symbol timeframe

/-- In memory, what is covered are the opens that were recorded. -/
theorem HistoryState.covered_recordOpen_eq (self : HistoryState) (market : Market) (symbol timeframe : String)
    (opened : Instant) : (self.recordOpen market symbol timeframe opened).covered market symbol timeframe =
      (self.covered market symbol timeframe).insert opened := by
  unfold HistoryState.recordOpen HistoryState.covered
  rw [Dict.get?_set, if_pos rfl]
  rfl

instance : CoveringStore HistoryState where
  covered_silver _ _ _ _ _ _ _ := List.Subset.refl _
  covered_recordOpen lake self market symbol timeframe opened := by
    show self.covered market symbol timeframe ⊆ (self.recordOpen market symbol timeframe opened).covered market symbol
      timeframe
    rw [HistoryState.covered_recordOpen_eq]
    exact fun t ht => List.mem_insert_of_mem ht
  mem_recordOpen lake self market symbol timeframe opened _ := by
    show opened ∈ (self.recordOpen market symbol timeframe opened).covered market symbol timeframe
    rw [HistoryState.covered_recordOpen_eq]
    exact List.mem_insert_self
  covered_commitWatermark lake self value market symbol timeframe := by
    show (self.commitWatermark value).covered market symbol timeframe = self.covered market symbol timeframe
    unfold HistoryState.commitWatermark
    dsimp only
    split
    · split_ifs <;> rfl
    · rfl
  covered_saveRun _ _ _ _ _ _ := rfl

instance : CoveringStore PostgresHistoryState where
  covered_silver lake lake' self market symbol timeframe hsilver := by
    apply List.map_subset
    intro candle hcandle
    obtain ⟨hmem, hof⟩ := List.mem_filter.mp hcandle
    exact List.mem_filter.mpr ⟨hsilver hmem, hof⟩
  covered_recordOpen _ _ _ _ _ _ := List.Subset.refl _
  mem_recordOpen lake self market symbol timeframe opened h := by
    obtain ⟨candle, hcandle, hkey, hsettled⟩ := h
    obtain ⟨hmarket, hsymbol, htimeframe, hopened⟩ := by simpa [CanonicalCandle.key] using hkey
    refine List.mem_map.mpr ⟨candle, List.mem_filter.mpr ⟨hcandle, ?_⟩, hopened⟩
    exact decide_eq_true ⟨hmarket, hsymbol, htimeframe, hsettled⟩
  covered_commitWatermark _ _ _ _ _ _ := rfl
  covered_saveRun _ _ _ _ _ _ := rfl

/-! ### What a run records -/

section Recorded

variable {σ : Type} [HistoryStore σ]

/-- From a world in which all of Silver is settled to another one: what is covered stays covered, and so are the opens of
the candles that match. -/
def Recorded (job : HistoryJob) (start stop : Instant) (candles : List CanonicalCandle) (w w' : World σ) : Prop :=
  w.Settled → w'.Settled ∧ w.covered job ⊆ w'.covered job ∧
    ∀ candle ∈ candles, job.Matches start stop candle → candle.openTime ∈ w'.covered job

variable {job : HistoryJob} {start stop : Instant}

theorem Recorded.refl (w : World σ) : Recorded job start stop [] w w :=
  fun hw => ⟨hw, List.Subset.refl _, fun _ h => (nomatch h)⟩

theorem Recorded.append {cs ds : List CanonicalCandle} {w w₁ w₂ : World σ} (h₁ : Recorded job start stop cs w w₁)
    (h₂ : Recorded job start stop ds w₁ w₂) : Recorded job start stop (cs ++ ds) w w₂ := by
  intro hw
  obtain ⟨hsettled, hcovered, hcs⟩ := h₁ hw
  obtain ⟨hsettled', hcovered', hds⟩ := h₂ hsettled
  refine ⟨hsettled', List.Subset.trans hcovered hcovered', ?_⟩
  simp only [List.forall_mem_append]
  exact ⟨fun candle hcandle hmatches => hcovered' (hcs candle hcandle hmatches), hds⟩

theorem Recorded.silent {cs : List CanonicalCandle} {w w₁ w₂ : World σ} (h₁ : Recorded job start stop cs w w₁)
    (h₂ : Recorded job start stop [] w₁ w₂) : Recorded job start stop cs w w₂ := by
  have happend := h₁.append h₂
  rwa [List.append_nil] at happend

/-- A part of a run that reads rows: it records its offer. -/
def Records (job : HistoryJob) (start stop : Instant) (x : Tally → EStateM PyError (World σ) Tally) (offer : Offer) :
    Prop :=
  ∀ tally w, Effect.Ends (x tally) w (fun _ w' => offer.raised = none ∧ Recorded job start stop offer.candles w w')
    fun e w' => offer.raised = some e ∧ Recorded job start stop offer.candles w w'

theorem records_pure : Records (σ := σ) job start stop pure {} := fun _ w => ⟨rfl, .refl w⟩

theorem records_error (e : PyError) : Records (σ := σ) job start stop (fun _ => throw e) { raised := some e } :=
  fun _ w => ⟨rfl, .refl w⟩

theorem Records.next {x y : Tally → EStateM PyError (World σ) Tally} {a b : Offer} (hx : Records job start stop x a)
    (hy : Records job start stop y b) : Records job start stop (fun tally => x tally >>= y) (a.next b) := by
  intro tally w
  refine Effect.Ends.bind ((hx tally w).mono ?_ ?_)
  · rintro tally₁ w₁ ⟨hnone, hrecorded⟩
    have hnext : a.next b = ⟨a.candles ++ b.candles, b.raised⟩ := by
      unfold Offer.next
      rw [hnone]
    rw [hnext]
    refine (hy tally₁ w₁).mono ?_ ?_
    · exact fun _ _ h => ⟨h.1, hrecorded.append h.2⟩
    · exact fun _ _ h => ⟨h.1, hrecorded.append h.2⟩
  · rintro e w₁ ⟨hraised, hrecorded⟩
    have hnext : a.next b = a := by
      unfold Offer.next
      rw [hraised]
    rw [hnext]
    exact ⟨hraised, hrecorded⟩

variable [CoveringStore σ]
variable {host : Host} {reader : Reader} {engine : BackfillEngine} {now : Instant} {provider : Provider}
  {client : HistoricalClient} {providerSymbol : String}

/-- Silver after a settled candle is stored: it is still settled, has what it had, and has a candle of the same key. -/
theorem settled_insertSilver {silver : List CanonicalCandle} (h : ∀ c ∈ silver, c.isSettled = true)
    {candle : CanonicalCandle} (hsettled : candle.isSettled = true) :
    (∀ c ∈ insertSilver silver candle, c.isSettled = true) ∧ silver ⊆ insertSilver silver candle ∧
      ∃ other ∈ insertSilver silver candle, other.key = candle.key := by
  unfold insertSilver
  split_ifs with hother
  · exact ⟨h, List.Subset.refl _, hother⟩
  · refine ⟨?_, List.subset_append_left .., candle, by simp, rfl⟩
    simp only [List.forall_mem_append, List.forall_mem_singleton]
    exact ⟨h, hsettled⟩

/-- A row of the job is stored, and then recorded. -/
theorem ingestRow_records (payload : Payload) :
    Records (σ := σ) job start stop
      (fun tally => ingestRow host reader job now provider providerSymbol start stop tally payload)
      (rowOffer host reader job now provider providerSymbol payload) := by
  intro tally w
  refine Effect.Ends.bind ((ingest_ends w.lake).focus.mono ?_ ?_)
  · rintro result w' ⟨lake, rfl, candle, hsettled, hsilver, hcandle, -⟩
    have hoffer : rowOffer host reader job now provider providerSymbol payload = { candles := candle.toList } := by
      unfold rowOffer
      rw [hsettled]
    rw [hoffer, hcandle]
    cases candle with
    | none =>
      have hsame : lake.silver = w.lake.silver := hsilver
      refine ⟨rfl, fun hw => ⟨?_, ?_, fun _ h => (nomatch h)⟩⟩
      · exact fun c hc => hw c (hsame ▸ hc)
      · exact CoveringStore.covered_silver _ _ _ _ _ _ fun c hc => hsame.symm ▸ hc
    | some candle =>
      obtain ⟨hcandle, hmarket⟩ := settledOf_ok hsettled
      have hstored : lake.silver = insertSilver w.lake.silver candle := hsilver
      have hinsert : w.Settled → (∀ c ∈ lake.silver, c.isSettled = true) ∧ w.lake.silver ⊆ lake.silver ∧
          ∃ other ∈ lake.silver, other.key = candle.key := by
        rw [hstored]
        exact fun hw => settled_insertSilver hw hcandle
      by_cases hmatches : job.Matches start stop candle
      · simp only [if_pos hmatches]
        refine ⟨trivial, ?_⟩
        intro hw
        obtain ⟨hall, hsubset, other, hother, hkey⟩ := hinsert hw
        refine ⟨hall, ?_, List.forall_mem_singleton.mpr ?_⟩
        · exact List.Subset.trans (CoveringStore.covered_silver _ _ _ _ _ _ hsubset)
            (CoveringStore.covered_recordOpen ..)
        · intro _
          refine CoveringStore.mem_recordOpen _ _ _ _ _ _ ⟨other, hother, ?_, hall other hother⟩
          rw [hkey, CanonicalCandle.key, hmarket, hmatches.1, hmatches.2.1]
      · simp only [if_neg hmatches]
        refine ⟨trivial, ?_⟩
        intro hw
        obtain ⟨hall, hsubset, -⟩ := hinsert hw
        exact ⟨hall, CoveringStore.covered_silver _ _ _ _ _ _ hsubset,
          List.forall_mem_singleton.mpr fun h => absurd h hmatches⟩
  · rintro e w' ⟨lake, rfl, hsettled, hsilver⟩
    have hoffer : rowOffer host reader job now provider providerSymbol payload = { raised := some e } := by
      unfold rowOffer
      rw [hsettled]
    rw [hoffer]
    refine ⟨rfl, fun hw => ⟨?_, ?_, fun _ h => (nomatch h)⟩⟩
    · exact fun c hc => hw c (hsilver ▸ hc)
    · exact CoveringStore.covered_silver _ _ _ _ _ _ fun c hc => hsilver.symm ▸ hc

theorem rows_record (rows : List Payload) :
    Records (σ := σ) job start stop
      (fun tally => rows.foldlM (ingestRow host reader job now provider providerSymbol start stop) tally)
      (rowsOffer host reader job now provider providerSymbol rows) := by
  induction rows with
  | nil => exact records_pure
  | cons payload rows ih => exact (ingestRow_records payload).next ih

theorem fetchWindows_records (n : ℕ) (cursor : Instant) :
    Records (σ := σ) job start stop (fetchWindows host reader job now provider client providerSymbol start stop n cursor)
      (windowsOffer host reader job now provider client providerSymbol stop n cursor) := by
  induction n generalizing cursor with
  | zero => exact records_pure
  | succ n ih =>
    intro tally
    rw [fetchWindows, windowsOffer]
    split_ifs with hcursor
    · cases hresponse : job.response client providerSymbol stop cursor with
      | error e => exact records_error e tally
      | ok rows =>
        exact ((rows_record rows).next (ih (job.windowEnd stop cursor)))
          { tally with rowsReceived := tally.rowsReceived + rows.length }
    · exact records_pure tally

/-- A run that is saved covers nothing. -/
theorem covered_saveRun (w : World σ) (run : HistoryRun) :
    World.covered { w with state := HistoryStore.saveRun w.state run } job = w.covered job :=
  CoveringStore.covered_saveRun ..

theorem recorded_saveRun (w : World σ) (run : HistoryRun) :
    Recorded job start stop [] w { w with state := HistoryStore.saveRun w.state run } := by
  intro hw
  refine ⟨hw, ?_, fun _ h => (nomatch h)⟩
  rw [covered_saveRun]
  exact List.Subset.refl _

/-- A watermark that is committed covers nothing. -/
theorem recorded_commitWatermark (w : World σ) (value : Watermark) :
    Recorded job start stop [] w { w with state := HistoryStore.commitWatermark w.state value } := by
  intro hw
  have hsame : World.covered { w with state := HistoryStore.commitWatermark w.state value } job = w.covered job :=
    CoveringStore.covered_commitWatermark ..
  refine ⟨hw, ?_, fun _ h => (nomatch h)⟩
  rw [hsame]
  exact List.Subset.refl _

/-- The engine records what it reads of a provider. -/
theorem syncProvider_records (run : HistoryRun) (finishedAt : Instant) (w : World σ) :
    let offer := windowsOffer host reader job now provider client providerSymbol stop (job.windows start stop) start
    Effect.Ends (syncProvider host reader job now provider client providerSymbol start stop run finishedAt) w
      (fun _ w' => Recorded job start stop offer.candles w w') fun _ w' => Recorded job start stop offer.candles w w' := by
  intro offer
  refine Effect.Ends.bind ((fetchWindows_records (job.windows start stop) start {} w).mono ?_ fun _ _ h => h.2)
  rintro tally w' ⟨-, hrecorded⟩
  cases tally.settledOpens with
  | nil => exact hrecorded
  | cons opened opens =>
    exact (hrecorded.silent (recorded_commitWatermark w' _)).silent (recorded_saveRun _ _)

variable [LawfulHistoryStore σ]

/-- For a job with a window, the engine records what it reads of the providers. -/
theorem syncProviders_records {window : Instant × Instant} (hwindow : job.window = some window) (run : HistoryRun)
    (finishedAt : Instant) (watermark : Provider → Option Watermark) (providers : List Provider) (errors : List String)
    (w : World σ) :
    let P := fun w' : World σ =>
      Recorded job window.1 stop (providersOffer host reader engine job now watermark stop providers) w w'
    Effect.Ends (syncProviders host reader engine job now stop run finishedAt providers errors) w (fun _ => P)
      fun _ => P := by
  have hstart : ∀ watermark, job.start stop watermark = window.1 := by
    intro watermark
    unfold HistoryJob.start
    rw [hwindow]
  induction providers generalizing errors w with
  | nil => exact recorded_saveRun w _
  | cons provider providers ih =>
    rw [syncProviders, providersOffer]
    cases hclient : engine.clientOf job provider with
    | error text => exact ih _ w
    | ok found =>
      obtain ⟨client, providerSymbol⟩ := found
      dsimp only
      rw [hstart]
      refine Effect.Ends.bind (Effect.ends_of_eq_ok (Effect.get_apply w) ?_)
      rw [hstart]
      refine Effect.Ends.bind (Effect.Ends.tryCatch
        (((syncProvider_records run finishedAt w).and (syncProvider_ends run finishedAt w)).mono ?_ ?_))
      · rintro (text | run') w' ⟨hrecorded, hnone, -, hmatch⟩
        · rw [if_neg (by simp [hnone, hmatch.1])]
          exact (ih _ w').mono (fun _ _ h => hrecorded.append h) fun _ _ h => hrecorded.append h
        · rw [if_pos (Or.inr ⟨hnone, hmatch⟩)]
          exact hrecorded
      · rintro e w' ⟨hrecorded, hraised, -⟩
        by_cases hkilled : e = .killed
        · rw [if_pos (Or.inl (hkilled ▸ hraised)), if_pos hkilled]
          exact hrecorded
        · rw [if_neg hkilled, if_neg (by simp [hraised, hkilled])]
          exact (ih _ w').mono (fun _ _ h => hrecorded.append h) fun _ _ h => hrecorded.append h

/-- An open is not after the last settled one. -/
def SettledAt (now : DateTime) (timeframe : String) (opened : Instant) : Prop :=
  ∃ settled, lastSettledOpen now timeframe = .ok settled ∧ opened ≤ settled

/-- The end of a window is that of the job, or the last settled open. -/
theorem stop_of_plan {window : Instant × Instant} (hwindow : job.window = some window) {now : DateTime} {now' : Instant}
    {route : List Provider} (h : engine.plan job now = .ok (now', stop, route)) :
    ∃ settled, lastSettledOpen now job.timeframe = .ok settled ∧ stop = min window.2 settled := by
  obtain ⟨t, hutc, h⟩ := Effect.except_bind_eq_ok.mp h
  obtain ⟨stop', hstop, h⟩ := Effect.except_bind_eq_ok.mp h
  obtain ⟨route', -, h⟩ := Effect.except_bind_eq_ok.mp h
  cases h
  cases now with
  | naive wall => cases hutc
  | aware t =>
    cases hutc
    obtain ⟨settled, hsettled, hstop⟩ := Effect.except_bind_eq_ok.mp hstop
    rw [hwindow] at hstop
    exact ⟨settled, hsettled, (Except.ok.inj hstop).symm⟩

/-- What a run of a job with a window records: the opens of the settled candles of the job in its window, but for those
after the last settled one. -/
theorem sync_records {window : Instant × Instant} (hwindow : job.window = some window) (now : DateTime)
    (startedAt finishedAt : Instant) {w : World σ} (hw : w.Settled) :
    let P := fun w' : World σ => w'.Settled ∧ w.covered job ⊆ w'.covered job ∧
      ∀ candle ∈ offered host reader engine job now {}, candle.symbol = job.symbol → candle.timeframe = job.timeframe →
        window.1 ≤ candle.openTime → candle.openTime ≤ window.2 → SettledAt now job.timeframe candle.openTime →
          candle.openTime ∈ w'.covered job
    Effect.Ends (sync host reader engine job now startedAt finishedAt) w (fun _ => P) fun _ => P := by
  intro P
  refine Effect.Ends.bind ?_
  unfold P offered
  cases hplan : engine.plan job now with
  | error e => exact ⟨hw, List.Subset.refl _, fun _ h => (nomatch h)⟩
  | ok plan =>
    obtain ⟨now', stop, route⟩ := plan
    obtain ⟨settled, hlast, rfl⟩ := stop_of_plan hwindow hplan
    refine Effect.Ends.bind (Effect.ends_of_eq_ok (Effect.modify_apply _ w) ?_)
    have hafter : ∀ w' : World σ, ∀ run, Recorded job window.1 (min window.2 settled) (providersOffer host reader engine job
        now' (fun provider => ({} : World).watermark job provider) (min window.2 settled) route)
          { w with state := HistoryStore.saveRun w.state run } w' →
        w'.Settled ∧ w.covered job ⊆ w'.covered job ∧ ∀ candle ∈ providersOffer host reader engine job now'
          (fun provider => ({} : World).watermark job provider) (min window.2 settled) route,
            candle.symbol = job.symbol → candle.timeframe = job.timeframe → window.1 ≤ candle.openTime →
              candle.openTime ≤ window.2 → SettledAt now job.timeframe candle.openTime →
                candle.openTime ∈ w'.covered job := by
      intro w' run hrecorded
      obtain ⟨hsettled, hcovered, hcandles⟩ := (recorded_saveRun w run).append hrecorded hw
      refine ⟨hsettled, hcovered, ?_⟩
      rintro candle hcandle hsymbol htimeframe hstart hstop ⟨settled', hlast', hle⟩
      obtain rfl : settled = settled' := Except.ok.inj (hlast.symm.trans hlast')
      exact hcandles candle hcandle ⟨hsymbol, htimeframe, hstart, le_min hstop hle⟩
    exact (syncProviders_records hwindow _ finishedAt _ route [] _).mono (fun _ _ => hafter _ _) fun _ _ => hafter _ _

end Recorded

/-! ### Repairs -/

section Repairs

variable {σ : Type} [HistoryStore σ]
variable (host : Host) (reader : Reader) (engine : BackfillEngine) (job : HistoryJob) (now : DateTime)
  (clock : ℕ → Instant × Instant) (group : (Instant × List Instant) × ℕ)

/-- A candle of the job with this open is delivered: it is the settled candle of a row that the run for the group
reads. -/
def Delivered (opened : Instant) : Prop :=
  ∃ repairJob, job.repairing group.1 = .ok repairJob ∧
    ∃ candle ∈ offered host reader engine repairJob (later group.2 now) {},
      candle.symbol = job.symbol ∧ candle.timeframe = job.timeframe ∧ candle.openTime = opened

/-- What the run for a group is to do. -/
structure Repairs (covered : List Instant) (run : HistoryRun) : Prop where
  /-- There is one `sync`, of the window from the first gap to the end of the last one. -/
  issued : ∃ repairJob, job.repairing group.1 = .ok repairJob ∧
    repairJob.window = some (group.1.1, group.1.2.getLastD group.1.1 + job.step) ∧
    ∃ (w w' : World σ) (run₀ : HistoryRun),
      sync host reader engine repairJob (later group.2 now) (clock group.2).1 (clock group.2).2 w = .ok run₀ w' ∧
        run.runId = run₀.runId ∧ (run.state = .succeeded → run = run₀)
  /-- Each gap that is settled is in the window of one request, unless an exception leaves the loop over the windows. -/
  asked : ∀ repairJob, job.repairing group.1 = .ok repairJob → ∀ now' stop route,
    engine.plan repairJob (later group.2 now) = .ok (now', stop, route) → ∀ provider client providerSymbol,
      ∀ (w : World σ) tally w', (download host reader repairJob now' provider client providerSymbol group.1.1 stop w).2 =
          some (.ok tally w') →
        ∀ gap ∈ members group.1, SettledAt (later group.2 now) job.timeframe gap →
          ((download host reader repairJob now' provider client providerSymbol group.1.1 stop w).1.filter fun request =>
            request.start ≤ gap ∧ gap < request.stop).length = 1
  /-- A gap is recorded if its candle is delivered and it is settled. -/
  recorded : ∀ gap ∈ members group.1, Delivered host reader engine job now group gap →
    SettledAt (later group.2 now) job.timeframe gap → gap ∈ covered
  /-- The run has only succeeded if all gaps are covered. -/
  succeeded : run.state = .succeeded → ∀ gap ∈ members group.1, gap ∈ covered

variable {host reader engine job now clock group}

theorem Repairs.mono {covered covered' : List Instant} {run : HistoryRun}
    (h : Repairs (σ := σ) host reader engine job now clock group covered run) (hmono : covered ⊆ covered') :
    Repairs (σ := σ) host reader engine job now clock group covered' run where
  issued := h.issued
  asked := h.asked
  recorded gap hgap hdelivered hsettled := hmono (h.recorded gap hgap hdelivered hsettled)
  succeeded hstate gap hgap := hmono (h.succeeded hstate gap hgap)

/-- The gaps of a group are in its window. -/
theorem members_in_window {group : Instant × List Instant} {step : ℤ} (hstep : 0 < step)
    (hchain : (members group).IsChain fun a b => b = a + step) :
    ∀ gap ∈ members group, group.1 ≤ gap ∧ gap ≤ group.2.getLastD group.1 := by
  obtain ⟨first, rest⟩ := group
  unfold members at hchain ⊢
  dsimp only at hchain ⊢
  induction rest generalizing first with
  | nil => exact List.forall_mem_singleton.mpr ⟨le_rfl, le_rfl⟩
  | cons next rest ih =>
    obtain ⟨rfl, hrest⟩ := List.isChain_cons_cons.mp hchain
    have hin := ih (first + step) hrest
    have hlast : ((first + step) :: rest).getLastD first = rest.getLastD (first + step) := List.getLastD_cons ..
    rw [hlast]
    refine List.forall_mem_cons.mpr ⟨⟨le_rfl, ?_⟩, ?_⟩
    · have hle := (hin (first + step) (List.mem_cons_self ..)).2
      linarith
    · intro gap hgap
      obtain ⟨hge, hle⟩ := hin gap hgap
      exact ⟨by linarith, hle⟩

/-- The job that repairs a group: its window is from the first gap to the end of the last one. -/
theorem repairing_ok {group : Instant × List Instant} {repairJob : HistoryJob} (h : job.repairing group = .ok repairJob) :
    repairJob.window = some (group.1, group.2.getLastD group.1 + job.step) ∧ repairJob.market = job.market ∧
      repairJob.symbol = job.symbol ∧ repairJob.timeframe = job.timeframe ∧ repairJob.step = job.step := by
  unfold HistoryJob.repairing HistoryJob.within at h
  split_ifs at h
  obtain rfl := Except.ok.inj h
  exact ⟨rfl, rfl, rfl, rfl, rfl⟩

/-- The requests of the run for a group have each settled gap in one window. -/
theorem asked_once (hchain : (members group.1).IsChain fun a b => b = a + job.step) {repairJob : HistoryJob}
    (hjob : job.repairing group.1 = .ok repairJob) {now' stop : Instant} {route : List Provider}
    (hplan : engine.plan repairJob (later group.2 now) = .ok (now', stop, route)) {provider : Provider}
    {client : HistoricalClient} {providerSymbol : String} {w w' : World σ} {tally : Tally}
    (hok : (download host reader repairJob now' provider client providerSymbol group.1.1 stop w).2 = some (.ok tally w'))
    {gap : Instant} (hgap : gap ∈ members group.1) (hat : SettledAt (later group.2 now) job.timeframe gap) :
    ((download host reader repairJob now' provider client providerSymbol group.1.1 stop w).1.filter fun request =>
      request.start ≤ gap ∧ gap < request.stop).length = 1 := by
  obtain ⟨hwindow, -, -, htimeframe, -⟩ := repairing_ok hjob
  obtain ⟨settled, hlast, rfl⟩ := stop_of_plan hwindow hplan
  obtain ⟨settled', hlast', hsettled⟩ := hat
  rw [htimeframe] at hlast
  obtain rfl : settled = settled' := Except.ok.inj (hlast.symm.trans hlast')
  obtain ⟨hge, hle⟩ := members_in_window job.step_pos hchain gap hgap
  have hstop : gap ≤ min (group.1.2.getLastD group.1.1 + job.step) settled :=
    le_min (hle.trans (by linarith [job.step_pos])) hsettled
  obtain ⟨hlimit, hcovers⟩ := covers_of_download (hge.trans hstop) hok
  rw [hcovers.once gap, if_pos ⟨hge, hstop.trans_lt (reached_spec hlimit).1⟩]

variable [CoveringStore σ] [LawfulHistoryStore σ]

/-- The run for a group. -/
theorem repairGroup_repairs (hchain : (members group.1).IsChain fun a b => b = a + job.step) {w w' : World σ}
    {run : HistoryRun} (hw : w.Settled) (h : repairGroup host reader engine job now clock group w = .ok run w') :
    w'.Settled ∧ w.covered job ⊆ w'.covered job ∧
      Repairs (σ := σ) host reader engine job now clock group (w'.covered job) run := by
  unfold repairGroup at h
  obtain ⟨repairJob, w₀, hfirst, hrest⟩ := Effect.bind_eq_ok.mp h
  obtain ⟨hjob, rfl⟩ := Effect.ofExcept_eq_ok.mp hfirst
  obtain ⟨hwindow, hmarket, hsymbol, htimeframe, -⟩ := repairing_ok hjob
  obtain ⟨run₀, w₁, hsync, hlast⟩ := Effect.bind_eq_ok.mp hrest
  rw [Effect.bind_of_ok (Effect.get_apply w₁)] at hlast
  have hcovered : ∀ w : World σ, w.covered repairJob = w.covered job := by
    intro w
    unfold World.covered
    rw [hmarket, hsymbol, htimeframe]
  obtain ⟨hsettled, hmono, hcandles⟩ := (sync_records hwindow (later group.2 now) (clock group.2).1 (clock group.2).2 hw).of_ok
    hsync
  rw [hcovered, hcovered] at hmono
  have hrecorded : ∀ gap ∈ members group.1, Delivered host reader engine job now group gap →
      SettledAt (later group.2 now) job.timeframe gap → gap ∈ w₁.covered job := by
    rintro gap hgap ⟨repairJob', hjob', candle, hcandle, hcsymbol, hctimeframe, rfl⟩ hat
    obtain rfl : repairJob = repairJob' := Except.ok.inj (hjob.symm.trans hjob')
    obtain ⟨hge, hle⟩ := members_in_window job.step_pos hchain _ hgap
    rw [← hcovered]
    refine hcandles candle hcandle (hcsymbol.trans hsymbol.symm) (hctimeframe.trans htimeframe.symm) hge ?_ ?_
    · exact hle.trans (by linarith [job.step_pos])
    · rwa [htimeframe]
  have hasked : ∀ repairJob, job.repairing group.1 = .ok repairJob → ∀ now' stop route,
      engine.plan repairJob (later group.2 now) = .ok (now', stop, route) → ∀ provider client providerSymbol,
        ∀ (w : World σ) tally w', (download host reader repairJob now' provider client providerSymbol group.1.1 stop w).2 =
            some (.ok tally w') →
          ∀ gap ∈ members group.1, SettledAt (later group.2 now) job.timeframe gap →
            ((download host reader repairJob now' provider client providerSymbol group.1.1 stop w).1.filter fun request =>
              request.start ≤ gap ∧ gap < request.stop).length = 1 :=
    fun _ hjob' _ _ _ hplan _ _ _ _ _ _ hok _ hgap hat => asked_once hchain hjob' hplan hok hgap hat
  dsimp only at hlast
  split_ifs at hlast with hremaining
  · rw [Effect.bind_of_ok (Effect.modify_apply _ w₁)] at hlast
    cases hlast
    refine ⟨hsettled, ?_, ⟨⟨repairJob, hjob, hwindow, w₀, w₁, run₀, hsync, rfl, fun h => (nomatch h)⟩, hasked, ?_,
      fun h => (nomatch h)⟩⟩
    · rw [covered_saveRun]
      exact hmono
    · rw [covered_saveRun]
      exact hrecorded
  · cases hlast
    refine ⟨hsettled, hmono, ⟨⟨repairJob, hjob, hwindow, w₀, w', run, hsync, rfl, fun _ => rfl⟩, hasked, hrecorded, ?_⟩⟩
    intro hstate gap hgap
    by_contra hnot
    refine hremaining ⟨?_, hstate⟩
    exact List.ne_nil_of_mem (List.mem_filter.mpr ⟨hgap, decide_eq_true hnot⟩)

/-- The runs of a repair, group by group. -/
theorem each_repairs {groups : List ((Instant × List Instant) × ℕ)}
    (hchain : ∀ group ∈ groups, (members group.1).IsChain fun a b => b = a + job.step) {w w' : World σ}
    {runs : List HistoryRun} (hw : w.Settled)
    (h : Effect.each (repairGroup host reader engine job now clock) groups w = .ok runs w') :
    w'.Settled ∧ w.covered job ⊆ w'.covered job ∧
      List.Forall₂ (fun group run => Repairs (σ := σ) host reader engine job now clock group (w'.covered job) run) groups
        runs := by
  induction groups generalizing w runs with
  | nil =>
    obtain ⟨rfl, rfl⟩ := Effect.each_nil_eq_ok.mp h
    exact ⟨hw, List.Subset.refl _, .nil⟩
  | cons group groups ih =>
    obtain ⟨run, w₁, rest, hgroup, hrest, rfl⟩ := Effect.each_cons_eq_ok.mp h
    obtain ⟨hfirst, hchain⟩ := List.forall_mem_cons.mp hchain
    obtain ⟨hsettled, hmono, hrepairs⟩ := repairGroup_repairs hfirst hw hgroup
    obtain ⟨hsettled', hmono', hall⟩ := ih hchain hsettled hrest
    exact ⟨hsettled', List.Subset.trans hmono hmono', .cons (hrepairs.mono hmono') hall⟩

end Repairs

/-- **Gaps are repaired.** The gaps are split into their maximal runs, and there is one `sync` for each. After the repair
each settled gap whose candle was delivered is covered, and a run that says that it has succeeded has all of its gaps
covered. -/
theorem gaps_are_repaired {σ : Type} [HistoryStore σ] [CoveringStore σ] [LawfulHistoryStore σ] (host : Host)
    (reader : Reader) (engine : BackfillEngine) (job : HistoryJob) (gaps : List DateTime) (now : DateTime)
    (clock : ℕ → Instant × Instant) {groups : List ((Instant × List Instant) × ℕ)} (hgroups : job.groups gaps = .ok groups)
    {w w' : World σ} (hw : w.Settled) {runs : List HistoryRun}
    (h : repair host reader engine job gaps now clock w = .ok runs w') :
    (∃ opens, gaps.mapM (fun gap => utc gap "gap") = .ok opens ∧
      MaximalRuns job.step opens (groups.map fun group => members group.1) ∧
      ((∀ t ∈ opens, ∀ t' ∈ opens, job.step ∣ t' - t) → ∀ group ∈ groups, ∀ t ∈ members group.1,
        (t + job.step ∈ opens → t + job.step ∈ members group.1) ∧
          (t - job.step ∈ opens → t - job.step ∈ members group.1))) ∧
    List.Forall₂ (fun group run => Repairs (σ := σ) host reader engine job now clock group (w'.covered job) run) groups runs ∧
      w'.Settled := by
  obtain ⟨opens, hopens, hmaximal⟩ := groups_maximal hgroups
  have hchain : ∀ group ∈ groups, (members group.1).IsChain fun a b => b = a + job.step :=
    fun group hgroup => hmaximal.consecutive _ (List.mem_map_of_mem hgroup)
  unfold repair at h
  rw [hgroups, Effect.bind_of_ok (Effect.ofExcept_eq_ok.mpr ⟨rfl, rfl⟩)] at h
  obtain ⟨hsettled, -, hall⟩ := each_repairs hchain hw h
  refine ⟨⟨opens, hopens, hmaximal, ?_⟩, hall, hsettled⟩
  intro hgrid group hgroup
  exact hmaximal.closed job.step_pos hgrid _ (List.mem_map_of_mem hgroup)

namespace Sample

/-- Gaps at 04:25, 03:00, and 04:10 with 04:15, which is given twice. -/
def gaps : List DateTime := [1786681500, 1786680900, 1786676400, 1786680600, 1786680900].map fun n => .aware (seconds n)

/-- The repair of the gaps, when Dhan has the bars of 04:10 to 04:25. -/
def repaired : EStateM.Result PyError World (List HistoryRun) :=
  repair .cpython .plain (engine [1786680600, 1786680900, 1786681200, 1786681500]) job gaps (.aware now)
    (fun _ => (now, now)) {}

end Sample

/-- There are three runs of gaps. Dhan does not have the first one, and that is what its run says. -/
theorem gaps_of_three_runs : ∃ groups runs w', Sample.job.groups Sample.gaps = .ok groups ∧
    groups.map (fun group => members group.1) = [[seconds 1786676400], [seconds 1786680600, seconds 1786680900],
      [seconds 1786681500]] ∧
    Sample.repaired = .ok runs w' ∧ runs.map HistoryRun.state = [.failed, .succeeded, .succeeded] ∧
    List.Forall₂ (fun group run => Repairs (σ := HistoryState) .cpython .plain
      (Sample.engine [1786680600, 1786680900, 1786681200, 1786681500]) Sample.job (.aware Sample.now)
        (fun _ => (Sample.now, Sample.now)) group (w'.covered Sample.job) run) groups runs := by
  have hgroups : (Sample.job.groups Sample.gaps).toOption.map (fun groups => groups.map fun group => members group.1) =
      some [[seconds 1786676400], [seconds 1786680600, seconds 1786680900], [seconds 1786681500]] := by decide +kernel
  have hruns : (Effect.returned Sample.repaired).map (fun runs => runs.map HistoryRun.state) =
      some [.failed, .succeeded, .succeeded] := by decide +kernel
  obtain ⟨runs, hreturned, hstates⟩ := Option.map_eq_some_iff.mp hruns
  obtain ⟨w', hrepair⟩ := Effect.returned_eq_some.mp hreturned
  cases hok : Sample.job.groups Sample.gaps with
  | error e =>
    rw [hok] at hgroups
    cases hgroups
  | ok groups =>
    rw [hok] at hgroups
    have hsettled : ({} : World).Settled := by
      intro candle hcandle
      cases hcandle
    have hall := gaps_are_repaired .cpython .plain _ Sample.job Sample.gaps _ _ hok hsettled hrepair
    exact ⟨groups, runs, w', rfl, Option.some.inj hgroups, hrepair, hstates, hall.2.1⟩

end NanoDelta.History
