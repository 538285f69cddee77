import NanoDelta.Runtime.PaperAttempt

/-!
# Entry orders of the session

Whether a candidate gets more than one entry order when cycles are retried. The key of an
order is made of the cycle and of the risk decision, and the id of the risk decision of the
portfolio snapshot. A retry that finds the position of the first attempt open does not trade
its symbol; one that finds it closed again has a new snapshot, and with it a new key.

* `one_entry_order_while_held`: in a run in which every attempt finds the positions of the
  entries it would repeat still open, no candidate has more than one entry order.
* `second_entry_after_an_exit`: a worker dies after its entry, another one closes the position
  at its stop, and the retry enters again.
-/

namespace NanoDelta.Runtime

open Library Strategies Decisions Risk Outcomes Paper Orchestration Postgres

variable {host : Host} {account : String}

/-! ### Runs in which positions are still held -/

/-- The condition on an attempt: if it can claim its cycle, the account holds the symbol of each of its rows
on which a registered strategy proposes a candidate that has an entry order already. -/
def StillHeld (host : Host) (account : String) (w : SessionWorld) : SessionInput → Prop
  | .attempt a => ∀ t, a.clock.claimed = .aware t →
      Claimable w.cycles (sessionCycleIdOf host account a.features) t →
      ∀ feature ∈ a.features, ∀ definition ∈ a.settings.registry.definitions.values, ∀ action,
        entryOrders w.paper (candidateIdOf host definition.identity feature action) ≠ [] →
        Holds account feature.symbol w.paper
  | .restart _ => True
  | .others _ _ => True

/-- What a run keeps: the tables and the memories are sound, and no candidate has two entry orders. -/
structure SessionSound (host : Host) (account : String) (w : SessionWorld) (ledger : List ExecutionReceipt) :
    Prop where
  tables : LedgerSound host account w.paper ledger
  caches : ∀ i, CacheSound host account (w.workers i).engine ledger
  recorders : ∀ i, RecorderSound host account (w.workers i).outcomes
  once : ∀ candidateId, (entryOrders w.paper candidateId).length ≤ 1

theorem recorderSound_new : RecorderSound host account .empty := by
  intro positionId outcome h
  cases h

theorem sessionSound_initial (tables : Others) (strategyDefinitions : List StrategyRow) :
    SessionSound host account (.initial tables strategyDefinitions) [] := by
  have hfiles := (shared_initial tables).files
  refine ⟨⟨⟨hfiles.orders, hfiles.fills, hfiles.orderPositions, hfiles.keys, hfiles.orderIds, hfiles.filled,
    hfiles.keyed⟩, ?_, ?_, ?_, ?_⟩, fun _ => cacheSound_new [], fun _ => recorderSound_new, fun _ => Nat.zero_le _⟩
  · intro o ho
    cases ho
  · intro d hd
    cases hd
  · intro p hp
    cases hp
  · intro r hr
    cases hr

/-- What an attempt leaves in the memory of its worker. -/
theorem memoryAfter_sound {result : EStateM.Result PyError Worker PaperSessionRun} {ledger : List ExecutionReceipt}
    (hrecorder : RecorderSound host account (Effect.final result).outcomes)
    (hcache : CacheSound host account (Effect.final result).engine ledger) :
    CacheSound host account (memoryAfter result).engine ledger ∧
      RecorderSound host account (memoryAfter result).outcomes := by
  cases result with
  | ok run s => exact ⟨hcache, hrecorder⟩
  | error e s =>
    simp only [memoryAfter]
    split
    · exact ⟨cacheSound_new ledger, recorderSound_new⟩
    · exact ⟨hcache, hrecorder⟩

/-- An attempt that meets the condition leaves at most one entry order for a candidate. -/
theorem SessionSound.attempt (hhost : Digests host) {w : SessionWorld} {ledger : List ExecutionReceipt}
    (hw : SessionSound host account w ledger) {a : SessionAttempt} (ha : StillHeld host account w (.attempt a)) :
    ∃ more, SessionSound host account ((session host account).step w (.attempt a)).1 (ledger ++ more) := by
  have hs : (w.start a.worker).Sound host account ledger := by
    refine ⟨hw.recorders a.worker, [], ?_, ?_⟩
    · rw [List.append_nil]
      exact hw.tables
    · rw [List.append_nil]
      exact hw.caches a.worker
  have hafter : (Effect.final (a.program host account (w.start a.worker))).core = (w.start a.worker).core ∨
      (∃ t, a.clock.claimed = .aware t ∧ Claimable w.cycles (sessionCycleIdOf host account a.features) t) ∧
        Attempted host account ledger a.settings.registry a.features (w.start a.worker)
          (Effect.final (a.program host account (w.start a.worker))) :=
    (processOne_ends hhost hs a.nse a.token a.clock).final
  have honce : ∀ candidateId,
      (entryOrders (Effect.final (a.program host account (w.start a.worker))).paper candidateId).length ≤ 1 := by
    intro candidateId
    rcases hafter with hcore | ⟨⟨t, hclock, hclaimable⟩, hattempted⟩
    · rw [entryOrders_of_core hcore]
      exact hw.once candidateId
    · by_cases hent : Enterable host account a.settings.registry a.features w.paper candidateId
      · -- an entry for the candidate is new: had it one, its symbol would be held
        have hnone : entryOrders w.paper candidateId = [] := by
          obtain ⟨feature, hfeature, definition, hdefinition, action, rfl, hfree⟩ := hent
          by_contra hsome
          exact hfree (ha t hclock hclaimable feature hfeature definition hdefinition action hsome)
        have hmore := hattempted.entered.once candidateId
        rwa [show entryOrders (w.start a.worker).paper candidateId = [] from hnone] at hmore
      · exact (hattempted.entered.other candidateId hent).trans (hw.once candidateId)
  have hsound : (Effect.final (a.program host account (w.start a.worker))).Sound host account ledger := by
    rcases hafter with hcore | ⟨-, hattempted⟩
    · exact hs.of_core hcore
    · exact hattempted.sound
  obtain ⟨hrecorder, more, htables, hcache⟩ := hsound
  obtain ⟨hcache', hrecorder'⟩ := memoryAfter_sound hrecorder hcache
  refine ⟨more, htables, fun i => ?_, fun i => ?_, honce⟩
  · by_cases hi : i = a.worker
    · subst hi
      simp only [session, Function.update_self]
      exact hcache'
    · simp only [session, Function.update_of_ne hi]
      exact (hw.caches i).append more
  · by_cases hi : i = a.worker
    · subst hi
      simp only [session, Function.update_self]
      exact hrecorder'
    · simp only [session, Function.update_of_ne hi]
      exact hw.recorders i

/-- One step that meets the condition. -/
theorem SessionSound.step (hhost : Digests host) {w : SessionWorld} {ledger : List ExecutionReceipt}
    (hw : SessionSound host account w ledger) {input : SessionInput} (hinput : StillHeld host account w input) :
    ∃ more, SessionSound host account ((session host account).step w input).1 (ledger ++ more) := by
  cases input with
  | attempt a => exact hw.attempt hhost hinput
  | restart worker =>
    refine ⟨[], ?_⟩
    rw [List.append_nil]
    refine ⟨hw.tables, fun i => ?_, fun i => ?_, hw.once⟩
    · by_cases hi : i = worker
      · subst hi
        simp only [session, Function.update_self]
        exact cacheSound_new ledger
      · simp only [session, Function.update_of_ne hi]
        exact hw.caches i
    · by_cases hi : i = worker
      · subst hi
        simp only [session, Function.update_self]
        exact recorderSound_new
      · simp only [session, Function.update_of_ne hi]
        exact hw.recorders i
  | others tables strategyDefinitions =>
    refine ⟨[], ?_⟩
    rw [List.append_nil]
    have hfiles := hw.tables.files
    exact ⟨⟨⟨hfiles.orders, hfiles.fills, hfiles.orderPositions, hfiles.keys, hfiles.orderIds, hfiles.filled,
      hfiles.keyed⟩, hw.tables.decided, hw.tables.written, hw.tables.rows, hw.tables.receipts⟩, hw.caches,
      hw.recorders, hw.once⟩

/-- **One entry order for a candidate**, in every run of the session in which each attempt that can claim its
cycle finds held the symbols of the entries that it would repeat: whichever workers make the attempts, whichever
transactions fail or are never begun, and whatever exits happen between. -/
theorem one_entry_order_while_held (host : Host) (hhost : Digests host) (account : String) (tables : Others)
    (strategyDefinitions : List StrategyRow) (inputs : List SessionInput)
    (hheld : (session host account).Along (StillHeld host account) (.initial tables strategyDefinitions) inputs)
    (candidateId : String) :
    (entryOrders ((session host account).exec (.initial tables strategyDefinitions) inputs).paper
      candidateId).length ≤ 1 := by
  have hrun : ∃ ledger, SessionSound host account
      ((session host account).exec (.initial tables strategyDefinitions) inputs) ledger := by
    refine Machine.exec_invariant_along (P := fun w => ∃ ledger, SessionSound host account w ledger) ?_
      ⟨[], sessionSound_initial tables strategyDefinitions⟩ hheld
    rintro w input ⟨ledger, hw⟩ hinput
    obtain ⟨more, hw'⟩ := hw.step hhost hinput
    exact ⟨ledger ++ more, hw'⟩
  obtain ⟨ledger, hsound⟩ := hrun
  exact hsound.once candidateId

/-! ### A retry, with the position open and with the position closed -/

namespace Sample

open Risk.Sample Orchestration.Sample

/-- No candles and no regime; the session is open. -/
def data : MarketData where
  latestMarks _ := .ok .empty
  sectorFor _ := none
  marketSectorFit _ _ _ := .ok (1, 1)
  technical _ := .ok none
  correlations _ _ := .ok .empty
  entrySessionOpen _ _ := .ok true

theorem off_reviewer : LlmReviewMode.off ≠ .off → (none : Option CandidateReviewer).isSome = true := fun h => absurd rfl h

/-- A worker with the built-in strategy, and a lease of five minutes. -/
def settings : Settings where
  registry := registry
  strategies := catalog
  allocation := batchPolicy
  limits := tightLimits
  execution := ⟨0, 0, Amounts.zeros_nonneg⟩
  equity := 20000
  maxAgeSeconds := 180
  llmMode := .off
  reviewer := none
  reviewer_given := off_reviewer
  data := data
  lease := seconds 300

/-- A bar of one percent up, at a time after noon. -/
def row (recordId : String) (after : ℤ) (close : ℚ) : FeatureRecord where
  recordId := recordId
  candleRecordId := "candle"
  market := .nse
  symbol := "RELIANCE"
  timeframe := "1m"
  eventTime := .aware (noon + seconds after)
  close := close
  return1 := 1 / 100
  rangePct := 1 / 50
  bodyPct := 1 / 100
  volumeChange := none

/-- An attempt at one row, at a time after noon. -/
def attempt (worker : ℕ) (recordId : String) (after : ℤ) (close : ℚ) (time : ℤ) (token : String)
    (outage : Outage) : SessionInput :=
  .attempt
    { worker, settings, token, outage
      features := [row recordId after close]
      clock := ⟨.aware (noon + seconds time), .aware (noon + seconds time), .aware (noon + seconds time)⟩
      nse := by
        intro feature hfeature
        rw [List.mem_singleton.mp hfeature]
        rfl }

/-- Worker 0 enters for the noon bar, and is killed before it completes the cycle. -/
def killed : SessionInput := attempt 0 "gold-1" 0 100 1 "token-1" (.killedAt 16)

/-- Worker 1 gets the next bar, which closes below the stop. -/
def stopped : SessionInput := attempt 1 "gold-2" 60 97 61 "token-2" .none

/-- The lease has run out, and the noon bar is tried again. -/
def retried : SessionInput := attempt 0 "gold-1" 0 100 400 "token-3" .none

/-- The tables with the strategy and its approval. -/
def start (host : Host) : SessionWorld :=
  .initial .sample [⟨(momentumIdentity .nse).key host, "momentum_continuation", "1.0.0", "1m", "intraday", 1⟩]

/-- The candidate of the noon bar. -/
def candidateId (host : Host) : String := candidateIdOf host (momentumIdentity .nse) (row "gold-1" 0 100) .buy

/-- The texts that the retry hashes, with their SHA-256 digests. -/
def retryDigests : List (String × String) :=
  let strategy := "44a4b9fc57d37a482c6c05745a5c7825f9be94de8d61bad4982270eebac908d6"
  let cycle := "9c89c9c3015ac3bbd58413ead0923d1643f4ff4fa2612ac8bd091538d87c661c"
  let candidate := "06676e4c045d8651e730f0f9a919d755b7d2581b1f4355d324f6964ba2d646b0"
  let snapshot := "e274914442d68629b92331f947d24bff35ac3cb10167f4734ab8c4eedfbae526"
  let intent := "4e355be0b4de51e9076aff5976ab015c8c5e11c7b254e7918dc1de4507987ac2"
  let decision := "739609efb995bb0e5d25e4491136d2c49318e68f9183f166df04c3bcfbbee7d6"
  let order := "48d77ea8e566ca81b19a369b16c97d4875eff26c8d85a81e0d35fb0c483b8771"
  let fill := "165092460828aae94f378974313e43a9b728fc0347df1321c53e13288b35aa07"
  let decided (text : String) := cycle ++ "|nse|RELIANCE|1m|" ++ text
  let judged (text : String) := decided text ++ "|" ++ candidate ++ "|" ++ strategy
  [("nse|momentum_continuation|1.0.0|1m|intraday|1", strategy),
   ("continuous-nse-paper-session|paper-1|('gold-1',)",
    "cfa13e9f6792b53bf0d196db4ec1f88eb80a56b956abe9c60d2b8f8246c7f4d4"),
   ("portfolio-snapshot|nse|paper-1|20000.0|0.0|()|2026-08-15T12:00:01+00:00", snapshot),
   ("decision-cycle|(('nse', 'RELIANCE', '2026-08-15T12:00:00+00:00', '1m', 'intraday', 1, 'gold-1'),)", cycle),
   (decided "data_readiness|passed|DATA_READY|None|None",
    "3e4bfaebd6a828e0d6e8cf4cbf22cfca3c60af49d8e23c7241419c9b9a7e7f94"),
   (decided "tradeability|passed|SYMBOL_TRADEABLE|None|None",
    "6c01fdfec9d173392c2f1312a27645f44c47525f15564c311d6da76d7a469619"),
   (decided ("strategy_eligibility|passed|STRATEGY_ELIGIBLE|None|" ++ strategy),
    "8596e969e1088b2ba5a1f1f793f76727b2437439cddf325f4474f8c0e5f97f70"),
   (strategy ++ "|RELIANCE|2026-08-15T12:00:00+00:00|BUY|gold-1", candidate),
   (judged "signal|passed|SIGNAL_GENERATED", "9085138699ddc69b1d5e83b7959080e126111a026de4c84d65197215f550c3a5"),
   (judged "scoring|passed|POSITIVE_EXPECTED_R", "20b9167c7e20cf6e9e7b4714cc2a672011eabcd53cb0f18a7d7fb1bcc2281cb0"),
   (judged "signal_quality|passed|NO_CONFLICT", "b56dc1f1347e4febc1142d912797e9929bfa08e5e78f53620dd36c73fedfc7fd"),
   (judged "llm_review|skipped|LLM_OFF", "489b94f342923a79a31dabeb7900f4c611de7e9aabd393a7abe107395a3ba643"),
   (judged "portfolio_construction|passed|PORTFOLIO_SELECTED",
    "4a87b7f56c31f6c8fe11c29080b23b280dfcfd19a4dd2396a1c5c49064f790ed"),
   (judged "entry_revalidation|passed|ENTRY_REVALIDATED",
    "0c14ec4e0ff731d55a981fdecb5a3d56aea7555359252e2d7e90b306a625a0db"),
   ("trade-intent|" ++ cycle ++ "|" ++ candidate, intent),
   (intent ++ "|" ++ snapshot ++
      "|2026-08-15T12:00:01+00:00|RiskLimits(max_order_notional=10000.0, max_position_notional=10000.0, " ++
      "max_market_gross_exposure=15000.0, max_total_gross_exposure=15000.0, " ++
      "max_daily_loss=2000.0, max_open_positions=1, max_snapshot_age_seconds=30)",
    decision),
   (judged "risk|passed|RISK_APPROVED", "384937fa386433889488ac537c233d0e63bbd2a12f725dc8d85320ab2cb78613"),
   ("paper-order|" ++ cycle ++ ":" ++ decision ++ "|" ++ decision, order),
   ("paper-fill|" ++ order ++ "|2026-08-15T12:00:01+00:00", fill),
   ("paper-position|nse|paper-1|RELIANCE|" ++ fill,
    "c3f20510f95335651c0edf4d217e1b028aef0e086081682213c40b862d8b5eb8"),
   ("paper-realization|" ++ fill, "854529bdfbc6bbe0275bcbb57331071216599e5e8c7afcd147451b2747aef899"),
   (judged "execution|ordered|PAPER_ORDER_CREATED",
    "599eaf89822f27b7515a5ee240eaeb802600fdd4b48bb0edef378dcd9548ac5f"),
   ("portfolio-snapshot|nse|paper-1|20000.0|0.0|(('nse', 'paper-1', 'RELIANCE', 100.0, 100.0),)|" ++
      "2026-08-15T12:00:01+00:00",
    "15f7565d111f826b7b674fb47d531be2879c6e2a38fd94ead6eb7c4dc58ae506"),
   (judged "portfolio_construction|rejected|EXISTING_POSITION",
    "79fe4eb7ce32eece6ff1b23ea41e962362fa1775e9cc7c5d11bda75e0daf3167"),
   (strategy ++ "|RELIANCE|2026-08-15T12:00:00+00:00|SELL|gold-1",
    "6dd31245798135af4a04465a564eab6c0497b6fde0794b332754f31a00a63e3c"),
   (strategy ++ "|RELIANCE|2026-08-15T12:00:00+00:00|ABSTAIN|gold-1",
    "199d9e0773fd788fbe1bdc78bc37366e86aade2259ee9046507775e5ac7eb37e")]

/-- The runtime on the retry. -/
def retryHost : Host := Host.recorded retryDigests

/-- The characters of the table. -/
def retrySpelling : Text.Spelling retryDigests := by
  repeat' first | exact Text.Spelled.ofList _ | apply Text.Spelled.append | apply Text.Spelling.cons | exact Text.Spelling.nil

theorem hexdigest_retryDigests : ∀ e ∈ retryDigests, Sha256.hexdigest e.1 = e.2 := by
  apply Sha256.hexdigest_of_spelling retrySpelling
  -- One text at a time, so that each evaluation is small.
  repeat' first | exact List.forall_mem_nil _ | refine List.forall_mem_cons.mpr ⟨?_, ?_⟩
  all_goals decide +kernel

end Sample

/-- The runtime with the digests of a table: there are no collisions, and no digest reads `protective-exit`. -/
theorem digests_recorded {table : List (String × String)} (hnodup : (table.map Prod.snd).Nodup)
    (htable : ∀ e ∈ table, Sha256.hexdigest e.1 = e.2) : Digests (Host.recorded table) := by
  refine ⟨Host.recorded_collisionFree hnodup htable, ?_⟩
  intro text h
  have hfirst : 'p' ∈ ((Host.recorded table).sha256 text).toList := by
    rw [h]
    decide
  have hrecorded : (Host.recorded table).sha256 text = Text.recorded table text := rfl
  rw [hrecorded] at h hfirst
  unfold Text.recorded at h hfirst
  split at h
  · rename_i digest hdigest
    have hhex := htable (text, digest) (Text.mem_of_lookup_eq_some hdigest)
    simp only at hhex
    simp only [hdigest] at hfirst
    rw [← hhex] at hfirst
    exact absurd (Sha256.mem_hexdigest hfirst) (by decide)
  · have htilde : '~' ∈ ("protective-exit" : String).toList := by
      rw [← h]
      simp
    exact absurd htilde (by decide)

/-- The retry of a killed worker's cycle, while the position is open: the condition is met, and there is one
entry order. -/
theorem retry_while_held :
    (session Sample.retryHost "paper-1").Along (StillHeld Sample.retryHost "paper-1") (Sample.start Sample.retryHost)
        [Sample.killed, Sample.retried] ∧
      (entryOrders ((session Sample.retryHost "paper-1").exec (Sample.start Sample.retryHost)
        [Sample.killed, Sample.retried]).paper (Sample.candidateId Sample.retryHost)).length = 1 := by
  have hdigests : Digests Sample.retryHost :=
    digests_recorded (Sample.retrySpelling.nodup (by decide +kernel)) Sample.hexdigest_retryDigests
  -- Both in one evaluation, which makes the first step once.
  obtain ⟨hopen, hentered⟩ : Holds "paper-1" "RELIANCE" ((session Sample.retryHost "paper-1").step
        (Sample.start Sample.retryHost) Sample.killed).1.paper ∧
      entryOrders ((session Sample.retryHost "paper-1").exec (Sample.start Sample.retryHost)
        [Sample.killed, Sample.retried]).paper (Sample.candidateId Sample.retryHost) ≠ [] := by
    rw [Sample.retryHost, Host.spelled_eq Sample.retrySpelling]
    decide +kernel
  have hheld : (session Sample.retryHost "paper-1").Along (StillHeld Sample.retryHost "paper-1")
      (Sample.start Sample.retryHost) [Sample.killed, Sample.retried] := by
    refine ⟨?_, ?_, trivial⟩
    · intro t _ _ feature _ definition _ action hentered
      exact absurd rfl hentered
    · intro t _ _ feature hfeature definition _ action _
      rw [List.mem_singleton.mp hfeature]
      exact hopen
  refine ⟨hheld, le_antisymm ?_ (List.length_pos_of_ne_nil hentered)⟩
  exact one_entry_order_while_held Sample.retryHost hdigests "paper-1" .sample _ _ hheld _

/-- A worker is killed after it has entered, another one closes the position at its stop, and the retry of
the cycle enters again: the candidate has two entry orders. -/
theorem second_entry_after_an_exit :
    (entryOrders ((session .cpython "paper-1").exec (Sample.start .cpython)
      [Sample.killed, Sample.stopped, Sample.retried]).paper (Sample.candidateId .cpython)).length = 2 := by
  rw [← Host.evaluated_eq]
  decide +kernel

end NanoDelta.Runtime
