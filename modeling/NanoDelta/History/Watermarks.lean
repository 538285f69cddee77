import Mathlib.Logic.Function.Basic
import NanoDelta.History.Postgres
import NanoDelta.History.Stored
import NanoDelta.Library.Machine
import NanoDelta.Library.Paired

/-!
# Watermarks

What a sequence of `sync` and `repair` does to the watermarks, attempt by attempt: an attempt is what `sync` does with one
provider of its route. Every attempt is of the providers as they answer then; each call has an engine of its own.

* `Attempt.Does`: an attempt that fails changes nothing, one that succeeds moves one watermark forward, to the open of a
  candle that was delivered. `Chain`: attempts one after another.
* `sync_chain`, `repair_chain`: what the calls do is what their attempts do, whatever store they write to.
* `sync_paired`, `repair_paired`: two stores with the same event times go on having the same.
* `watermarks_hold`: the two stores of the program, over any sequence of calls.
-/

namespace NanoDelta.History

open Library Providers

/-- Event times, by market, provider, symbol and timeframe. -/
abbrev Times := Market × Provider × String × String → Option Instant

/-- The event times of the watermarks. -/
def World.times {σ : Type} [HistoryStore σ] (w : World σ) : Times := HistoryStore.time w.state

/-! ### Attempts -/

/-- The windows that are requested from the cursor on, for a number of steps. -/
def HistoryJob.windowsFrom (job : HistoryJob) (stop : Instant) : ℕ → Instant → List (Instant × Instant)
  | 0, _ => []
  | n + 1, cursor =>
    if cursor ≤ stop then (cursor, job.windowEnd stop cursor) :: windowsFrom job stop n (job.windowEnd stop cursor)
    else []

/-- The open of the first bar that is asked for, by the event time of the watermark. -/
def HistoryJob.startAt (job : HistoryJob) (stop : Instant) (time : Option Instant) : Instant :=
  match job.window with
  | some window => window.1
  | none =>
    let targetStart := stop - seconds (86400 * job.targetDays)
    match time with
    | some time => max targetStart (time - job.step * job.overlapBars)
    | none => targetStart

theorem HistoryJob.start_eq (job : HistoryJob) (stop : Instant) (watermark : Option Watermark) :
    job.start stop watermark = job.startAt stop (watermark.map Watermark.eventTime) := by
  unfold HistoryJob.start HistoryJob.startAt
  cases job.window <;> cases watermark <;> rfl

/-- What `sync` does with one provider of its route. -/
structure Attempt where
  job : HistoryJob
  now : Instant
  provider : Provider
  client : HistoricalClient
  providerSymbol : String
  start : Instant
  stop : Instant
  succeeded : Bool

namespace Attempt

variable (host : Host) (reader : Reader) (a : Attempt)

/-- The key of its watermark. -/
def key : Market × Provider × String × String := (a.job.market, a.provider, a.job.symbol, a.job.timeframe)

/-- The windows that it requests if it is not stopped. -/
def windows : List (Instant × Instant) := a.job.windowsFrom a.stop (a.job.windows a.start a.stop) a.start

/-- The rows of the response for a window. -/
def response (window : Instant × Instant) : Except PyError (List Payload) :=
  a.job.response a.client a.providerSymbol a.stop window.1

/-- Every window was requested successfully. -/
def Answered : Prop := ∀ window ∈ a.windows, ∃ rows, a.response window = .ok rows

/-- A settled candle of the job with this open is delivered, and the open is in a requested window. -/
structure Delivers (opened : Instant) : Prop where
  candle : ∃ window ∈ a.windows, ∃ rows, a.response window = .ok rows ∧ ∃ payload ∈ rows, ∃ candle,
    settledOf host reader a.job.market a.provider a.providerSymbol payload (.aware a.now) = .ok (some candle) ∧
    candle.isSettled = true ∧ candle.symbol = a.job.symbol ∧ candle.timeframe = a.job.timeframe ∧ candle.openTime = opened
  range : a.start ≤ opened ∧ opened ≤ a.stop
  window : ∃ window ∈ a.windows, window.1 ≤ opened ∧ opened < window.2

/-- **What an attempt does** to the event times. -/
def Does (times times' : Times) : Prop :=
  a.start = a.job.startAt a.stop (times a.key) ∧
    if a.succeeded = true then a.Answered ∧ ∃ opened, a.Delivers host reader opened ∧
      times' = Function.update times a.key (some ((times a.key).elim opened fun t => max t opened))
    else times' = times

end Attempt

/-- Attempts one after another. -/
def Chain (host : Host) (reader : Reader) : List Attempt → Times → Times → Prop
  | [], times, times' => times' = times
  | a :: as, times, times' => ∃ between, a.Does host reader times between ∧ Chain host reader as between times'

section Chain

variable {host : Host} {reader : Reader} {as bs : List Attempt} {times times₁ times₂ : Times}

theorem Chain.append (h₁ : Chain host reader as times times₁) (h₂ : Chain host reader bs times₁ times₂) :
    Chain host reader (as ++ bs) times times₂ := by
  induction as generalizing times with
  | nil =>
    obtain rfl : times₁ = times := h₁
    exact h₂
  | cons a as ih =>
    obtain ⟨between, ha, has⟩ := h₁
    exact ⟨between, ha, ih has⟩

/-- **Watermarks do not go back.** -/
theorem Chain.le (h : Chain host reader as times times₁) {key : Market × Provider × String × String} {t : Instant}
    (ht : times key = some t) : ∃ t', times₁ key = some t' ∧ t ≤ t' := by
  induction as generalizing times t with
  | nil =>
    obtain rfl : times₁ = times := h
    exact ⟨t, ht, le_rfl⟩
  | cons a as ih =>
    obtain ⟨between, ⟨-, ha⟩, has⟩ := h
    split_ifs at ha with hsucceeded
    · obtain ⟨-, opened, -, rfl⟩ := ha
      by_cases hkey : key = a.key
      · subst hkey
        obtain ⟨t', ht', hle⟩ := ih has (Function.update_self ..)
        rw [ht, Option.elim_some] at hle
        exact ⟨t', ht', (le_max_left _ _).trans hle⟩
      · exact ih has ((Function.update_of_ne hkey ..).trans ht)
    · subst ha
      exact ih has ht

/-- **Where a watermark is**: where it was, or at a candle that an attempt has delivered. -/
theorem Chain.delivered (h : Chain host reader as times times₁) (key : Market × Provider × String × String) :
    times₁ key = times key ∨ ∃ a ∈ as, a.key = key ∧ a.succeeded = true ∧
      ∃ opened, a.Delivers host reader opened ∧ times₁ key = some opened := by
  induction as generalizing times with
  | nil =>
    obtain rfl : times₁ = times := h
    exact Or.inl rfl
  | cons a as ih =>
    obtain ⟨between, ⟨-, ha⟩, has⟩ := h
    rcases ih has with hsame | ⟨a', ha', hdelivered⟩
    · rw [hsame]
      split_ifs at ha with hsucceeded
      · obtain ⟨-, opened, hopened, rfl⟩ := ha
        by_cases hkey : key = a.key
        · subst hkey
          rw [Function.update_self]
          cases htime : times a.key with
          | none => exact Or.inr ⟨a, List.mem_cons_self .., rfl, hsucceeded, opened, hopened, rfl⟩
          | some t =>
            rcases le_total t opened with hle | hle
            · refine Or.inr ⟨a, List.mem_cons_self .., rfl, hsucceeded, opened, hopened, ?_⟩
              rw [Option.elim_some, max_eq_right hle]
            · exact Or.inl (by rw [Option.elim_some, max_eq_left hle])
        · exact Or.inl (Function.update_of_ne hkey ..)
      · exact Or.inl (congrFun ha key)
    · exact Or.inr ⟨a', List.mem_cons_of_mem _ ha', hdelivered⟩

end Chain

/-! ### One provider -/

section Provider

variable {host : Host} {reader : Reader} {job : HistoryJob} {now : Instant} {provider : Provider}
  {client : HistoricalClient} {providerSymbol : String} {start stop : Instant}

/-- The windows that are answered reach from the cursor to the end. -/
theorem exists_window {n : ℕ} {cursor opened : Instant} (hn : stop < cursor + n * job.step)
    (hanswered : ∀ window ∈ job.windowsFrom stop n cursor,
      ∃ rows, job.response client providerSymbol stop window.1 = .ok rows)
    (hcursor : cursor ≤ opened) (hopened : opened ≤ stop) :
    ∃ window ∈ job.windowsFrom stop n cursor, window.1 ≤ opened ∧ opened < window.2 := by
  induction n generalizing cursor with
  | zero =>
    rw [Nat.cast_zero, zero_mul, add_zero] at hn
    exact absurd (hcursor.trans hopened) (not_le.mpr hn)
  | succ n ih =>
    rw [HistoryJob.windowsFrom, if_pos (hcursor.trans hopened)] at hanswered ⊢
    obtain ⟨rows, hrows⟩ := hanswered _ (List.mem_cons_self ..)
    have hwindow := windowEnd_of_response (hcursor.trans hopened) hrows
    rcases lt_or_ge opened (job.windowEnd stop cursor) with hlt | hge
    · exact ⟨_, List.mem_cons_self .., hcursor, hlt⟩
    · have hrest : stop < job.windowEnd stop cursor + n * job.step := by
        push_cast at hn
        linarith
      obtain ⟨window, hmem, hin⟩ := ih hrest (fun window h => hanswered window (List.mem_cons_of_mem _ h)) hge
      exact ⟨window, List.mem_cons_of_mem _ hmem, hin⟩

theorem Offer.mem_next {a b : Offer} {candle : CanonicalCandle} (h : candle ∈ (a.next b).candles) :
    candle ∈ a.candles ∨ candle ∈ b.candles := by
  unfold Offer.next at h
  cases hraised : a.raised with
  | none =>
    rw [hraised] at h
    exact List.mem_append.mp h
  | some e =>
    rw [hraised] at h
    exact Or.inl h

theorem Offer.next_raised {a b : Offer} (h : (a.next b).raised = none) : a.raised = none ∧ b.raised = none := by
  unfold Offer.next at h
  cases hraised : a.raised with
  | none =>
    rw [hraised] at h
    exact ⟨rfl, h⟩
  | some e =>
    rw [hraised] at h
    exact absurd (hraised.symm.trans h) (Option.some_ne_none e)

/-- A candle that rows offer is the settled candle of one of them. -/
theorem mem_rowsOffer {rows : List Payload} {candle : CanonicalCandle}
    (h : candle ∈ (rowsOffer host reader job now provider providerSymbol rows).candles) :
    ∃ payload ∈ rows,
      settledOf host reader job.market provider providerSymbol payload (.aware now) = .ok (some candle) := by
  induction rows with
  | nil => cases h
  | cons payload rows ih =>
    rcases Offer.mem_next h with h | h
    · refine ⟨payload, List.mem_cons_self .., ?_⟩
      unfold rowOffer at h
      cases hsettled : settledOf host reader job.market provider providerSymbol payload (.aware now) with
      | error e =>
        rw [hsettled] at h
        cases h
      | ok settled =>
        rw [hsettled] at h
        rw [Option.mem_toList.mp h]
    · obtain ⟨payload', hmem, hsettled⟩ := ih h
      exact ⟨payload', List.mem_cons_of_mem _ hmem, hsettled⟩

/-- A candle that windows offer is one of the rows for one of them. -/
theorem mem_windowsOffer {n : ℕ} {cursor : Instant} {candle : CanonicalCandle}
    (h : candle ∈ (windowsOffer host reader job now provider client providerSymbol stop n cursor).candles) :
    ∃ window ∈ job.windowsFrom stop n cursor, ∃ rows, job.response client providerSymbol stop window.1 = .ok rows ∧
      ∃ payload ∈ rows,
        settledOf host reader job.market provider providerSymbol payload (.aware now) = .ok (some candle) := by
  induction n generalizing cursor with
  | zero => cases h
  | succ n ih =>
    rw [windowsOffer] at h
    rw [HistoryJob.windowsFrom]
    split_ifs at h ⊢ with hcursor
    · cases hresponse : job.response client providerSymbol stop cursor with
      | error e =>
        rw [hresponse] at h
        cases h
      | ok rows =>
        rw [hresponse] at h
        rcases Offer.mem_next h with h | h
        · exact ⟨_, List.mem_cons_self .., rows, hresponse, mem_rowsOffer h⟩
        · obtain ⟨window, hmem, hwindow⟩ := ih h
          exact ⟨window, List.mem_cons_of_mem _ hmem, hwindow⟩
    · cases h

/-- If nothing raised, every window was answered. -/
theorem answered_of_raised {n : ℕ} {cursor : Instant}
    (h : (windowsOffer host reader job now provider client providerSymbol stop n cursor).raised = none) :
    ∀ window ∈ job.windowsFrom stop n cursor, ∃ rows, job.response client providerSymbol stop window.1 = .ok rows := by
  induction n generalizing cursor with
  | zero =>
    intro window hwindow
    cases hwindow
  | succ n ih =>
    rw [windowsOffer] at h
    rw [HistoryJob.windowsFrom]
    split_ifs at h ⊢ with hcursor
    · cases hresponse : job.response client providerSymbol stop cursor with
      | error e =>
        rw [hresponse] at h
        cases h
      | ok rows =>
        rw [hresponse] at h
        intro window hwindow
        rcases List.mem_cons.mp hwindow with rfl | hwindow
        · exact ⟨rows, hresponse⟩
        · exact ih (Offer.next_raised h).2 window hwindow
    · intro window hwindow
      cases hwindow

theorem foldl_max_mem (opened : Instant) (opens : List Instant) : opens.foldl max opened ∈ opened :: opens := by
  induction opens generalizing opened with
  | nil => exact List.mem_cons_self ..
  | cons o opens ih =>
    rcases List.mem_cons.mp (ih (max opened o)) with h | h
    · rw [List.foldl_cons, h]
      rcases max_choice opened o with h | h <;> simp [h]
    · exact List.mem_cons_of_mem _ (List.mem_cons_of_mem _ h)

section Store

variable {σ : Type} [HistoryStore σ] [LawfulHistoryStore σ]

omit [LawfulHistoryStore σ] in
theorem SameWatermarks.times_eq {w w' : World σ} (h : SameWatermarks w w') : w'.times = w.times := by
  funext key
  exact congrArg (Option.map Watermark.eventTime) (h ..)

theorem times_saveRun (w : World σ) (run : HistoryRun) :
    ({ w with state := HistoryStore.saveRun w.state run } : World σ).times = w.times :=
  SameWatermarks.times_eq fun _ _ _ _ => LawfulHistoryStore.watermark_saveRun ..

theorem times_commitWatermark (w : World σ) (value : Watermark) :
    ({ w with state := HistoryStore.commitWatermark w.state value } : World σ).times =
      Function.update w.times value.key (some ((w.times value.key).elim value.eventTime fun t => max t value.eventTime)) := by
  funext key
  refine (LawfulHistoryStore.time_commitWatermark w.state value key).trans ?_
  rw [Function.update_apply]
  split_ifs with hkey
  · rw [hkey]
    rfl
  · rfl

variable (host reader now client providerSymbol) in
/-- **What `sync` does with a provider** is what its attempt does. -/
theorem syncProvider_does (run : HistoryRun) (finishedAt : Instant) (w : World σ)
    (hstart : start = job.startAt stop (w.times (job.market, provider, job.symbol, job.timeframe))) :
    Effect.Ends (syncProvider host reader job now provider client providerSymbol start stop run finishedAt) w
      (fun attempt w' => (Attempt.mk job now provider client providerSymbol start stop attempt.isOk).Does host reader
        w.times w'.times)
      fun _ w' => (Attempt.mk job now provider client providerSymbol start stop false).Does host reader w.times w'.times := by
  refine Effect.Ends.bind ((fetchWindows_follows (job.windows start stop) start {} w).mono ?_ ?_)
  · rintro tally w' ⟨hnone, hwrote, hopens⟩
    rw [List.nil_append] at hopens
    cases hsettled : tally.settledOpens with
    | nil => exact ⟨hstart, hwrote.2.times_eq⟩
    | cons opened opens =>
      have hanswered := answered_of_raised hnone
      have hmem : opens.foldl max opened ∈ tally.settledOpens := hsettled ▸ foldl_max_mem opened opens
      rw [hopens] at hmem
      obtain ⟨candle, hcandle, hopen⟩ := List.mem_map.mp hmem
      obtain ⟨hoffered, hmatches⟩ := List.mem_filter.mp hcandle
      obtain ⟨hsymbol, htimeframe, hge, hle⟩ := of_decide_eq_true hmatches
      rw [hopen] at hge hle
      obtain ⟨window, hwindow, rows, hrows, payload, hpayload, hcandle⟩ := mem_windowsOffer hoffered
      refine ⟨hstart, hanswered, opens.foldl max opened, ⟨⟨window, hwindow, rows, hrows, payload, hpayload, candle, hcandle,
        (settledOf_ok hcandle).1, hsymbol, htimeframe, hopen⟩, ⟨hge, hle⟩, ?_⟩, ?_⟩
      · exact exists_window stop_lt_windows hanswered hge hle
      · refine (times_saveRun _ _).trans ((times_commitWatermark w' _).trans ?_)
        rw [hwrote.2.times_eq]
        rfl
  · rintro e w' ⟨-, hwrote⟩
    exact ⟨hstart, hwrote.2.times_eq⟩

end Store

end Provider

/-! ### The attempts of a call -/

section Attempts

variable {σ : Type} [HistoryStore σ]
variable (host : Host) (reader : Reader) (engine : BackfillEngine) (job : HistoryJob)

/-- The attempts of the loop over the providers. -/
def providerAttempts (now stop : Instant) (run : HistoryRun) (finishedAt : Instant) :
    List Provider → World σ → List Attempt
  | [], _ => []
  | provider :: providers, w =>
    match engine.clientOf job provider with
    | .error _ => providerAttempts now stop run finishedAt providers w
    | .ok (client, providerSymbol) =>
      let start := job.start stop (w.watermark job provider)
      let attempt := Attempt.mk job now provider client providerSymbol start stop
      match syncProvider host reader job now provider client providerSymbol start stop run finishedAt w with
      | .ok (.ok _) _ => [attempt true]
      | .ok (.error _) w' => attempt false :: providerAttempts now stop run finishedAt providers w'
      | .error e w' =>
        if e = .killed then [attempt false] else attempt false :: providerAttempts now stop run finishedAt providers w'

/-- The attempts of `sync`. -/
def syncAttempts (now : DateTime) (startedAt finishedAt : Instant) (w : World σ) : List Attempt :=
  match engine.plan job now with
  | .error _ => []
  | .ok (now, stop, route) =>
    let runId := stableId host [job.market.value, job.symbol, job.timeframe, isoformat now]
    let run : HistoryRun :=
      ⟨runId, job.market, job.symbol, job.timeframe, .running, startedAt, none, none, 0, 0, 0, none⟩
    providerAttempts host reader engine job now stop run finishedAt route
      { w with state := HistoryStore.saveRun w.state run }

/-- The attempts of the body of the loop of `repair`. -/
def groupAttempts (now : DateTime) (clock : ℕ → Instant × Instant) (group : (Instant × List Instant) × ℕ)
    (w : World σ) : List Attempt :=
  match job.repairing group.1 with
  | .error _ => []
  | .ok repairJob =>
    syncAttempts host reader engine repairJob (later group.2 now) (clock group.2).1 (clock group.2).2 w

/-- The attempts of the loop of `repair`. -/
def groupsAttempts (now : DateTime) (clock : ℕ → Instant × Instant) :
    List ((Instant × List Instant) × ℕ) → World σ → List Attempt
  | [], _ => []
  | group :: groups, w =>
    groupAttempts host reader engine job now clock group w ++
      match repairGroup host reader engine job now clock group w with
      | .ok _ w' => groupsAttempts now clock groups w'
      | .error _ _ => []

/-- The attempts of `repair`. -/
def repairAttempts (gaps : List DateTime) (now : DateTime) (clock : ℕ → Instant × Instant) (w : World σ) :
    List Attempt :=
  match job.groups gaps with
  | .error _ => []
  | .ok groups => groupsAttempts host reader engine job now clock groups w

end Attempts

/-! ### What a call does -/

section Calls

variable {σ : Type} [HistoryStore σ] [LawfulHistoryStore σ]
variable {host : Host} {reader : Reader} {engine : BackfillEngine} {job : HistoryJob}

theorem chain_single {a : Attempt} {times times' : Times} (h : a.Does host reader times times') :
    Chain host reader [a] times times' := ⟨times', h, rfl⟩

theorem syncProviders_chain {now stop : Instant} (run : HistoryRun) (finishedAt : Instant) (providers : List Provider)
    (errors : List String) (w : World σ) :
    Chain host reader (providerAttempts host reader engine job now stop run finishedAt providers w) w.times
      (Effect.final (syncProviders host reader engine job now stop run finishedAt providers errors w)).times := by
  induction providers generalizing errors w with
  | nil => exact times_saveRun w _
  | cons provider providers ih =>
    rw [syncProviders, providerAttempts]
    cases hclient : engine.clientOf job provider with
    | error text => exact ih _ w
    | ok found =>
      obtain ⟨client, providerSymbol⟩ := found
      have hstart := job.start_eq stop (w.watermark job provider)
      have hdoes := syncProvider_does host reader now client providerSymbol run finishedAt w hstart
      dsimp only
      rw [Effect.bind_of_ok (Effect.get_apply w), Effect.bind_apply, Effect.tryCatch_apply]
      unfold Effect.Ends at hdoes
      cases hattempt : syncProvider host reader job now provider client providerSymbol
          (job.start stop (w.watermark job provider)) stop run finishedAt w with
      | ok attempt w' =>
        rw [hattempt] at hdoes
        cases attempt with
        | ok run' => exact chain_single hdoes
        | error text => exact ⟨w'.times, hdoes, ih _ w'⟩
      | error e w' =>
        rw [hattempt] at hdoes
        dsimp only
        by_cases hkilled : e = .killed
        · rw [if_pos hkilled, if_pos hkilled]
          exact chain_single hdoes
        · rw [if_neg hkilled, if_neg hkilled]
          exact ⟨w'.times, hdoes, ih _ w'⟩

variable (host reader engine job) in
/-- **What `sync` does** is what its attempts do. -/
theorem sync_chain (now : DateTime) (startedAt finishedAt : Instant) (w : World σ) :
    Chain host reader (syncAttempts host reader engine job now startedAt finishedAt w) w.times
      (Effect.final (sync host reader engine job now startedAt finishedAt w)).times := by
  unfold sync syncAttempts
  cases hplan : engine.plan job now with
  | error e => exact rfl
  | ok plan =>
    obtain ⟨now, stop, route⟩ := plan
    dsimp only
    rw [Effect.bind_of_ok (Effect.ofExcept_eq_ok.mpr ⟨rfl, rfl⟩)]
    dsimp only
    rw [Effect.bind_of_ok (Effect.modify_apply _ w)]
    rw [← times_saveRun w]
    exact syncProviders_chain _ finishedAt route [] _

variable (host reader engine) in
/-- The rest of the body of the loop of `repair` is not about watermarks, and does not raise. -/
theorem repairGroup_cases (now : DateTime) (clock : ℕ → Instant × Instant) {group : (Instant × List Instant) × ℕ}
    {repairJob : HistoryJob} (hjob : job.repairing group.1 = .ok repairJob) (w : World σ) :
    match sync host reader engine repairJob (later group.2 now) (clock group.2).1 (clock group.2).2 w with
    | .ok _ w' => ∃ run w'', repairGroup host reader engine job now clock group w = .ok run w'' ∧
        w''.lake = w'.lake ∧ w''.times = w'.times
    | .error e w' => repairGroup host reader engine job now clock group w = .error e w' := by
  unfold repairGroup
  rw [Effect.bind_of_ok (Effect.ofExcept_eq_ok.mpr ⟨hjob, rfl⟩), Effect.bind_apply]
  cases sync host reader engine repairJob (later group.2 now) (clock group.2).1 (clock group.2).2 w with
  | error e w' => rfl
  | ok run w' =>
    dsimp only
    rw [Effect.bind_of_ok (Effect.get_apply w')]
    split_ifs
    · exact ⟨_, _, rfl, rfl, times_saveRun w' _⟩
    · exact ⟨_, _, rfl, rfl, rfl⟩

variable (host reader engine job) in
theorem repairGroup_chain (now : DateTime) (clock : ℕ → Instant × Instant) (group : (Instant × List Instant) × ℕ)
    (w : World σ) :
    Chain host reader (groupAttempts host reader engine job now clock group w) w.times
      (Effect.final (repairGroup host reader engine job now clock group w)).times := by
  unfold groupAttempts
  cases hjob : job.repairing group.1 with
  | error e =>
    unfold repairGroup
    rw [hjob]
    exact rfl
  | ok repairJob =>
    have hcases := repairGroup_cases host reader engine now clock hjob w
    have hsync := sync_chain host reader engine repairJob (later group.2 now) (clock group.2).1 (clock group.2).2 w
    dsimp only
    cases hresult : sync host reader engine repairJob (later group.2 now) (clock group.2).1 (clock group.2).2 w with
    | error e w' =>
      rw [hresult] at hcases hsync
      dsimp only at hcases
      rw [hcases]
      exact hsync
    | ok run w' =>
      rw [hresult] at hcases hsync
      obtain ⟨run', w'', hgroup, -, htimes⟩ := hcases
      rw [hgroup, Effect.final_ok, htimes]
      exact hsync

/-- **What `repair` does** is what its attempts do. -/
theorem repair_chain (gaps : List DateTime) (now : DateTime) (clock : ℕ → Instant × Instant) (w : World σ) :
    Chain host reader (repairAttempts host reader engine job gaps now clock w) w.times
      (Effect.final (repair host reader engine job gaps now clock w)).times := by
  unfold repair repairAttempts
  cases hgroups : job.groups gaps with
  | error e => exact rfl
  | ok groups =>
    rw [Effect.bind_of_ok (Effect.ofExcept_eq_ok.mpr ⟨rfl, rfl⟩)]
    dsimp only
    clear hgroups
    induction groups generalizing w with
    | nil => exact rfl
    | cons group groups ih =>
      have hchain := repairGroup_chain host reader engine job now clock group w
      rw [Effect.each, groupsAttempts, Effect.bind_apply]
      cases hgroup : repairGroup host reader engine job now clock group w with
      | error e w' =>
        rw [hgroup] at hchain
        dsimp only
        rw [List.append_nil]
        exact hchain
      | ok run w' =>
        rw [hgroup] at hchain
        refine hchain.append ?_
        have hrest := ih w'
        dsimp only
        rw [Effect.bind_apply]
        cases heach : Effect.each (repairGroup host reader engine job now clock) groups w' with
        | error e w'' =>
          rw [heach] at hrest
          exact hrest
        | ok runs w'' =>
          rw [heach] at hrest
          exact hrest

end Calls

/-! ### Sequences of calls -/

/-- A call of an engine. -/
inductive HistoryCall where
  | sync (engine : BackfillEngine) (job : HistoryJob) (now : DateTime) (startedAt finishedAt : Instant)
  | repair (engine : BackfillEngine) (job : HistoryJob) (gaps : List DateTime) (now : DateTime)
    (clock : ℕ → Instant × Instant)

section History

variable (host : Host) (reader : Reader)

/-- The world after a call, whether it returns or raises. -/
def HistoryCall.run {σ : Type} [HistoryStore σ] (w : World σ) : HistoryCall → World σ
  | .sync engine job now startedAt finishedAt =>
    Effect.final (History.sync host reader engine job now startedAt finishedAt w)
  | .repair engine job gaps now clock => Effect.final (History.repair host reader engine job gaps now clock w)

/-- The attempts of a call. -/
def HistoryCall.attempts {σ : Type} [HistoryStore σ] (w : World σ) : HistoryCall → List Attempt
  | .sync engine job now startedAt finishedAt => syncAttempts host reader engine job now startedAt finishedAt w
  | .repair engine job gaps now clock => repairAttempts host reader engine job gaps now clock w

/-- Calls one after another, on one store: the world, and all attempts so far. -/
def history (σ : Type) [HistoryStore σ] : Machine (World σ × List Attempt) HistoryCall Unit where
  step s call := ((call.run host reader s.1, s.2 ++ call.attempts host reader s.1), ())

variable {host reader}

theorem HistoryCall.chain {σ : Type} [HistoryStore σ] [LawfulHistoryStore σ] (w : World σ) (call : HistoryCall) :
    Chain host reader (call.attempts host reader w) w.times (call.run host reader w).times := by
  cases call with
  | sync engine job now startedAt finishedAt => exact sync_chain ..
  | repair engine job gaps now clock => exact repair_chain ..

variable (host reader) in
/-- **A run** does what its attempts do. -/
theorem exec_chain {σ : Type} [HistoryStore σ] [LawfulHistoryStore σ] (w : World σ) (calls : List HistoryCall) :
    Chain host reader ((history host reader σ).exec (w, []) calls).2 w.times
      ((history host reader σ).exec (w, []) calls).1.times :=
by
  refine Machine.exec_invariant (P := fun s : World σ × List Attempt => Chain host reader s.2 w.times s.1.times)
    (fun s call hs => hs.append (call.chain s.1)) ?_ calls
  exact Eq.refl w.times

end History

/-! ### Two stores -/

section Paired

variable {σ τ : Type} [HistoryStore σ] [LawfulHistoryStore σ] [HistoryStore τ] [LawfulHistoryStore τ]
variable {host : Host} {reader : Reader} {engine : BackfillEngine} {job : HistoryJob} {now : Instant}
  {provider : Provider} {client : HistoricalClient} {providerSymbol : String} {start stop : Instant}

/-- The same lake and the same event times. -/
def SameTimes (w : World σ) (v : World τ) : Prop := w.lake = v.lake ∧ w.times = v.times

theorem SameTimes.saveRun {w : World σ} {v : World τ} (h : SameTimes w v) (run run' : HistoryRun) :
    SameTimes ({ w with state := HistoryStore.saveRun w.state run } : World σ)
      ({ v with state := HistoryStore.saveRun v.state run' } : World τ) := by
  refine ⟨h.1, ?_⟩
  rw [times_saveRun, times_saveRun]
  exact h.2

theorem ingestRow_paired (tally : Tally) (payload : Payload) {w : World σ} {v : World τ} (h : SameTimes w v) :
    Effect.Paired SameTimes (ingestRow host reader job now provider providerSymbol start stop tally payload w)
      (ingestRow host reader job now provider providerSymbol start stop tally payload v) := by
  refine Effect.Paired.bind (Effect.paired_focus _ h.1 fun lake _ => ⟨rfl, h.2⟩) ?_
  intro result w' v' h'
  cases result.canonical.filter fun candle => candle.isSettled with
  | none => exact .ok _ h'
  | some candle =>
    dsimp only
    split_ifs
    · refine Effect.Paired.ok _ ⟨h'.1, ?_⟩
      have hw : ∀ {ρ : Type} [HistoryStore ρ] [LawfulHistoryStore ρ] (u : World ρ),
          ({ u with state := HistoryStore.recordOpen u.state job.market job.symbol job.timeframe candle.openTime } :
            World ρ).times = u.times :=
        fun u => SameWatermarks.times_eq fun _ _ _ _ => LawfulHistoryStore.watermark_recordOpen ..
      rw [hw, hw]
      exact h'.2
    · exact .ok _ h'

theorem rows_paired (rows : List Payload) (tally : Tally) {w : World σ} {v : World τ} (h : SameTimes w v) :
    Effect.Paired SameTimes (rows.foldlM (ingestRow host reader job now provider providerSymbol start stop) tally w)
      (rows.foldlM (ingestRow host reader job now provider providerSymbol start stop) tally v) := by
  induction rows generalizing tally w v with
  | nil => exact .ok _ h
  | cons payload rows ih =>
    rw [List.foldlM_cons, List.foldlM_cons]
    exact Effect.Paired.bind (ingestRow_paired tally payload h) fun tally' w' v' h' => ih tally' h'

theorem fetchWindows_paired (n : ℕ) (cursor : Instant) (tally : Tally) {w : World σ} {v : World τ}
    (h : SameTimes w v) :
    Effect.Paired SameTimes
      (fetchWindows host reader job now provider client providerSymbol start stop n cursor tally w)
      (fetchWindows host reader job now provider client providerSymbol start stop n cursor tally v) := by
  induction n generalizing cursor tally w v with
  | zero => exact .ok _ h
  | succ n ih =>
    rw [fetchWindows, fetchWindows]
    split_ifs
    · refine Effect.paired_ofExcept h fun rows _ => ?_
      exact Effect.Paired.bind (rows_paired rows _ h) fun tally' w' v' h' => ih _ tally' h'
    · exact .ok _ h

variable (host reader job now provider client providerSymbol start stop) in
theorem syncProvider_paired (run : HistoryRun) (finishedAt : Instant) {w : World σ} {v : World τ}
    (h : SameTimes w v) :
    Effect.Paired SameTimes
      (syncProvider host reader job now provider client providerSymbol start stop run finishedAt w)
      (syncProvider host reader job now provider client providerSymbol start stop run finishedAt v) := by
  refine Effect.Paired.bind (fetchWindows_paired _ _ _ h) ?_
  intro tally w' v' h'
  cases tally.settledOpens with
  | nil => exact .ok _ h'
  | cons opened opens =>
    have hcommit : ∀ value : Watermark,
        SameTimes ({ w' with state := HistoryStore.commitWatermark w'.state value } : World σ)
          ({ v' with state := HistoryStore.commitWatermark v'.state value } : World τ) := by
      intro value
      refine ⟨h'.1, ?_⟩
      rw [times_commitWatermark, times_commitWatermark, h'.2]
    refine Effect.Paired.ok _ ?_
    exact (hcommit _).saveRun _ _

/-- **A route**, on two stores: the same run, and the same attempts. -/
theorem syncProviders_paired (run : HistoryRun) (finishedAt : Instant) (providers : List Provider)
    (errors : List String) {w : World σ} {v : World τ} (h : SameTimes w v) :
    Effect.Paired SameTimes (syncProviders host reader engine job now stop run finishedAt providers errors w)
        (syncProviders host reader engine job now stop run finishedAt providers errors v) ∧
      providerAttempts host reader engine job now stop run finishedAt providers w =
        providerAttempts host reader engine job now stop run finishedAt providers v := by
  induction providers generalizing errors w v with
  | nil => exact ⟨.ok _ (h.saveRun _ _), rfl⟩
  | cons provider providers ih =>
    rw [syncProviders, syncProviders, providerAttempts, providerAttempts]
    cases hclient : engine.clientOf job provider with
    | error text => exact ih _ h
    | ok found =>
      obtain ⟨client, providerSymbol⟩ := found
      have hstart : job.start stop (v.watermark job provider) = job.start stop (w.watermark job provider) := by
        rw [job.start_eq, job.start_eq]
        exact congrArg (job.startAt stop) (congrFun h.2 (job.market, provider, job.symbol, job.timeframe)).symm
      have hpaired := syncProvider_paired host reader job now provider client providerSymbol
        (job.start stop (w.watermark job provider)) stop run finishedAt h
      dsimp only
      rw [Effect.bind_of_ok (Effect.get_apply w), Effect.bind_of_ok (Effect.get_apply v), Effect.bind_apply,
        Effect.bind_apply, Effect.tryCatch_apply, Effect.tryCatch_apply, hstart]
      generalize syncProvider host reader job now provider client providerSymbol
        (job.start stop (w.watermark job provider)) stop run finishedAt w = x at hpaired ⊢
      generalize syncProvider host reader job now provider client providerSymbol
        (job.start stop (w.watermark job provider)) stop run finishedAt v = y at hpaired ⊢
      cases hpaired with
      | ok attempt h' =>
        cases attempt with
        | ok run' => exact ⟨.ok _ h', rfl⟩
        | error text => exact ⟨(ih _ h').1, congrArg _ (ih [] h').2⟩
      | error e h' =>
        dsimp only
        by_cases hkilled : e = .killed
        · rw [if_pos hkilled, if_pos hkilled, if_pos hkilled, if_pos hkilled]
          exact ⟨.error _ h', rfl⟩
        · rw [if_neg hkilled, if_neg hkilled, if_neg hkilled, if_neg hkilled]
          exact ⟨(ih _ h').1, congrArg _ (ih [] h').2⟩

variable (host reader engine job) in
/-- **`sync`**, on two stores. -/
theorem sync_paired (now : DateTime) (startedAt finishedAt : Instant) {w : World σ} {v : World τ}
    (h : SameTimes w v) :
    Effect.Paired SameTimes (sync host reader engine job now startedAt finishedAt w)
        (sync host reader engine job now startedAt finishedAt v) ∧
      syncAttempts host reader engine job now startedAt finishedAt w =
        syncAttempts host reader engine job now startedAt finishedAt v := by
  unfold sync syncAttempts
  cases hplan : engine.plan job now with
  | error e => exact ⟨.error _ h, rfl⟩
  | ok plan =>
    obtain ⟨now, stop, route⟩ := plan
    exact syncProviders_paired _ finishedAt route [] (h.saveRun _ _)

/-- The loop of `repair`, on two stores: what is covered may differ, and with it what the runs report. -/
theorem groups_paired (now : DateTime) (clock : ℕ → Instant × Instant) (groups : List ((Instant × List Instant) × ℕ))
    {w : World σ} {v : World τ} (h : SameTimes w v) :
    SameTimes (Effect.final (Effect.each (repairGroup host reader engine job now clock) groups w))
        (Effect.final (Effect.each (repairGroup host reader engine job now clock) groups v)) ∧
      groupsAttempts host reader engine job now clock groups w = groupsAttempts host reader engine job now clock groups v := by
  induction groups generalizing w v with
  | nil => exact ⟨h, rfl⟩
  | cons group groups ih =>
    have hrest : ∀ {ρ : Type} [HistoryStore ρ] (u : World ρ),
        Effect.final (Effect.each (repairGroup host reader engine job now clock) (group :: groups) u) =
          match repairGroup host reader engine job now clock group u with
          | .ok _ u' => Effect.final (Effect.each (repairGroup host reader engine job now clock) groups u')
          | .error _ u' => u' := by
      intro ρ _ u
      rw [Effect.each, Effect.bind_apply]
      cases repairGroup host reader engine job now clock group u with
      | error e u' => rfl
      | ok run u' =>
        dsimp only
        rw [Effect.bind_apply]
        cases Effect.each (repairGroup host reader engine job now clock) groups u' <;> rfl
    rw [hrest, hrest, groupsAttempts, groupsAttempts]
    unfold groupAttempts
    cases hjob : job.repairing group.1 with
    | error e =>
      have hraise : ∀ {ρ : Type} [HistoryStore ρ] (u : World ρ),
          repairGroup host reader engine job now clock group u = .error e u := by
        intro ρ _ u
        unfold repairGroup
        rw [hjob]
        rfl
      rw [hraise, hraise]
      exact ⟨h, rfl⟩
    | ok repairJob =>
      obtain ⟨hpaired, hattempts⟩ :=
        sync_paired host reader engine repairJob (later group.2 now) (clock group.2).1 (clock group.2).2 h
      have hw := repairGroup_cases host reader engine now clock hjob w
      have hv := repairGroup_cases host reader engine now clock hjob v
      dsimp only
      rw [hattempts]
      generalize sync host reader engine repairJob (later group.2 now) (clock group.2).1 (clock group.2).2 w = x at hpaired hw
      generalize sync host reader engine repairJob (later group.2 now) (clock group.2).1 (clock group.2).2 v = y at hpaired hv
      cases hpaired with
      | error e h' =>
        dsimp only at hw hv
        rw [hw, hv]
        exact ⟨h', rfl⟩
      | ok run h' =>
        obtain ⟨run₁, w₁, hw, hlake₁, htimes₁⟩ := hw
        obtain ⟨run₂, v₁, hv, hlake₂, htimes₂⟩ := hv
        have hafter : SameTimes w₁ v₁ :=
          ⟨hlake₁.trans (h'.1.trans hlake₂.symm), htimes₁.trans (h'.2.trans htimes₂.symm)⟩
        rw [hw, hv]
        exact ⟨(ih hafter).1, congrArg _ (ih hafter).2⟩

/-- **`repair`**, on two stores. -/
theorem repair_paired (gaps : List DateTime) (now : DateTime) (clock : ℕ → Instant × Instant) {w : World σ}
    {v : World τ} (h : SameTimes w v) :
    SameTimes (Effect.final (repair host reader engine job gaps now clock w))
        (Effect.final (repair host reader engine job gaps now clock v)) ∧
      repairAttempts host reader engine job gaps now clock w = repairAttempts host reader engine job gaps now clock v := by
  unfold repair repairAttempts
  cases job.groups gaps with
  | error e => exact ⟨h, rfl⟩
  | ok groups => exact groups_paired now clock groups h

/-- **A call**, on two stores. -/
theorem HistoryCall.paired (call : HistoryCall) {w : World σ} {v : World τ} (h : SameTimes w v) :
    SameTimes (call.run host reader w) (call.run host reader v) ∧
      call.attempts host reader w = call.attempts host reader v := by
  cases call with
  | sync engine job now startedAt finishedAt =>
    obtain ⟨hpaired, hattempts⟩ := sync_paired host reader engine job now startedAt finishedAt h
    exact ⟨hpaired.final, hattempts⟩
  | repair engine job gaps now clock => exact repair_paired gaps now clock h

variable (host reader) in
/-- **A run**, on two stores. -/
theorem exec_paired {s : World σ × List Attempt} {t : World τ × List Attempt} (h : SameTimes s.1 t.1 ∧ s.2 = t.2)
    (calls : List HistoryCall) :
    SameTimes ((history host reader σ).exec s calls).1 ((history host reader τ).exec t calls).1 ∧
      ((history host reader σ).exec s calls).2 = ((history host reader τ).exec t calls).2 := by
  induction calls generalizing s t with
  | nil => exact h
  | cons call calls ih =>
    obtain ⟨hsame, hattempts⟩ := h
    obtain ⟨hsame', hattempts'⟩ := call.paired hsame
    refine ih ⟨hsame', ?_⟩
    show s.2 ++ _ = t.2 ++ _
    rw [hattempts, hattempts']

end Paired

/-! ### The stores of the program -/

/-- **Watermarks** over any sequence of `sync` and `repair`, from empty stores, with an engine of its own for each call:

* no call moves a watermark back, or loses one;
* what `sync` does with a provider changes no watermark if it raises, or finds no settled candle of the job;
* a watermark is at the open of a settled candle of its symbol and timeframe that its provider has delivered, and that
  is in a window that was requested of it;
* in memory and in PostgreSQL the event times are the same. -/
theorem watermarks_hold (host : Host) (reader : Reader) (calls : List HistoryCall) :
    let memory := (history host reader HistoryState).exec ({}, []) calls
    let postgres := (history host reader PostgresHistoryState).exec ({ state := {} }, []) calls
    (∀ (call : HistoryCall) key t, memory.1.times key = some t →
      ∃ t', (call.run host reader memory.1).times key = some t' ∧ t ≤ t') ∧
    (∀ (w : World) job now provider client providerSymbol start stop run finishedAt,
      Effect.Ends (syncProvider host reader job now provider client providerSymbol start stop run finishedAt) w
        (fun attempt w' => attempt.isOk = false → w'.times = w.times) fun _ w' => w'.times = w.times) ∧
    (∀ key t, memory.1.times key = some t →
      ∃ a ∈ memory.2, a.key = key ∧ a.succeeded = true ∧ a.Delivers host reader t) ∧
    postgres.1.times = memory.1.times ∧ postgres.2 = memory.2 := by
  intro memory postgres
  refine ⟨?_, ?_, ?_, ?_⟩
  · intro call key t ht
    exact (call.chain memory.1).le ht
  · intro w job now provider client providerSymbol start stop run finishedAt
    refine (syncProvider_ends run finishedAt w).mono ?_ fun e w' h => h.2.2.times_eq
    rintro (text | run') w' ⟨-, -, hmatch⟩ hok
    · exact hmatch.2.times_eq
    · cases hok
  · intro key t ht
    have hchain := exec_chain host reader ({} : World) calls
    rcases hchain.delivered key with hsame | ⟨a, ha, hkey, hsucceeded, opened, hdelivers, hopened⟩
    · rw [ht] at hsame
      cases hsame
    · rw [ht] at hopened
      cases hopened
      exact ⟨a, ha, hkey, hsucceeded, hdelivers⟩
  · have hstart : SameTimes ({} : World) ({ state := {} } : World PostgresHistoryState) := ⟨rfl, rfl⟩
    obtain ⟨hsame, hattempts⟩ := exec_paired host reader (s := (({} : World), []))
      (t := (({ state := {} } : World PostgresHistoryState), [])) ⟨hstart, rfl⟩ calls
    exact ⟨hsame.2.symm, hattempts.symm⟩

end NanoDelta.History
