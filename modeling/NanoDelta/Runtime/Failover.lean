import NanoDelta.Library.Preserve
import NanoDelta.Providers.Registry
import NanoDelta.Runtime.FeedState
import NanoDelta.Runtime.Realtime

/-!
# The streams of a realtime cycle

`RealtimeMarketCycle` (`runtime/realtime.py`) from `__init__` to `_close_provider`: a call of `run_once` consumes a
slice of the stream of the active provider, and goes on with the next provider of the route when that fails. Time
passes while the cycle waits for a frame.

* `consume`: the loop over the frames of a stream. `tryProviders`: the loop over the route. `runOnce`: the whole call.
* `ProviderOutcome`: what comes of a provider that is tried or probed. The log has them with their times.
* `failover_and_recovery`: over every sequence of calls, the snapshot says what the log says, and the cycle is back at
  the primary only after successful probes that came late enough.
-/

namespace NanoDelta.Runtime

open Library

/-! ### The cycle -/

/-- `FeedState`. -/
inductive FeedState where
  | healthy
  | degraded
  | failedOver
  deriving DecidableEq

/-- `FeedState.value`. -/
def FeedState.value : FeedState → String
  | .healthy => "HEALTHY"
  | .degraded => "DEGRADED"
  | .failedOver => "FAILED_OVER"

/-- `FeedState(text)`. -/
def FeedState.ofValue (text : String) : Except PyError FeedState :=
  if text = "HEALTHY" then .ok .healthy
  else if text = "DEGRADED" then .ok .degraded
  else if text = "FAILED_OVER" then .ok .failedOver
  else .error (.valueError ("'" ++ text ++ "' is not a valid FeedState"))

@[simp] theorem FeedState.ofValue_value (state : FeedState) : FeedState.ofValue state.value = .ok state := by
  cases state <;> rfl

/-- `StreamSnapshot`. -/
structure StreamSnapshot where
  market : Market
  activeProvider : Provider
  state : FeedState
  connectedAt : Instant
  lastEventAt : Option DateTime := none
  gapCount : ℕ := 0
  failoverCount : ℕ := 0
  lastError : Option String := none
  failedOverAt : Option Instant := none
  fallbackAvailable : Bool := true
  statusDetail : Option String := none

/-- The record of a snapshot. -/
def StreamSnapshot.record (self : StreamSnapshot) : FeedStateRecord :=
  ⟨self.market, self.activeProvider, self.state.value, self.connectedAt, self.lastEventAt, self.gapCount,
    self.failoverCount, self.lastError, self.failedOverAt, self.fallbackAvailable, self.statusDetail⟩

/-- What the cycle of a market is configured with for its streams. -/
structure RealtimeFeed extends RealtimeMarketCycle where
  route : List Provider
  channels : Dict Provider String
  maxEvents : ℕ := 100
  staleness : Instant := seconds 30
  recoverySuccesses : ℕ := 3
  recoveryCooldown : Instant := seconds 30
  /-- Whether there is a `state_store`. -/
  stateStore : Bool
  route_ne : route ≠ []
  route_nodup : route.Nodup
  limits : 0 < maxEvents ∧ 0 < staleness ∧ 0 < recoverySuccesses

theorem dhanRoute_ne : [Provider.dhan] ≠ [] := by decide

theorem dhanRoute_nodup : [Provider.dhan].Nodup := by decide

theorem cryptoRoute_ne : [Provider.okx, .poloniex] ≠ [] := by decide

theorem cryptoRoute_nodup : [Provider.okx, .poloniex].Nodup := by decide

theorem defaultLimits : 0 < 100 ∧ 0 < seconds 30 ∧ 0 < 3 := by decide

theorem oneEvent : 0 < 1 ∧ 0 < seconds 30 ∧ 0 < 3 := by decide

/-- What a stream does next: it yields a payload, ends, or raises. -/
inductive Frame where
  | payload (payload : Payload)
  | ended
  | raised (message : String)

/-- A frame, with the time at which it is there. -/
structure Arrival where
  time : Instant
  frame : Frame

/-- What comes of a provider: it was consumed, it failed, or as the primary it was probed. -/
inductive ProviderOutcome where
  | consumed (provider : Provider)
  | failed (provider : Provider)
  | probed (success : Bool)
  deriving DecidableEq

/-- The attributes of the cycle, the clock, what is still to arrive, and what goes to the store. With it the outcomes so
far, and the times of the frames so far, with whether they were quotes. -/
structure FeedCycle where
  data : CycleState
  snapshot : StreamSnapshot
  activeIndex : ℕ := 0
  primarySuccesses : ℕ := 0
  failedOverAt : Option Instant := none
  iterators : List Provider := []
  sequences : Dict (Provider × String) ℤ := .empty
  now : Instant
  feeds : Provider → List Arrival := fun _ => []
  writes : List FeedWrite := []
  outcomes : List (Instant × ProviderOutcome) := []
  heard : List (Instant × Bool) := []

section Cycle

variable (host : Host) (reader : Reader) (feed : RealtimeFeed)

/-- `_save_snapshot`. -/
def FeedCycle.saveSnapshot (s : FeedCycle) : FeedCycle :=
  if feed.stateStore then { s with writes := s.writes ++ [.save s.snapshot.record] } else s

/-- A snapshot is put in place, and saved. -/
def FeedCycle.replaceSnapshot (s : FeedCycle) (snapshot : StreamSnapshot) : FeedCycle :=
  ({ s with snapshot := snapshot } : FeedCycle).saveSnapshot feed

/-- `_close_provider`. -/
def FeedCycle.closeProvider (s : FeedCycle) (provider : Provider) : FeedCycle :=
  { s with iterators := s.iterators.filter (· ≠ provider) }

/-- `_open_provider`. -/
def openProvider (provider : Provider) : EStateM PyError FeedCycle PUnit :=
  match feed.channels.get? provider with
  | none => throw (.keyError provider.value)
  | some _ => modify fun s =>
      ({ s with iterators := s.iterators.filter (· ≠ provider) ++ [provider] } : FeedCycle).replaceSnapshot feed
        { s.snapshot with connectedAt := s.now }

/-- The part of `_track_sequence` about the store and the sequences. -/
def FeedCycle.keepSequence (s : FeedCycle) (quote : QuoteEvent) (sequence : ℤ) (gapDelta : ℕ) : FeedCycle :=
  { s with
    sequences := s.sequences.set (quote.provider, quote.symbol) sequence
    writes := if feed.stateStore then
        s.writes ++ [.saveSequence feed.market quote.provider quote.symbol sequence gapDelta]
      else s.writes }

/-- `_track_sequence`. -/
def FeedCycle.trackSequence (s : FeedCycle) (quote : QuoteEvent) : FeedCycle :=
  match quote.sequence with
  | none => s
  | some sequence =>
    let previous := s.sequences.get? (quote.provider, quote.symbol)
    let gapDelta := if previous.any (· + 1 < sequence) then 1 else 0
    let s := { s with snapshot := { s.snapshot with gapCount := s.snapshot.gapCount + gapDelta } }
    let s := if previous.all (· < sequence) then s.keepSequence feed quote sequence gapDelta else s
    s.saveSnapshot feed

/-- `asyncio.wait_for(iterator.__anext__(), timeout=self.staleness)`, where the next frame is this one. -/
def waitFor (provider : Provider) (arrival : Arrival) (rest : List Arrival) : EStateM PyError FeedCycle PUnit := do
  let s ← get
  if arrival.time ≤ s.now + feed.staleness then
    set { s with now := max s.now arrival.time, feeds := Function.update s.feeds provider rest }
  else do
    set { s with now := s.now + feed.staleness }
    throw (.timeoutError "")

/-- `_persist_quote_and_settled`, on the data of the cycle. -/
def persistQuote (quote : QuoteEvent) : EStateM PyError FeedCycle PUnit := do
  let now := (← get).now
  Effect.focus FeedCycle.data (fun s data => { s with data := data })
    (persistQuoteAndSettled host reader feed.toRealtimeMarketCycle now quote)

/-- The time of a frame is noted, and whether it is a quote. -/
def hear (isQuote : Bool) : EStateM PyError FeedCycle PUnit :=
  modify fun s => { s with heard := s.heard ++ [(s.now, isQuote)] }

/-- What `_consume` does with a quote. -/
def takeQuote (provider : Provider) (persist observe : Bool) (quote : QuoteEvent) : EStateM PyError FeedCycle PUnit := do
  if observe then modify fun s => s.trackSequence feed quote
  if persist then persistQuote host reader feed quote
  if observe then
    modify fun s => s.replaceSnapshot feed
      { s.snapshot with activeProvider := provider, lastEventAt := some quote.eventTime, lastError := none }

/-- The loop of `_consume`, over what is still to arrive. -/
def consumeLoop (provider : Provider) (target : ℕ) (persist observe : Bool) :
    List Arrival → ℕ → ℕ → EStateM PyError FeedCycle ℕ
  | arrivals, count, cleanReconnects =>
    if target ≤ count then return count
    else match arrivals with
      | [] => do
        modify fun s => { s with now := s.now + feed.staleness }
        throw (.timeoutError "")
      | arrival :: rest => do
        waitFor feed provider arrival rest
        match arrival.frame with
        | .raised message => throw (.providerClientError message)
        | .ended => do
          hear false
          modify fun s => s.closeProvider provider
          if 1 ≤ cleanReconnects then
            throw (.connectionError (provider.value ++ " realtime stream repeatedly ended"))
          else do
            openProvider feed provider
            consumeLoop provider target persist observe rest count (cleanReconnects + 1)
        | .payload payload => do
          let quote ← Effect.ofExcept (feed.quoteOf reader provider payload (← get).now)
          hear quote.isSome
          match quote with
          | none => consumeLoop provider target persist observe rest count cleanReconnects
          | some quote => do
            takeQuote host reader feed provider persist observe quote
            consumeLoop provider target persist observe rest (count + 1) cleanReconnects

/-- `self._iterators.get(provider) or self._open_provider(provider)`. -/
def openIterator (provider : Provider) : EStateM PyError FeedCycle PUnit := do
  if provider ∈ (← get).iterators then return else openProvider feed provider

/-- The loop of `_consume`, with its handler. -/
def consumeSlice (provider : Provider) (target : ℕ) (persist observe : Bool) : EStateM PyError FeedCycle ℕ := do
  let arrivals := (← get).feeds provider
  tryCatch (consumeLoop host reader feed provider target persist observe arrivals 0 0) fun e => do
    modify fun s => s.closeProvider provider
    throw e

/-- `limit or self.max_events`. -/
def RealtimeFeed.target (limit : Option ℕ) : ℕ := (limit.filter (· ≠ 0)).getD feed.maxEvents

/-- `_consume`. -/
def consume (provider : Provider) (limit : Option ℕ) (persist observe : Bool) : EStateM PyError FeedCycle ℕ := do
  let started := (← get).now
  openIterator feed provider
  let count ← consumeSlice host reader feed provider (feed.target limit) persist observe
  if count = 0 ∨ feed.staleness < (← get).now - started then
    throw (.timeoutError (provider.value ++ " realtime stream is stale"))
  else return count

/-- The first provider of the route. -/
def RealtimeFeed.primary : Provider := feed.route.head feed.route_ne

/-- `_probe_primary`. -/
def probePrimary : EStateM PyError FeedCycle Bool :=
  tryCatch (do return (← consume host reader feed feed.primary (some 1) false false) = 1) fun _ => return false

/-- `_recovery_due`. -/
def FeedCycle.recoveryDue (s : FeedCycle) : Bool :=
  s.failedOverAt.any fun t => decide (t + feed.recoveryCooldown ≤ s.now)

/-- An outcome is noted, with its time. -/
def FeedCycle.note (s : FeedCycle) (time : Instant) (outcome : ProviderOutcome) : FeedCycle :=
  { s with outcomes := s.outcomes ++ [(time, outcome)] }

/-- What follows from a probe in `run_once`. -/
def FeedCycle.afterProbe (s : FeedCycle) (success : Bool) : FeedCycle :=
  if success then
    if feed.recoverySuccesses ≤ s.primarySuccesses + 1 then
      { feed.route[s.activeIndex]?.elim s s.closeProvider with activeIndex := 0, primarySuccesses := 0 }
    else { s with primarySuccesses := s.primarySuccesses + 1 }
  else { s with primarySuccesses := 0 }

/-- The part of `run_once` before its loop. -/
def recoverPrimary : EStateM PyError FeedCycle PUnit := do
  let s ← get
  if s.activeIndex ≠ 0 ∧ s.recoveryDue feed then do
    let success ← probePrimary host reader feed
    modify fun s' => (s'.note s.now (.probed success)).afterProbe feed success

/-- What `run_once` does when it has consumed a slice of a provider. -/
def FeedCycle.consumed (s : FeedCycle) (provider : Provider) (index : ℕ) : FeedCycle :=
  ({ s.note s.now (.consumed provider) with activeIndex := index } : FeedCycle).replaceSnapshot feed
    { s.snapshot with activeProvider := provider, state := if index = 0 then .healthy else .failedOver }

/-- What `run_once` does when the last provider has failed. -/
def FeedCycle.degrade (s : FeedCycle) (provider : Provider) (e : PyError) : FeedCycle :=
  (s.note s.now (.failed provider)).replaceSnapshot feed
    { s.snapshot with
      state := .degraded, lastError := some e.text
      statusDetail := if feed.route.length = 1 then some "NO_REALTIME_FALLBACK_CONFIGURED; operator action required"
        else s.snapshot.statusDetail }

/-- What `run_once` does when a provider has failed and there is a next one, at this index. -/
def FeedCycle.failOver (s : FeedCycle) (provider next : Provider) (index : ℕ) (e : PyError) : FeedCycle :=
  ({ s.note s.now (.failed provider) with activeIndex := index, failedOverAt := some s.now } : FeedCycle).replaceSnapshot
    feed
    { s.snapshot with
      activeProvider := next, state := .failedOver, failoverCount := s.snapshot.failoverCount + 1
      lastError := some e.text, failedOverAt := some s.now }

/-- The loop of `run_once`, over the providers of the route from an index on. -/
def tryProviders : List Provider → ℕ → EStateM PyError FeedCycle ℕ
  | [], _ => return 0
  | provider :: providers, index =>
    tryCatch
      (do
        let count ← consume host reader feed provider none true true
        modify fun s => s.consumed feed provider index
        return count)
      fun e =>
        match providers with
        | [] => do
          modify fun s => s.degrade feed provider e
          throw e
        | next :: _ => do
          modify fun s => s.failOver feed provider next (index + 1) e
          tryProviders providers (index + 1)

/-- `run_once`. -/
def runOnce : EStateM PyError FeedCycle ℕ := do
  recoverPrimary host reader feed
  let index := (← get).activeIndex
  tryProviders host reader feed (feed.route.drop index) index

/-- Whether the route has a fallback. -/
def RealtimeFeed.fallbackAvailable : Bool := 1 < feed.route.length

/-- The status detail of a new cycle. -/
def RealtimeFeed.statusDetail : Option String :=
  if feed.fallbackAvailable then none else some "NO_REALTIME_FALLBACK_CONFIGURED"

/-- The snapshot of a new cycle. -/
def RealtimeFeed.fresh (now : Instant) : StreamSnapshot where
  market := feed.market
  activeProvider := feed.primary
  state := .healthy
  connectedAt := now
  fallbackAvailable := feed.fallbackAvailable
  statusDetail := feed.statusDetail

/-- The part of `__init__` about the row that the store has. -/
def RealtimeFeed.hydrate (s : FeedCycle) : Option FeedStateRecord → Except PyError FeedCycle
  | none => .ok s
  | some persisted =>
    if persisted.activeProvider ∈ feed.route then do
      let state ← FeedState.ofValue persisted.state
      return { s with
        snapshot := ⟨feed.market, persisted.activeProvider, state, persisted.connectedAt, persisted.lastEventAt,
          persisted.gapCount, persisted.failoverCount, persisted.lastError, persisted.failedOverAt,
          feed.fallbackAvailable, feed.statusDetail⟩
        activeIndex := feed.route.idxOf persisted.activeProvider
        failedOverAt := persisted.failedOverAt }
    else .ok s

/-- `__init__`, with what the store loads. -/
def RealtimeFeed.create (loaded : Option FeedStateRecord × Dict (Provider × String) ℤ) (lake : Lake) (now : Instant) :
    Except PyError FeedCycle :=
  let s : FeedCycle :=
    { data := { CycleState.start feed.toRealtimeMarketCycle with lake := lake }, snapshot := feed.fresh now, now }
  if feed.stateStore then do
    let s ← feed.hydrate s loaded.1
    return { s with sequences := loaded.2, writes := [.save s.snapshot.record] }
  else .ok s

/-- What happens before a call of `run_once`, and what is to arrive during it: some time passes, other writers write to
the lake, and each provider has frames. -/
structure Turn where
  elapsed : ℕ
  lake : Lake
  feeds : Provider → List Arrival

/-- The cycle when a call begins. -/
def FeedCycle.begin (s : FeedCycle) (turn : Turn) : FeedCycle :=
  { s with now := s.now + turn.elapsed, data := { s.data with lake := turn.lake }, feeds := turn.feeds, writes := [] }

/-- The calls of `run_once` as a machine. -/
def failover : Machine FeedCycle Turn (Option ℕ) where
  step s turn :=
    let result := runOnce host reader feed (s.begin turn)
    (Effect.final result, Effect.returned result)

end Cycle

/-! ### What consuming a stream preserves -/

section Streams

variable {host : Host} {reader : Reader} {feed : RealtimeFeed} {provider : Provider} {observe : Bool}
  {P : FeedCycle → Prop}

variable (reader feed provider observe P) in
/-- What has to preserve a property so that consuming a stream does. -/
structure Undisturbed : Prop where
  aside : ∀ (s : FeedCycle) data iterators now feeds heard, P s →
    P { s with data := data, iterators := iterators, now := now, feeds := feeds, heard := heard }
  connected : ∀ (s : FeedCycle) connectedAt, P s →
    P (s.replaceSnapshot feed { s.snapshot with connectedAt := connectedAt })
  tracked : observe = true → ∀ (s : FeedCycle) payload now quote,
    feed.quoteOf reader provider payload now = .ok (some quote) → P s → P (s.trackSequence feed quote)
  observed : observe = true → ∀ (s : FeedCycle) lastEventAt, P s →
    P (s.replaceSnapshot feed
      { s.snapshot with activeProvider := provider, lastEventAt := lastEventAt, lastError := none })

namespace Undisturbed

variable (h : Undisturbed reader feed provider observe P)

include h

theorem openProvider : Effect.Preserves P (openProvider feed provider) := by
  unfold Runtime.openProvider
  cases feed.channels.get? provider with
  | none => exact Effect.preserves_throw _
  | some channel =>
    apply Effect.preserves_modify
    intro s hs
    exact h.connected _ _ (h.aside s s.data _ s.now s.feeds s.heard hs)

theorem closeProvider : Effect.Preserves P (modify fun s => s.closeProvider provider : EStateM PyError FeedCycle PUnit) :=
  Effect.preserves_modify fun s hs => h.aside s s.data _ s.now s.feeds s.heard hs

theorem hear (isQuote : Bool) : Effect.Preserves P (hear isQuote) :=
  Effect.preserves_modify fun s hs => h.aside s s.data s.iterators s.now s.feeds _ hs

theorem waitFor (arrival : Arrival) (rest : List Arrival) : Effect.Preserves P (waitFor feed provider arrival rest) := by
  apply Effect.preserves_get_bind
  intro s hs
  split_ifs
  · exact h.aside s s.data s.iterators _ _ s.heard hs
  · exact h.aside s s.data s.iterators _ s.feeds s.heard hs

theorem takeQuote (persist : Bool) {payload : Payload} {now : Instant} {quote : QuoteEvent}
    (hquote : feed.quoteOf reader provider payload now = .ok (some quote)) :
    Effect.Preserves P (takeQuote host reader feed provider persist observe quote) := by
  have htrack : observe = true → Effect.Preserves P
      (modify fun s => s.trackSequence feed quote : EStateM PyError FeedCycle PUnit) :=
    fun hobserve => Effect.preserves_modify fun s hs => h.tracked hobserve s payload now quote hquote hs
  have hpersist : Effect.Preserves P (persistQuote host reader feed quote) := by
    apply Effect.preserves_get_bind
    intro s hs
    exact Effect.preserves_focus (fun s data hs => h.aside s data s.iterators s.now s.feeds s.heard hs) _ s hs
  have hobserved : observe = true → Effect.Preserves P (modify fun s => s.replaceSnapshot feed
      { s.snapshot with activeProvider := provider, lastEventAt := some quote.eventTime, lastError := none } :
        EStateM PyError FeedCycle PUnit) :=
    fun hobserve => Effect.preserves_modify fun s hs => h.observed hobserve s _ hs
  unfold Runtime.takeQuote
  split_ifs with hobserve hpersisted
  · exact (htrack hobserve).bind fun _ => hpersist.bind fun _ => hobserved hobserve
  · exact (htrack hobserve).bind fun _ => hobserved hobserve
  · exact hpersist.bind fun _ => Effect.preserves_pure _
  · exact Effect.preserves_pure _

theorem consumeLoop (target : ℕ) (persist : Bool) (arrivals : List Arrival) (count cleanReconnects : ℕ) :
    Effect.Preserves P
      (consumeLoop host reader feed provider target persist observe arrivals count cleanReconnects) := by
  induction arrivals generalizing count cleanReconnects with
  | nil =>
    unfold Runtime.consumeLoop
    refine Effect.Preserves.ite (fun _ => Effect.preserves_pure _) (Effect.Preserves.bind ?_ fun _ =>
      Effect.preserves_throw _)
    exact Effect.preserves_modify fun s hs => h.aside s s.data s.iterators _ s.feeds s.heard hs
  | cons arrival rest ih =>
    unfold Runtime.consumeLoop
    refine Effect.Preserves.ite (fun _ => Effect.preserves_pure _) ((h.waitFor arrival rest).bind fun _ => ?_)
    cases arrival.frame with
    | raised message => exact Effect.preserves_throw _
    | ended =>
      refine (h.hear false).bind fun _ => h.closeProvider.bind fun _ => ?_
      exact Effect.Preserves.ite (fun _ => Effect.preserves_throw _) (h.openProvider.bind fun _ => ih _ _)
    | payload payload =>
      apply Effect.preserves_get_bind
      intro s hs
      cases hquote : feed.quoteOf reader provider payload s.now with
      | error e => exact hs
      | ok quote =>
        rw [Effect.ofExcept_ok, Effect.bind_of_ok (Effect.pure_apply _ s)]
        refine (h.hear _).bind (fun _ => ?_) s hs
        cases quote with
        | none => exact ih _ _
        | some quote => exact (h.takeQuote persist hquote).bind fun _ => ih _ _

theorem consumeSlice (target : ℕ) (persist : Bool) :
    Effect.Preserves P (consumeSlice host reader feed provider target persist observe) := by
  apply Effect.preserves_get_bind
  intro s hs
  exact (h.consumeLoop target persist _ 0 0).tryCatch (fun e => h.closeProvider.bind fun _ => Effect.preserves_throw e)
    s hs

/-- **Consuming a stream** preserves it. -/
theorem consume (limit : Option ℕ) (persist : Bool) :
    Effect.Preserves P (consume host reader feed provider limit persist observe) := by
  have hopen : Effect.Preserves P (openIterator feed provider) := by
    apply Effect.preserves_get_bind
    intro s hs
    split_ifs
    · exact hs
    · exact h.openProvider s hs
  apply Effect.preserves_get_bind
  intro s hs
  refine hopen.bind (fun _ => (h.consumeSlice _ persist).bind fun count => ?_) s hs
  apply Effect.preserves_get_bind
  intro s hs
  split_ifs
  · exact hs
  · exact hs

end Undisturbed

end Streams

/-! ### The failover of a cycle -/

/-- What of the cycle is about failover. -/
structure Control where
  activeIndex : ℕ
  primarySuccesses : ℕ
  failedOverAt : Option Instant
  activeProvider : Provider
  state : FeedState
  failoverCount : ℕ
  noted : Option Instant
  outcomes : List (Instant × ProviderOutcome)

/-- The part of the cycle that is about failover. -/
def FeedCycle.control (s : FeedCycle) : Control :=
  ⟨s.activeIndex, s.primarySuccesses, s.failedOverAt, s.snapshot.activeProvider, s.snapshot.state,
    s.snapshot.failoverCount, s.snapshot.failedOverAt, s.outcomes⟩

namespace Control

variable (feed : RealtimeFeed) (c : Control)

/-- A probe at a time. -/
def probed (time : Instant) (success : Bool) : Control :=
  let c := { c with outcomes := c.outcomes ++ [(time, ProviderOutcome.probed success)] }
  if success then
    if feed.recoverySuccesses ≤ c.primarySuccesses + 1 then { c with activeIndex := 0, primarySuccesses := 0 }
    else { c with primarySuccesses := c.primarySuccesses + 1 }
  else { c with primarySuccesses := 0 }

/-- A provider of the route was consumed. -/
def consumed (time : Instant) (provider : Provider) (index : ℕ) : Control :=
  { c with
    activeIndex := index, activeProvider := provider, state := if index = 0 then .healthy else .failedOver
    outcomes := c.outcomes ++ [(time, .consumed provider)] }

/-- The last provider of the route failed. -/
def degraded (time : Instant) (provider : Provider) : Control :=
  { c with state := .degraded, outcomes := c.outcomes ++ [(time, .failed provider)] }

/-- A provider of the route failed, and another one is next. -/
def failedOver (time : Instant) (provider next : Provider) (index : ℕ) : Control :=
  { c with
    activeIndex := index, failedOverAt := some time, activeProvider := next, state := .failedOver
    failoverCount := c.failoverCount + 1, noted := some time, outcomes := c.outcomes ++ [(time, .failed provider)] }

/-- What `run_once` does before its loop: nothing, or a probe after the cooldown. -/
def Recovers (now : Instant) (c c' : Control) : Prop :=
  c' = c ∨ c.activeIndex ≠ 0 ∧ (∃ t ∈ c.failedOverAt, t + feed.recoveryCooldown ≤ now) ∧
    ∃ success, c' = c.probed feed now success

/-- What the loop of `run_once` does, from a provider of the route on. -/
inductive Tries : List Provider → ℕ → Control → Control → Prop where
  | none {index : ℕ} {c : Control} : Tries [] index c c
  | consumed {provider : Provider} {providers : List Provider} {index : ℕ} {c : Control} (time : Instant) :
    Tries (provider :: providers) index c (c.consumed time provider index)
  | degraded {provider active : Provider} {index : ℕ} {c : Control} (time : Instant)
    (hactive : active = c.activeProvider ∨ active = provider) :
    Tries [provider] index c (({ c with activeProvider := active } : Control).degraded time provider)
  | failedOver {provider next : Provider} {providers : List Provider} {index : ℕ} {c c' : Control} (time : Instant)
    (h : Tries (next :: providers) (index + 1) (c.failedOver time provider next (index + 1)) c') :
    Tries (provider :: next :: providers) index c c'

end Control

section Refinement

variable {host : Host} {reader : Reader} {feed : RealtimeFeed}

variable (feed) in
theorem saveSnapshot_eq (s : FeedCycle) : ∃ writes, s.saveSnapshot feed = { s with writes := writes } := by
  unfold FeedCycle.saveSnapshot
  split_ifs
  · exact ⟨_, rfl⟩
  · exact ⟨s.writes, rfl⟩

@[simp] theorem control_saveSnapshot (s : FeedCycle) : (s.saveSnapshot feed).control = s.control := by
  obtain ⟨writes, heq⟩ := saveSnapshot_eq feed s
  rw [heq]
  rfl

theorem control_trackSequence (s : FeedCycle) (quote : QuoteEvent) :
    (s.trackSequence feed quote).control = s.control := by
  unfold FeedCycle.trackSequence
  cases quote.sequence with
  | none => rfl
  | some sequence =>
    dsimp only
    rw [control_saveSnapshot]
    split_ifs <;> rfl

/-- Consuming a stream changes nothing about failover but the active provider of the snapshot, and that only if it is
observed. -/
theorem consume_control (provider : Provider) (limit : Option ℕ) (persist observe : Bool) (s : FeedCycle) :
    Effect.Ends (consume host reader feed provider limit persist observe) s
      (fun _ s' => ∃ active, (active = s.control.activeProvider ∨ observe = true ∧ active = provider) ∧
        s'.control = { s.control with activeProvider := active })
      fun _ s' => ∃ active, (active = s.control.activeProvider ∨ observe = true ∧ active = provider) ∧
        s'.control = { s.control with activeProvider := active } := by
  have h : Undisturbed reader feed provider observe fun s' => ∃ active,
      (active = s.control.activeProvider ∨ observe = true ∧ active = provider) ∧
        s'.control = { s.control with activeProvider := active } := by
    constructor
    · intro s' data iterators now feeds heard hs
      exact hs
    · rintro s' connectedAt ⟨active, hactive, hs⟩
      refine ⟨active, hactive, ?_⟩
      rw [FeedCycle.replaceSnapshot, control_saveSnapshot, ← hs]
      rfl
    · rintro - s' _ _ quote - ⟨active, hactive, hs⟩
      exact ⟨active, hactive, (control_trackSequence s' quote).trans hs⟩
    · rintro hobserve s' lastEventAt ⟨active, -, hs⟩
      refine ⟨provider, Or.inr ⟨hobserve, rfl⟩, ?_⟩
      rw [FeedCycle.replaceSnapshot, control_saveSnapshot]
      exact congrArg (fun c : Control => { c with activeProvider := provider }) hs
  exact (h.consume limit persist).ends ⟨_, Or.inl rfl, rfl⟩

theorem control_afterProbe (s : FeedCycle) (time : Instant) (success : Bool) :
    ((s.note time (.probed success)).afterProbe feed success).control = s.control.probed feed time success := by
  unfold FeedCycle.afterProbe Control.probed
  cases success with
  | false => rfl
  | true =>
    show (if feed.recoverySuccesses ≤ s.primarySuccesses + 1 then _ else _ : FeedCycle).control =
      if feed.recoverySuccesses ≤ s.primarySuccesses + 1 then _ else _
    split_ifs
    · cases hprovider : feed.route[(s.note time (.probed true)).activeIndex]? <;> rfl
    · rfl

/-- **The part before the loop** raises nothing. -/
theorem recoverPrimary_control (s : FeedCycle) :
    Effect.Ends (recoverPrimary host reader feed) s
      (fun _ s' => Control.Recovers feed s.now s.control s'.control) fun _ _ => False := by
  refine Effect.Ends.bind (Effect.ends_of_eq_ok (Effect.get_apply s) ?_)
  split_ifs with hdue
  · have hprobe : Effect.Ends (probePrimary host reader feed) s (fun _ s' => s'.control = s.control) fun _ _ => False := by
      have hkept : ∀ s' : FeedCycle, (∃ active, (active = s.control.activeProvider ∨ false = true ∧ active = feed.primary) ∧
          s'.control = { s.control with activeProvider := active }) → s'.control = s.control := by
        rintro s' ⟨active, hactive, hs'⟩
        obtain rfl : active = s.control.activeProvider := by simpa using hactive
        exact hs'
      refine Effect.Ends.tryCatch (Effect.Ends.bind ((consume_control feed.primary (some 1) false false s).mono ?_ ?_))
      · exact fun count s' hs' => hkept s' hs'
      · exact fun e s' hs' => hkept s' hs'
    refine Effect.Ends.bind (hprobe.mono ?_ fun _ _ h => h)
    intro success s' hs'
    refine Effect.ends_of_eq_ok (Effect.modify_apply _ s') (Or.inr ⟨hdue.1, ?_, success, ?_⟩)
    · obtain ⟨t, ht, hle⟩ := (Option.any_eq_true _ _).mp hdue.2
      exact ⟨t, ht, of_decide_eq_true hle⟩
    · rw [control_afterProbe, hs']
  · exact Or.inl rfl

/-- **The loop** over the providers. -/
theorem tryProviders_control (providers : List Provider) (index : ℕ) (s : FeedCycle) :
    Effect.Ends (tryProviders host reader feed providers index) s
      (fun _ s' => Control.Tries providers index s.control s'.control)
      fun _ s' => Control.Tries providers index s.control s'.control := by
  induction providers generalizing index s with
  | nil => exact .none
  | cons provider providers ih =>
    refine Effect.Ends.tryCatch (Effect.Ends.bind ((consume_control provider none true true s).mono ?_ ?_))
    · rintro count s' ⟨active, -, hs'⟩
      refine Effect.Ends.bind (Effect.ends_of_eq_ok (Effect.modify_apply _ s') ?_)
      have hdone : (s'.consumed feed provider index).control = s.control.consumed s'.now provider index := by
        rw [FeedCycle.consumed, FeedCycle.replaceSnapshot, control_saveSnapshot]
        exact congrArg (fun c => c.consumed s'.now provider index) hs'
      show Control.Tries (provider :: providers) index s.control (s'.consumed feed provider index).control
      rw [hdone]
      exact .consumed s'.now
    · rintro e s' ⟨active, hactive, hs'⟩
      cases providers with
      | nil =>
        refine Effect.Ends.bind (Effect.ends_of_eq_ok (Effect.modify_apply _ s') ?_)
        have hdone : (s'.degrade feed provider e).control =
            ({ s.control with activeProvider := active } : Control).degraded s'.now provider := by
          rw [FeedCycle.degrade, FeedCycle.replaceSnapshot, control_saveSnapshot]
          exact congrArg (fun c => c.degraded s'.now provider) hs'
        show Control.Tries [provider] index s.control (s'.degrade feed provider e).control
        rw [hdone]
        exact .degraded s'.now (hactive.imp_right And.right)
      | cons next providers =>
        refine Effect.Ends.bind (Effect.ends_of_eq_ok (Effect.modify_apply _ s') ?_)
        have hdone : (s'.failOver feed provider next (index + 1) e).control =
            s.control.failedOver s'.now provider next (index + 1) := by
          rw [FeedCycle.failOver, FeedCycle.replaceSnapshot, control_saveSnapshot]
          exact congrArg (fun c => c.failedOver s'.now provider next (index + 1)) hs'
        refine (ih (index + 1) _).mono ?_ ?_
        · intro count s'' hs''
          rw [hdone] at hs''
          exact .failedOver s'.now hs''
        · intro e' s'' hs''
          rw [hdone] at hs''
          exact .failedOver s'.now hs''

variable (host reader feed) in
/-- **A call** does to the part about failover what its two parts do. -/
theorem runOnce_control (s : FeedCycle) :
    ∃ c, Control.Recovers feed s.now s.control c ∧
      Control.Tries (feed.route.drop c.activeIndex) c.activeIndex c
        (Effect.final (runOnce host reader feed s)).control := by
  have h : Effect.Ends (runOnce host reader feed) s
      (fun _ s' => ∃ c, Control.Recovers feed s.now s.control c ∧
        Control.Tries (feed.route.drop c.activeIndex) c.activeIndex c s'.control)
      fun _ s' => ∃ c, Control.Recovers feed s.now s.control c ∧
        Control.Tries (feed.route.drop c.activeIndex) c.activeIndex c s'.control := by
    refine Effect.Ends.bind ((recoverPrimary_control s).mono ?_ fun _ _ h => h.elim)
    intro _ s' hs'
    refine Effect.Ends.bind (Effect.ends_of_eq_ok (Effect.get_apply s') ?_)
    refine (tryProviders_control (feed.route.drop s'.activeIndex) s'.activeIndex s').mono ?_ ?_
    · exact fun count s'' hs'' => ⟨s'.control, hs', hs''⟩
    · exact fun e s'' hs'' => ⟨s'.control, hs', hs''⟩
  exact h.final

/-- **What is created**: a new cycle, or one that goes on with a row for a provider of its route. -/
theorem create_cases {loaded : Option FeedStateRecord × Dict (Provider × String) ℤ} {lake : Lake} {now : Instant}
    {s : FeedCycle} (h : feed.create loaded lake now = .ok s) :
    s.primarySuccesses = 0 ∧ s.outcomes = [] ∧ s.snapshot.market = feed.market ∧
      s.snapshot.failedOverAt = s.failedOverAt ∧
      (feed.stateStore = true → s.sequences = loaded.2 ∧ s.writes = [.save s.snapshot.record]) ∧
      (s.activeIndex = 0 ∧ s.snapshot = feed.fresh now ∧
          (feed.stateStore = true → ∀ persisted ∈ loaded.1, persisted.activeProvider ∉ feed.route) ∨
        ∃ persisted ∈ loaded.1, persisted.activeProvider ∈ feed.route ∧
          s.activeIndex = feed.route.idxOf persisted.activeProvider ∧ s.failedOverAt = persisted.failedOverAt ∧
          s.snapshot.activeProvider = persisted.activeProvider ∧
          s.snapshot.failoverCount = persisted.failoverCount) := by
  unfold RealtimeFeed.create at h
  dsimp only at h
  split_ifs at h with hstore
  · obtain ⟨s₁, hs₁, h⟩ := Effect.except_bind_eq_ok.mp h
    cases h
    cases hloaded : loaded.1 with
    | none =>
      rw [hloaded] at hs₁
      cases hs₁
      exact ⟨rfl, rfl, rfl, rfl, fun _ => ⟨rfl, rfl⟩, Or.inl ⟨rfl, rfl, fun _ _ h => nomatch h⟩⟩
    | some persisted =>
      rw [hloaded, RealtimeFeed.hydrate] at hs₁
      split_ifs at hs₁ with hroute
      · obtain ⟨state, -, hs₁⟩ := Effect.except_bind_eq_ok.mp hs₁
        cases hs₁
        exact ⟨rfl, rfl, rfl, rfl, fun _ => ⟨rfl, rfl⟩, Or.inr ⟨persisted, rfl, hroute, rfl, rfl, rfl, rfl⟩⟩
      · cases hs₁
        refine ⟨rfl, rfl, rfl, rfl, fun _ => ⟨rfl, rfl⟩, Or.inl ⟨rfl, rfl, ?_⟩⟩
        rintro - persisted' hpersisted
        rwa [← Option.some.inj hpersisted]
  · cases h
    exact ⟨rfl, rfl, rfl, rfl, fun h => absurd h hstore, Or.inl ⟨rfl, rfl, fun h => absurd h hstore⟩⟩

/-- The active provider is the one at the active index. -/
theorem active_create {loaded : Option FeedStateRecord × Dict (Provider × String) ℤ} {lake : Lake} {now : Instant}
    {s : FeedCycle} (h : feed.create loaded lake now = .ok s) :
    feed.route[s.activeIndex]? = some s.snapshot.activeProvider := by
  obtain ⟨-, -, -, -, -, hcases⟩ := create_cases h
  rcases hcases with ⟨hindex, hsnapshot, -⟩ | ⟨persisted, -, hmem, hindex, -, hactive, -⟩
  · rw [hindex, hsnapshot, ← List.head?_eq_getElem?]
    exact List.head?_eq_some_head feed.route_ne
  · rw [hindex, hactive]
    exact List.getElem?_idxOf hmem

end Refinement

end NanoDelta.Runtime
