import NanoDelta.Runtime.Hysteresis

/-!
# Restarts of realtime cycles

The cycles of `build_realtime_cycles` and `build_index_cycle` (`runtime/realtime_config.py`), with the one store that
they share. What a call of a cycle writes comes between what the others write, and between two calls a cycle may be
built anew, from what the store then has.

* `Deployment.feed`: what the cycles are configured with. `deployed`: the cycles and the store as a machine.
* `Resumes`: what a cycle that is built anew has to go on with.
* `Stored`: where one cycle has a market, the store has what the cycle has. `Calm`: where several cycles have a market,
  but none of them a fallback, all of them have the same.
* `resumes_iff`: every cycle goes on with its own, exactly if it is not so that the index cycle runs and the NSE cycle has
  a fallback.
-/

namespace NanoDelta.Runtime

open Library Providers

/-! ### The cycles of a deployment -/

/-- The cycles that share the store. -/
inductive CycleName where
  | nse
  | forex
  | crypto
  | index
  deriving DecidableEq

/-- The seconds of bars, by their labels. -/
structure BarTimeframes where
  seconds : Dict String ℤ
  pos : ∀ e ∈ seconds.entries, 0 < e.2
  nodup : (seconds.entries.map Prod.snd).Nodup

/-- The default of `bar_timeframes`. -/
def BarTimeframes.minute : BarTimeframes := ⟨Dict.empty.set "1m" 60, minuteBars_pos, minuteBars_nodup⟩

/-- The inverse of `INDEX_SECURITY_IDS`. -/
def indexIdToSymbol : Dict String String :=
  [("13", "NIFTY"), ("21", "INDIA_VIX"), ("25", "BANKNIFTY"), ("14", "NIFTY_AUTO"), ("28", "NIFTY_FMCG"),
    ("29", "NIFTY_IT"), ("30", "NIFTY_MEDIA"), ("31", "NIFTY_METAL"), ("32", "NIFTY_PHARMA"), ("34", "NIFTY_REALTY"),
    ("42", "NIFTY_ENERGY"), ("447", "NIFTY_HEALTHCARE"), ("469", "NIFTY_FINSRV")].foldl
    (fun d e => d.set e.1 e.2) .empty

/-- What the environment says about the cycles. -/
structure Deployment where
  /-- Whether there is a `TRUEDATA_USERNAME`. -/
  trueData : Bool
  /-- Whether `NANODELTA_INDEX_FEED_ENABLED` is `true`. -/
  indexFeed : Bool
  /-- `dhan_id_to_canonical`. -/
  dhanIdToCanonical : Dict String String
  nseBars : BarTimeframes
  indexBars : BarTimeframes

namespace Deployment

variable (d : Deployment)

/-- The registry that a cycle is built with. -/
def registry : CycleName → Except PyError ProviderRegistry
  | .index => do (← defaultProviderRegistry).register .nse .realtimeQuotes [.dhan]
  | _ => do
    let registry ← defaultProviderRegistry
    if d.trueData then return registry else registry.register .nse .realtimeQuotes [.dhan]

/-- The cycles of `build_realtime_cycles`, and the one of `build_index_cycle`. -/
def feed : CycleName → RealtimeFeed
  | .nse =>
    { market := .nse
      symbolMaps := Dict.empty.set .dhan d.dhanIdToCanonical
      barTimeframes := d.nseBars.seconds
      restores := true
      bars_pos := d.nseBars.pos
      bars_nodup := d.nseBars.nodup
      route := if d.trueData then [.truedata, .dhan] else [.dhan]
      channels := if d.trueData then (Dict.empty.set .dhan "quote").set .truedata "ticks" else Dict.empty.set .dhan "quote"
      stateStore := true
      route_ne := by cases d.trueData <;> decide
      route_nodup := by cases d.trueData <;> decide
      limits := defaultLimits }
  | .forex =>
    { market := .forex
      barTimeframes := BarTimeframes.minute.seconds
      restores := false
      bars_pos := BarTimeframes.minute.pos
      bars_nodup := BarTimeframes.minute.nodup
      route := [.oanda]
      channels := Dict.empty.set .oanda "pricing"
      stateStore := true
      route_ne := by decide
      route_nodup := by decide
      limits := defaultLimits }
  | .crypto =>
    { market := .crypto
      barTimeframes := BarTimeframes.minute.seconds
      restores := false
      bars_pos := BarTimeframes.minute.pos
      bars_nodup := BarTimeframes.minute.nodup
      route := [.okx, .poloniex]
      channels := (Dict.empty.set .okx "tickers").set .poloniex "ticker"
      stateStore := true
      route_ne := cryptoRoute_ne
      route_nodup := cryptoRoute_nodup
      limits := defaultLimits }
  | .index =>
    { market := .nse
      symbolMaps := Dict.empty.set .dhan indexIdToSymbol
      barTimeframes := d.indexBars.seconds
      restores := false
      bars_pos := d.indexBars.pos
      bars_nodup := d.indexBars.nodup
      route := [.dhan]
      channels := Dict.empty.set .dhan "quote"
      stateStore := true
      route_ne := dhanRoute_ne
      route_nodup := dhanRoute_nodup
      limits := defaultLimits }

@[simp] theorem stateStore_feed (name : CycleName) : (d.feed name).stateStore = true := by cases name <;> rfl

/-- The route of a cycle is the one of its registry. -/
theorem route_registry (name : CycleName) :
    (d.registry name >>= fun registry => registry.route (d.feed name).market .realtimeQuotes) =
      .ok (d.feed name).route := by
  obtain ⟨trueData, indexFeed, dhanIdToCanonical, nseBars, indexBars⟩ := d
  cases name <;> cases trueData <;> rfl

/-- The cycles that are there: `build_index_cycle` may return `None`. -/
def Enabled (name : CycleName) : Prop := name = .index → d.indexFeed = true

instance (name : CycleName) : Decidable (d.Enabled name) := inferInstanceAs (Decidable (_ → _))

end Deployment

/-- The store, the cycles that are running, and what is still to be written of their last calls. -/
structure Deployed where
  tables : FeedTables := {}
  cycles : CycleName → Option FeedCycle := fun _ => none
  pending : CycleName → List FeedWrite := fun _ => []

/-- What happens to a cycle: it is built, or built anew, it is called, or something of its last call is written. -/
inductive FeedAction where
  | start (lake : Lake) (now : Instant)
  | call (turn : Turn)
  | write

section Steps

variable (host : Host) (reader : Reader) (d : Deployment)

/-- An action of a cycle. It is called or built anew when everything of its last call is written. -/
def Deployed.act (s : Deployed) (name : CycleName) : FeedAction → Deployed
  | .start lake now =>
    if s.pending name = [] then
      match (d.feed name).create (s.tables.load (d.feed name).market) lake now with
      | .ok cycle => { s with
          tables := cycle.writes.foldl FeedTables.write s.tables, cycles := Function.update s.cycles name (some cycle) }
      | .error _ => { s with cycles := Function.update s.cycles name none }
    else s
  | .call turn =>
    match s.cycles name with
    | some cycle =>
      if s.pending name = [] then
        let cycle := ((failover host reader (d.feed name)).step cycle turn).1
        { s with
          cycles := Function.update s.cycles name (some cycle), pending := Function.update s.pending name cycle.writes }
      else s
    | none => s
  | .write =>
    match s.pending name with
    | w :: ws => { s with tables := s.tables.write w, pending := Function.update s.pending name ws }
    | [] => s

/-- The cycles and their store as a machine. -/
def deployed : Machine Deployed (CycleName × FeedAction) Unit where
  step s i := (if d.Enabled i.1 then s.act host reader d i.1 i.2 else s, ())

/-- A cycle has what another one had. -/
structure FeedCycle.GoesOn (cycle old : FeedCycle) : Prop where
  activeIndex : cycle.activeIndex = old.activeIndex
  failedOverAt : cycle.failedOverAt = old.failedOverAt
  failoverCount : cycle.snapshot.failoverCount = old.snapshot.failoverCount
  sequences : ∀ key, cycle.sequences.get? key = old.sequences.get? key

/-- If the step builds a cycle, that succeeds, the cycle does not start on a fallback without a `failed_over_at`, and goes
on with what it had when it was running. -/
def Resumes (s : Deployed) : CycleName × FeedAction → Prop
  | (name, .start lake now) => d.Enabled name → s.pending name = [] →
      ∃ cycle, (d.feed name).create (s.tables.load (d.feed name).market) lake now = .ok cycle ∧
        (cycle.activeIndex ≠ 0 → cycle.failedOverAt ≠ none) ∧ ∀ old ∈ s.cycles name, cycle.GoesOn old
  | _ => True

end Steps

/-! ### What a call preserves -/

section Calls

variable {host : Host} {reader : Reader} {feed : RealtimeFeed} {P : FeedCycle → Prop}

variable (reader feed P) in
/-- What has to preserve a property so that a call does. -/
structure Unchanged : Prop where
  consume : ∀ provider ∈ feed.route, ∀ observe, Undisturbed reader feed provider observe P
  probed : ∀ (s : FeedCycle) time success, P s → P ((s.note time (.probed success)).afterProbe feed success)
  consumed : ∀ (s : FeedCycle) provider index, feed.route[index]? = some provider → P s →
    P (s.consumed feed provider index)
  degraded : ∀ (s : FeedCycle) provider e, provider ∈ feed.route → P s → P (s.degrade feed provider e)
  failedOver : ∀ (s : FeedCycle) provider next index e, feed.route[index]? = some provider →
    feed.route[index + 1]? = some next → P s → P (s.failOver feed provider next (index + 1) e)

namespace Unchanged

variable (h : Unchanged reader feed P)

include h

theorem recoverPrimary : Effect.Preserves P (recoverPrimary host reader feed) := by
  have hprimary : feed.primary ∈ feed.route := List.head_mem feed.route_ne
  have hprobe : Effect.Preserves P (probePrimary host reader feed) := by
    apply Effect.Preserves.tryCatch
    · exact ((h.consume _ hprimary false).consume (some 1) false).bind fun _ => Effect.preserves_pure _
    · exact fun _ => Effect.preserves_pure _
  apply Effect.preserves_get_bind
  intro s hs
  split_ifs
  · exact hprobe.bind (fun success => Effect.preserves_modify fun s' hs' => h.probed s' _ success hs') s hs
  · exact hs

theorem tryProviders (providers : List Provider) (index : ℕ) (hproviders : feed.route.drop index = providers) :
    Effect.Preserves P (tryProviders host reader feed providers index) := by
  induction providers generalizing index with
  | nil => exact Effect.preserves_pure _
  | cons provider providers ih =>
    have hget : ∀ k, feed.route[index + k]? = (provider :: providers)[k]? := by
      intro k
      rw [← hproviders, List.getElem?_drop]
    have hmem : provider ∈ feed.route := List.mem_of_getElem? (hget 0)
    have hrest : feed.route.drop (index + 1) = providers := by
      rw [← List.tail_drop, hproviders, List.tail_cons]
    apply Effect.Preserves.tryCatch
    · refine ((h.consume provider hmem true).consume none true).bind fun count => ?_
      apply Effect.Preserves.bind
      · exact Effect.preserves_modify fun s hs => h.consumed s provider index (hget 0) hs
      · exact fun _ => Effect.preserves_pure _
    · intro e
      cases providers with
      | nil =>
        apply Effect.Preserves.bind
        · exact Effect.preserves_modify fun s hs => h.degraded s provider e hmem hs
        · exact fun _ => Effect.preserves_throw _
      | cons next providers =>
        apply Effect.Preserves.bind
        · exact Effect.preserves_modify fun s hs => h.failedOver s provider next index e (hget 0) (hget 1) hs
        · exact fun _ => ih (index + 1) hrest

/-- **A call** preserves it. -/
theorem runOnce : Effect.Preserves P (runOnce host reader feed) := by
  refine h.recoverPrimary.bind fun _ => ?_
  apply Effect.preserves_get_bind
  intro s hs
  exact h.tryProviders _ _ rfl s hs

end Unchanged

/-! ### What the store has -/

/-- The store has what the cycle has, once everything is written. -/
structure Stored (feed : RealtimeFeed) (t : FeedTables) (s : FeedCycle) : Prop where
  market : s.snapshot.market = feed.market
  writes : ∀ w ∈ s.writes, w.market = feed.market
  view : (s.writes.foldl FeedTables.write t).view feed.market = (some s.snapshot.record, s.sequences.get?)

variable {t : FeedTables} {s : FeedCycle}

/-- The snapshot is saved. -/
theorem Stored.saveSnapshot (hstore : feed.stateStore = true) (hmarket : s.snapshot.market = feed.market)
    (hwrites : ∀ w ∈ s.writes, w.market = feed.market)
    (hlast : (s.writes.foldl FeedTables.write t).last feed.market = s.sequences.get?) :
    Stored feed t (s.saveSnapshot feed) := by
  rw [FeedCycle.saveSnapshot, if_pos hstore]
  constructor
  · exact hmarket
  · intro w hw
    rcases List.mem_append.mp hw with hw | hw
    · exact hwrites w hw
    · rw [List.mem_singleton.mp hw]
      exact hmarket
  · rw [List.foldl_append]
    exact Prod.ext ((FeedTables.row_save ..).trans (if_pos hmarket.symm)) hlast

theorem Stored.replaceSnapshot (h : Stored feed t s) (hstore : feed.stateStore = true) {snapshot : StreamSnapshot}
    (hmarket : snapshot.market = feed.market) : Stored feed t (s.replaceSnapshot feed snapshot) :=
  Stored.saveSnapshot (s := { s with snapshot := snapshot }) hstore hmarket h.writes (congrArg Prod.snd h.view)

/-- The first sequence of a symbol, or a later one, is kept as it is. -/
theorem last_keepSequence (hstore : feed.stateStore = true) {quote : QuoteEvent} {sequence : ℤ} (gapDelta : ℕ)
    (hlast : (s.writes.foldl FeedTables.write t).last feed.market = s.sequences.get?)
    (hprevious : ∀ previous ∈ s.sequences.get? (quote.provider, quote.symbol), previous < sequence) :
    ((s.keepSequence feed quote sequence gapDelta).writes.foldl FeedTables.write t).last feed.market =
      (s.keepSequence feed quote sequence gapDelta).sequences.get? := by
  funext key
  rw [FeedCycle.keepSequence, if_pos hstore]
  dsimp only
  rw [List.foldl_append, Dict.get?_set]
  show FeedTables.last (FeedTables.write _ (.saveSequence ..)) feed.market key = _
  rw [FeedTables.last_saveSequence, hlast]
  by_cases hkey : key = (quote.provider, quote.symbol)
  · subst hkey
    rw [if_pos rfl, if_pos rfl]
    cases hget : s.sequences.get? (quote.provider, quote.symbol) with
    | none => rfl
    | some previous => exact congrArg some (max_eq_right (hprevious previous hget).le)
  · rw [if_neg hkey, if_neg fun heq => hkey (congrArg Prod.snd heq)]

theorem Stored.trackSequence (h : Stored feed t s) (hstore : feed.stateStore = true) (quote : QuoteEvent) :
    Stored feed t (s.trackSequence feed quote) := by
  unfold FeedCycle.trackSequence
  cases quote.sequence with
  | none => exact h
  | some sequence =>
    have hlast : (s.writes.foldl FeedTables.write t).last feed.market = s.sequences.get? := congrArg Prod.snd h.view
    dsimp only
    generalize (if (s.sequences.get? (quote.provider, quote.symbol)).any (· + 1 < sequence) then 1 else 0) = gapDelta
    split_ifs with hprevious
    · refine Stored.saveSnapshot hstore h.market ?_ (last_keepSequence hstore gapDelta hlast ?_)
      · intro w hw
        rw [FeedCycle.keepSequence, if_pos hstore] at hw
        rcases List.mem_append.mp hw with hw | hw
        · exact h.writes w hw
        · rw [List.mem_singleton.mp hw]
          rfl
      · intro previous hget
        simpa [Option.mem_def.mp hget] using hprevious
    · exact Stored.saveSnapshot hstore h.market h.writes hlast

theorem undisturbed_stored (hstore : feed.stateStore = true) (provider : Provider) (observe : Bool) :
    Undisturbed reader feed provider observe (Stored feed t) := by
  constructor
  · exact fun s data iterators now feeds heard hs => ⟨hs.market, hs.writes, hs.view⟩
  · exact fun s connectedAt hs => hs.replaceSnapshot hstore hs.market
  · exact fun _ s payload now quote _ hs => hs.trackSequence hstore quote
  · exact fun _ s lastEventAt hs => hs.replaceSnapshot hstore hs.market

variable (feed) in
theorem afterProbe_eq (s : FeedCycle) (success : Bool) :
    ∃ activeIndex primarySuccesses iterators, (activeIndex = 0 ∨ activeIndex = s.activeIndex) ∧
      s.afterProbe feed success =
        { s with activeIndex := activeIndex, primarySuccesses := primarySuccesses, iterators := iterators } := by
  unfold FeedCycle.afterProbe
  split_ifs
  · cases feed.route[s.activeIndex]? with
    | none => exact ⟨_, _, _, Or.inl rfl, rfl⟩
    | some provider => exact ⟨_, _, _, Or.inl rfl, rfl⟩
  · exact ⟨_, _, _, Or.inr rfl, rfl⟩
  · exact ⟨_, _, _, Or.inr rfl, rfl⟩

/-- **A call** leaves with its writes in the store what the cycle has. -/
theorem unchanged_stored (hstore : feed.stateStore = true) : Unchanged reader feed (Stored feed t) := by
  constructor
  · exact fun provider _ observe => undisturbed_stored hstore provider observe
  · intro s time success hs
    obtain ⟨activeIndex, primarySuccesses, iterators, -, heq⟩ :=
      afterProbe_eq feed (s.note time (.probed success)) success
    rw [heq]
    exact ⟨hs.market, hs.writes, hs.view⟩
  · intro s provider index _ hs
    apply Stored.replaceSnapshot
    · exact ⟨hs.market, hs.writes, hs.view⟩
    · exact hstore
    · exact hs.market
  · intro s provider e _ hs
    apply Stored.replaceSnapshot
    · exact ⟨hs.market, hs.writes, hs.view⟩
    · exact hstore
    · exact hs.market
  · intro s provider next index e _ _ hs
    apply Stored.replaceSnapshot
    · exact ⟨hs.market, hs.writes, hs.view⟩
    · exact hstore
    · exact hs.market

/-! ### Where a cycle is -/

/-- The active provider is the one at the active index, and a cycle on a fallback knows since when. -/
structure Placed (feed : RealtimeFeed) (c : Control) : Prop where
  active : feed.route[c.activeIndex]? = some c.activeProvider
  noted : c.noted = c.failedOverAt
  since : c.activeIndex ≠ 0 → c.failedOverAt ≠ none

variable {c c₁ c' : Control} {now : Instant}

/-- What the loop over the providers leaves. Before it, a cycle that goes back to the primary still has the fallback in
its snapshot. -/
theorem placed_of_tries {providers : List Provider} {index : ℕ} (h : Control.Tries providers index c c')
    (hproviders : feed.route.drop index = providers) (hne : providers ≠ []) (hindex : c.activeIndex = index)
    (hactive : feed.route[index]? = some c.activeProvider ∨ 1 < providers.length) (hnoted : c.noted = c.failedOverAt)
    (hsince : index ≠ 0 → c.failedOverAt ≠ none) : Placed feed c' := by
  have hget : ∀ k, feed.route[index + k]? = providers[k]? := by
    intro k
    rw [← hproviders, List.getElem?_drop]
  induction h with
  | none => exact absurd rfl hne
  | consumed time => exact ⟨hget 0, hnoted, hsince⟩
  | degraded time hkept =>
    rename_i provider active index c
    have hprovider : c.activeProvider = provider := by
      rcases hactive with heq | hlt
      · exact Option.some.inj (heq.symm.trans (hget 0))
      · simp at hlt
    refine ⟨?_, hnoted, fun h => hsince (hindex ▸ h)⟩
    show feed.route[c.activeIndex]? = some active
    rw [hindex, hkept.elim (fun heq => heq.trans hprovider) id]
    exact hget 0
  | failedOver time h ih =>
    rename_i provider next providers index c c'
    refine ih ?_ (List.cons_ne_nil _ _) rfl (Or.inl (hget 1)) rfl (fun _ => Option.some_ne_none _) ?_
    · rw [← List.tail_drop, hproviders, List.tail_cons]
    · intro k
      rw [Nat.add_assoc, Nat.add_comm 1 k]
      exact hget (k + 1)

/-- **A call** leaves the cycle at a place that it knows. -/
theorem Placed.call (h : Placed feed c) (hrecovers : Control.Recovers feed now c c₁)
    (htries : Control.Tries (feed.route.drop c₁.activeIndex) c₁.activeIndex c₁ c') : Placed feed c' := by
  have hlt : c.activeIndex < feed.route.length := (List.getElem?_eq_some_iff.mp h.active).1
  have hkept : c₁.activeIndex = c.activeIndex → c₁.activeProvider = c.activeProvider → c₁.noted = c.noted →
      c₁.failedOverAt = c.failedOverAt → Placed feed c' := by
    intro hindex hprovider hnoted hfailed
    refine placed_of_tries htries rfl ?_ rfl (Or.inl ?_) ?_ ?_
    · rw [List.ne_nil_iff_length_pos, List.length_drop, hindex]
      omega
    · rw [hindex, hprovider]
      exact h.active
    · rw [hnoted, hfailed]
      exact h.noted
    · rw [hindex, hfailed]
      exact h.since
  rcases hrecovers with rfl | ⟨hne, -, success, rfl⟩
  · exact hkept rfl rfl rfl rfl
  · unfold Control.probed at htries hkept
    cases success with
    | false => exact hkept rfl rfl rfl rfl
    | true =>
      rw [if_pos rfl] at htries hkept
      split_ifs at htries hkept with henough
      · refine placed_of_tries htries rfl ?_ rfl (Or.inr ?_) h.noted (fun h => absurd rfl h)
        · exact feed.route_ne
        · show 1 < feed.route.length
          omega
      · exact hkept rfl rfl rfl rfl

/-! ### Without a fallback -/

/-- A row of the NSE where nothing is said about a failover. -/
structure CalmRecord (r : FeedStateRecord) : Prop where
  market : r.market = .nse
  activeProvider : r.activeProvider = .dhan
  failedOverAt : r.failedOverAt = none
  failoverCount : r.failoverCount = 0
  state : ∃ state : FeedState, r.state = state.value

theorem calmRecord_record {snapshot : StreamSnapshot} (hmarket : snapshot.market = .nse)
    (hactive : snapshot.activeProvider = .dhan) (hfailed : snapshot.failedOverAt = none)
    (hcount : snapshot.failoverCount = 0) : CalmRecord snapshot.record :=
  ⟨hmarket, hactive, hfailed, hcount, snapshot.state, rfl⟩

/-- A cycle of the NSE that has only Dhan. -/
structure Calm (s : FeedCycle) : Prop where
  activeIndex : s.activeIndex = 0
  failedOverAt : s.failedOverAt = none
  snapshot : CalmRecord s.snapshot.record
  sequences : ∀ key, s.sequences.get? key = none
  writes : ∀ w ∈ s.writes, ∃ r, w = .save r ∧ CalmRecord r

/-- Dhan has no sequences. -/
theorem sequence_of_dhan {cycle : RealtimeMarketCycle} {payload : Payload} {quote : QuoteEvent}
    (h : cycle.quoteOf reader .dhan payload now = .ok (some quote)) : quote.sequence = none := by
  unfold RealtimeMarketCycle.quoteOf normalizeQuote at h
  obtain ⟨fields, hfields, h⟩ := Effect.except_bind_eq_ok.mp h
  cases hfields
  split at h
  · obtain ⟨eventTime, -, h⟩ := Effect.except_bind_eq_ok.mp h
    obtain ⟨price, -, h⟩ := Effect.except_bind_eq_ok.mp h
    obtain ⟨volume, -, h⟩ := Effect.except_bind_eq_ok.mp h
    obtain ⟨sequence, hsequence, h⟩ := Effect.except_bind_eq_ok.mp h
    cases hsequence
    cases h
    rfl
  · cases h

theorem Calm.replaceSnapshot (h : Calm s) {snapshot : StreamSnapshot} (hsnapshot : CalmRecord snapshot.record) :
    Calm (s.replaceSnapshot feed snapshot) := by
  unfold FeedCycle.replaceSnapshot FeedCycle.saveSnapshot
  split_ifs
  · refine ⟨h.activeIndex, h.failedOverAt, hsnapshot, h.sequences, fun w hw => ?_⟩
    rcases List.mem_append.mp hw with hw | hw
    · exact h.writes w hw
    · exact ⟨_, List.mem_singleton.mp hw, hsnapshot⟩
  · exact ⟨h.activeIndex, h.failedOverAt, hsnapshot, h.sequences, h.writes⟩

theorem undisturbed_calm (observe : Bool) : Undisturbed reader feed .dhan observe Calm := by
  constructor
  · exact fun s data iterators now feeds heard hs => ⟨hs.activeIndex, hs.failedOverAt, hs.snapshot, hs.sequences, hs.writes⟩
  · exact fun s connectedAt hs => hs.replaceSnapshot
      (calmRecord_record hs.snapshot.market hs.snapshot.activeProvider hs.snapshot.failedOverAt hs.snapshot.failoverCount)
  · intro _ s payload now quote hquote hs
    rw [FeedCycle.trackSequence, sequence_of_dhan hquote]
    exact hs
  · exact fun _ s lastEventAt hs => hs.replaceSnapshot
      (calmRecord_record hs.snapshot.market rfl hs.snapshot.failedOverAt hs.snapshot.failoverCount)

/-- **A call** of a cycle that has only Dhan. -/
theorem unchanged_calm (hroute : feed.route = [.dhan]) : Unchanged reader feed Calm := by
  have hprovider : ∀ provider index, feed.route[index]? = some provider → index = 0 ∧ provider = .dhan := by
    intro provider index hget
    rw [hroute, List.getElem?_singleton] at hget
    split_ifs at hget with hindex
    exact ⟨hindex, (Option.some.inj hget).symm⟩
  constructor
  · intro provider hmem observe
    rw [hroute] at hmem
    rw [List.mem_singleton.mp hmem]
    exact undisturbed_calm observe
  · intro s time success hs
    obtain ⟨activeIndex, primarySuccesses, iterators, hindex, heq⟩ :=
      afterProbe_eq feed (s.note time (.probed success)) success
    rw [heq]
    refine ⟨?_, hs.failedOverAt, hs.snapshot, hs.sequences, hs.writes⟩
    exact hindex.elim id fun heq => heq.trans hs.activeIndex
  · intro s provider index hget hs
    obtain ⟨rfl, rfl⟩ := hprovider provider index hget
    apply Calm.replaceSnapshot
    · exact ⟨rfl, hs.failedOverAt, hs.snapshot, hs.sequences, hs.writes⟩
    · exact calmRecord_record hs.snapshot.market rfl hs.snapshot.failedOverAt hs.snapshot.failoverCount
  · intro s provider e _ hs
    apply Calm.replaceSnapshot
    · exact ⟨hs.activeIndex, hs.failedOverAt, hs.snapshot, hs.sequences, hs.writes⟩
    · exact calmRecord_record hs.snapshot.market hs.snapshot.activeProvider hs.snapshot.failedOverAt
        hs.snapshot.failoverCount
  · intro s provider next index e _ hnext
    exact absurd (hprovider next _ hnext).1 (Nat.succ_ne_zero index)

/-! ### What is created -/

variable (feed) in
theorem exists_create {loaded : Option FeedStateRecord × Dict (Provider × String) ℤ} (lake : Lake) (now : Instant)
    (hstate : ∀ r ∈ loaded.1, ∃ state : FeedState, r.state = state.value) :
    ∃ s, feed.create loaded lake now = .ok s := by
  unfold RealtimeFeed.create
  dsimp only
  split_ifs
  · cases hloaded : loaded.1 with
    | none => exact ⟨_, rfl⟩
    | some r =>
      obtain ⟨state, hr⟩ := hstate r hloaded
      unfold RealtimeFeed.hydrate
      dsimp only
      rw [hr, FeedState.ofValue_value]
      split_ifs
      · exact ⟨_, rfl⟩
      · exact ⟨_, rfl⟩
  · exact ⟨_, rfl⟩

/-- What is created where the store has nothing. -/
theorem placed_create {loaded : Option FeedStateRecord × Dict (Provider × String) ℤ} {lake : Lake}
    (h : feed.create loaded lake now = .ok s) (hloaded : loaded.1 = none) :
    s.activeIndex = 0 ∧ Placed feed s.control := by
  obtain ⟨-, -, -, hnoted, -, hcases⟩ := create_cases h
  have hindex : s.activeIndex = 0 := by
    rcases hcases with ⟨hindex, -⟩ | ⟨r, hr, -⟩
    · exact hindex
    · rw [hloaded] at hr
      cases hr
  exact ⟨hindex, active_create h, hnoted, fun hne => absurd hindex hne⟩

/-- What is created from what the cycle had. -/
theorem goesOn_create {loaded : Option FeedStateRecord × Dict (Provider × String) ℤ} {lake : Lake} {old : FeedCycle}
    (h : feed.create loaded lake now = .ok s) (hstore : feed.stateStore = true) (hold : Placed feed old.control)
    (hrow : loaded.1 = some old.snapshot.record) (hlast : ∀ key, loaded.2.get? key = old.sequences.get? key) :
    s.GoesOn old ∧ Placed feed s.control := by
  obtain ⟨-, -, -, hnoted, hstored, hcases⟩ := create_cases h
  have hmem : old.snapshot.activeProvider ∈ feed.route := List.mem_of_getElem? hold.active
  have hidx : feed.route.idxOf old.snapshot.activeProvider = old.activeIndex := by
    obtain ⟨hlt, hget⟩ := List.getElem?_eq_some_iff.mp hold.active
    show feed.route.idxOf old.control.activeProvider = old.control.activeIndex
    rw [← hget]
    exact feed.route_nodup.idxOf_getElem _ hlt
  rcases hcases with ⟨-, -, hnot⟩ | ⟨r, hr, -, hindex, hfailed, hactive, hcount⟩
  · exact absurd hmem (hnot hstore _ hrow)
  · obtain rfl : r = old.snapshot.record := Option.some.inj (hr.symm.trans hrow)
    have hfailed' : s.failedOverAt = old.failedOverAt := hfailed.trans hold.noted
    have hindex' : s.activeIndex = old.activeIndex := hindex.trans hidx
    refine ⟨⟨hindex', hfailed', hcount, fun key => ?_⟩, active_create h, hnoted, fun hne => ?_⟩
    · rw [(hstored hstore).1]
      exact hlast key
    · show s.failedOverAt ≠ none
      rw [hfailed']
      exact hold.since fun heq => hne (hindex'.trans heq)

/-- What is created of a cycle that has only Dhan. -/
theorem calm_create {loaded : Option FeedStateRecord × Dict (Provider × String) ℤ} {lake : Lake}
    (h : feed.create loaded lake now = .ok s) (hstore : feed.stateStore = true) (hmarket : feed.market = .nse)
    (hroute : feed.route = [.dhan]) (hrow : ∀ r ∈ loaded.1, CalmRecord r) (hlast : ∀ key, loaded.2.get? key = none) :
    Calm s := by
  obtain ⟨-, -, hsnapshot, hnoted, hstored, hcases⟩ := create_cases h
  obtain ⟨hsequences, hwrites⟩ := hstored hstore
  have hrecord : s.activeIndex = 0 ∧ s.failedOverAt = none ∧ CalmRecord s.snapshot.record := by
    rcases hcases with ⟨hindex, hfresh, -⟩ | ⟨r, hr, hmem, hindex, hfailed, hactive, hcount⟩
    · have hfailed : s.failedOverAt = none := by rw [← hnoted, hfresh]; rfl
      refine ⟨hindex, hfailed, hsnapshot.trans hmarket, ?_, hnoted.trans hfailed, ?_, _, rfl⟩
      · show s.snapshot.activeProvider = .dhan
        rw [hfresh]
        show feed.route.head feed.route_ne = .dhan
        simp [hroute]
      · show s.snapshot.failoverCount = 0
        rw [hfresh]
        rfl
    · have hcalm := hrow r hr
      have hfailed' : s.failedOverAt = none := hfailed.trans hcalm.failedOverAt
      refine ⟨?_, hfailed', hsnapshot.trans hmarket, hactive.trans hcalm.activeProvider, hnoted.trans hfailed',
        hcount.trans hcalm.failoverCount, _, rfl⟩
      rw [hindex, hcalm.activeProvider, hroute]
      rfl
  obtain ⟨hindex, hfailed, hcalm⟩ := hrecord
  refine ⟨hindex, hfailed, hcalm, ?_, ?_⟩
  · intro key
    rw [hsequences]
    exact hlast key
  · intro w hw
    rw [hwrites, List.mem_singleton] at hw
    exact ⟨_, hw, hcalm⟩

end Calls

/-! ### Steps -/

section Runs

variable {host : Host} {reader : Reader} {d : Deployment} {s : Deployed} {name other : CycleName}

/-- No other cycle has the market of this one. -/
def Alone (d : Deployment) (name : CycleName) : Prop :=
  ∀ other, d.Enabled other → (d.feed other).market = (d.feed name).market → other = name

/-- Either no other cycle has the market, or it is the NSE and the index cycle is there. -/
theorem alone_or (h : d.Enabled name) : Alone d name ∨ d.indexFeed = true ∧ (d.feed name).market = .nse := by
  cases name with
  | nse =>
    by_cases hindex : d.indexFeed = true
    · exact Or.inr ⟨hindex, rfl⟩
    · refine Or.inl fun other hother hmarket => ?_
      cases other with
      | nse => rfl
      | index => exact absurd (hother rfl) hindex
      | forex => cases hmarket
      | crypto => cases hmarket
  | index => exact Or.inr ⟨h rfl, rfl⟩
  | forex =>
    refine Or.inl fun other _ hmarket => ?_
    cases other with
    | forex => rfl
    | nse => cases hmarket
    | index => cases hmarket
    | crypto => cases hmarket
  | crypto =>
    refine Or.inl fun other _ hmarket => ?_
    cases other with
    | crypto => rfl
    | nse => cases hmarket
    | index => cases hmarket
    | forex => cases hmarket

theorem route_of_nse (hd : d.trueData = false) (h : (d.feed name).market = .nse) : (d.feed name).route = [.dhan] := by
  cases name with
  | nse =>
    show (if d.trueData = true then _ else _) = _
    rw [hd]
    rfl
  | index => rfl
  | forex => cases h
  | crypto => cases h

/-- What an action does. -/
inductive Acted (host : Host) (reader : Reader) (d : Deployment) (s : Deployed) (name : CycleName) : Deployed → Prop where
  | idle : Acted host reader d s name s
  | started {cycle : FeedCycle} (lake : Lake) (now : Instant) (hpending : s.pending name = [])
    (hcycle : (d.feed name).create (s.tables.load (d.feed name).market) lake now = .ok cycle) :
    Acted host reader d s name { s with
      tables := cycle.writes.foldl FeedTables.write s.tables, cycles := Function.update s.cycles name (some cycle) }
  | failed {e : PyError} (lake : Lake) (now : Instant) (hpending : s.pending name = [])
    (he : (d.feed name).create (s.tables.load (d.feed name).market) lake now = .error e) :
    Acted host reader d s name { s with cycles := Function.update s.cycles name none }
  | called {cycle : FeedCycle} (turn : Turn) (hcycle : s.cycles name = some cycle) (hpending : s.pending name = []) :
    Acted host reader d s name { s with
      cycles := Function.update s.cycles name (some (Effect.final (runOnce host reader (d.feed name) (cycle.begin turn))))
      pending := Function.update s.pending name
        (Effect.final (runOnce host reader (d.feed name) (cycle.begin turn))).writes }
  | written {w : FeedWrite} {ws : List FeedWrite} (hpending : s.pending name = w :: ws) :
    Acted host reader d s name { s with tables := s.tables.write w, pending := Function.update s.pending name ws }

theorem acted (host : Host) (reader : Reader) (d : Deployment) (s : Deployed) (name : CycleName) (action : FeedAction) :
    Acted host reader d s name (s.act host reader d name action) := by
  cases action with
  | start lake now =>
    unfold Deployed.act
    dsimp only
    split_ifs with hpending
    · cases hcycle : (d.feed name).create (s.tables.load (d.feed name).market) lake now with
      | ok cycle => exact .started lake now hpending hcycle
      | error e => exact .failed lake now hpending hcycle
    · exact .idle
  | call turn =>
    unfold Deployed.act
    dsimp only
    cases hcycle : s.cycles name with
    | none => exact .idle
    | some cycle =>
      dsimp only
      split_ifs with hpending
      · exact .called turn hcycle hpending
      · exact .idle
  | write =>
    unfold Deployed.act
    dsimp only
    cases hpending : s.pending name with
    | nil => exact .idle
    | cons w ws => exact .written hpending

/-- **Frame**: an action leaves the other cycles, and the store of the other markets. -/
theorem acted_frame {s' : Deployed} (h : Acted host reader d s name s')
    (haddressed : ∀ w ∈ s.pending name, w.market = (d.feed name).market) :
    (∀ other, other ≠ name → s'.cycles other = s.cycles other ∧ s'.pending other = s.pending other) ∧
      ∀ market, market ≠ (d.feed name).market → s'.tables.view market = s.tables.view market := by
  cases h with
  | idle => exact ⟨fun _ _ => ⟨rfl, rfl⟩, fun _ _ => rfl⟩
  | started lake now hpending hcycle =>
    obtain ⟨-, -, hmarket, -, hstored, -⟩ := create_cases hcycle
    refine ⟨fun other hne => ⟨Function.update_of_ne hne .., rfl⟩, fun market hne => ?_⟩
    apply FeedTables.view_foldl_of_ne
    rw [(hstored (d.stateStore_feed name)).2]
    intro w hw
    rw [List.mem_singleton.mp hw]
    exact fun heq => hne (heq.symm.trans hmarket)
  | failed lake now hpending he => exact ⟨fun other hne => ⟨Function.update_of_ne hne .., rfl⟩, fun _ _ => rfl⟩
  | called turn hcycle hpending =>
    exact ⟨fun other hne => ⟨Function.update_of_ne hne .., Function.update_of_ne hne ..⟩, fun _ _ => rfl⟩
  | written hpending =>
    rename_i w ws
    refine ⟨fun other hne => ⟨rfl, Function.update_of_ne hne ..⟩, fun market hne => ?_⟩
    apply FeedTables.view_write_of_ne
    rw [haddressed w (hpending ▸ List.mem_cons_self ..)]
    exact hne.symm

/-! ### A cycle that is alone -/

/-- The cycle and the store of its market. -/
def Held (d : Deployment) (s : Deployed) (name : CycleName) : Prop :=
  match s.cycles name with
  | none => s.pending name = [] ∧ s.tables.view (d.feed name).market = (none, fun _ => none)
  | some cycle => Placed (d.feed name) cycle.control ∧ cycle.snapshot.market = (d.feed name).market ∧
      ((s.pending name).foldl FeedTables.write s.tables).view (d.feed name).market =
        (some cycle.snapshot.record, cycle.sequences.get?)

theorem held_of_eq {s' : Deployed} (h : Held d s name) (hcycles : s'.cycles name = s.cycles name)
    (hpending : s'.pending name = s.pending name)
    (hview : s'.tables.view (d.feed name).market = s.tables.view (d.feed name).market) : Held d s' name := by
  unfold Held at h ⊢
  rw [hcycles, hpending]
  cases hcycle : s.cycles name with
  | none =>
    rw [hcycle] at h
    exact ⟨h.1, hview.trans h.2⟩
  | some cycle =>
    rw [hcycle] at h
    exact ⟨h.1, h.2.1, (FeedTables.view_foldl_congr hview _).trans h.2.2⟩

/-- **Built anew**, the cycle has what it had, and so does the store. -/
theorem held_start (h : Held d s name) (hpending : s.pending name = []) (lake : Lake) (now : Instant) :
    ∃ cycle, (d.feed name).create (s.tables.load (d.feed name).market) lake now = .ok cycle ∧
      (cycle.activeIndex ≠ 0 → cycle.failedOverAt ≠ none) ∧ (∀ old ∈ s.cycles name, cycle.GoesOn old) ∧
      Placed (d.feed name) cycle.control ∧ Stored (d.feed name) s.tables cycle := by
  have hstore := d.stateStore_feed name
  have hsequences : ∀ key, (s.tables.load (d.feed name).market).2.get? key = s.tables.last (d.feed name).market key :=
    fun key => s.tables.get?_sequences _ key
  have hstored : ∀ cycle, (d.feed name).create (s.tables.load (d.feed name).market) lake now = .ok cycle →
      Stored (d.feed name) s.tables cycle := by
    intro cycle hcycle
    obtain ⟨-, -, hmarket, -, hsaved, -⟩ := create_cases hcycle
    obtain ⟨hcycleSequences, hwrites⟩ := hsaved hstore
    constructor
    · exact hmarket
    · intro w hw
      rw [hwrites, List.mem_singleton] at hw
      rw [hw]
      exact hmarket
    · rw [hwrites]
      refine Prod.ext ((FeedTables.row_save ..).trans (if_pos hmarket.symm)) (funext fun key => ?_)
      rw [hcycleSequences]
      exact (hsequences key).symm
  unfold Held at h
  cases hold : s.cycles name with
  | none =>
    rw [hold] at h
    have hrow : (s.tables.load (d.feed name).market).1 = none := congrArg Prod.fst h.2
    have hstate : ∀ r ∈ (s.tables.load (d.feed name).market).1, ∃ state : FeedState, r.state = state.value := by
      rw [hrow]
      exact fun r hr => nomatch hr
    obtain ⟨cycle, hcycle⟩ := exists_create (d.feed name) lake now hstate
    obtain ⟨hindex, hplaced⟩ := placed_create hcycle hrow
    exact ⟨cycle, hcycle, fun hne => absurd hindex hne, (fun old hold => nomatch hold), hplaced, hstored cycle hcycle⟩
  | some old =>
    rw [hold, hpending] at h
    obtain ⟨hplaced, -, hview⟩ := h
    have hrow : (s.tables.load (d.feed name).market).1 = some old.snapshot.record := congrArg Prod.fst hview
    have hstate : ∀ r ∈ (s.tables.load (d.feed name).market).1, ∃ state : FeedState, r.state = state.value := by
      rw [hrow]
      rintro r ⟨⟩
      exact ⟨_, rfl⟩
    obtain ⟨cycle, hcycle⟩ := exists_create (d.feed name) lake now hstate
    obtain ⟨hgoesOn, hplaced'⟩ := goesOn_create hcycle hstore hplaced hrow fun key =>
      (hsequences key).trans (congrArg (fun view => view.2 key) hview)
    exact ⟨cycle, hcycle, hplaced'.since, fun old' hold' => Option.some.inj hold' ▸ hgoesOn, hplaced', hstored cycle hcycle⟩

/-- **An action** of a cycle that is alone. -/
theorem held_acted {s' : Deployed} (h : Held d s name) (hacted : Acted host reader d s name s')
    (haddressed : ∀ w ∈ s.pending name, w.market = (d.feed name).market) :
    Held d s' name ∧ ∀ w ∈ s'.pending name, w.market = (d.feed name).market := by
  cases hacted with
  | idle => exact ⟨h, haddressed⟩
  | started lake now hpending hcycle =>
    rename_i cycle
    obtain ⟨cycle', hcycle', -, -, hplaced, hstored⟩ := held_start h hpending lake now
    obtain rfl : cycle' = cycle := Except.ok.inj (hcycle'.symm.trans hcycle)
    refine ⟨?_, haddressed⟩
    unfold Held
    simp only [Function.update_self, hpending]
    exact ⟨hplaced, hstored.market, hstored.view⟩
  | failed lake now hpending he =>
    obtain ⟨cycle, hcycle, -⟩ := held_start h hpending lake now
    rw [he] at hcycle
    cases hcycle
  | called turn hcycle hpending =>
    rename_i cycle
    unfold Held at h
    rw [hcycle, hpending] at h
    obtain ⟨hplaced, hmarket, hview⟩ := h
    obtain ⟨c, hrecovers, htries⟩ := runOnce_control host reader (d.feed name) (cycle.begin turn)
    have hstored : Stored (d.feed name) s.tables (Effect.final (runOnce host reader (d.feed name) (cycle.begin turn))) :=
      (unchanged_stored (d.stateStore_feed name)).runOnce _ ⟨hmarket, (fun _ hw => nomatch hw), hview⟩
    have hplaced' : Placed (d.feed name) (Effect.final (runOnce host reader (d.feed name) (cycle.begin turn))).control :=
      Placed.call (c := cycle.control) hplaced hrecovers htries
    refine ⟨?_, ?_⟩
    · unfold Held
      simp only [Function.update_self]
      exact ⟨hplaced', hstored.market, hstored.view⟩
    · simp only [Function.update_self]
      exact hstored.writes
  | written hpending =>
    rename_i w ws
    refine ⟨?_, ?_⟩
    · unfold Held at h ⊢
      simp only [Function.update_self]
      rw [hpending] at h
      cases hcycle : s.cycles name with
      | none =>
        rw [hcycle] at h
        cases h.1
      | some cycle =>
        rw [hcycle] at h
        exact h
    · simp only [Function.update_self]
      intro w' hw'
      exact haddressed w' (hpending ▸ List.mem_cons_of_mem _ hw')

/-! ### The NSE with two cycles -/

/-- Nothing is said about a failover, in the store or by the cycles of the NSE. -/
structure CalmMarket (d : Deployment) (s : Deployed) : Prop where
  row : ∀ r ∈ s.tables.row .nse, CalmRecord r
  last : ∀ key, s.tables.last .nse key = none
  pending : ∀ name, (d.feed name).market = .nse → ∀ w ∈ s.pending name, ∃ r, w = .save r ∧ CalmRecord r
  cycles : ∀ name, (d.feed name).market = .nse → ∀ cycle ∈ s.cycles name, Calm cycle

/-- **Built anew**, the cycle is calm. -/
theorem calm_start (h : CalmMarket d s) (hd : d.trueData = false) (hmarket : (d.feed name).market = .nse) (lake : Lake)
    (now : Instant) :
    ∃ cycle, (d.feed name).create (s.tables.load (d.feed name).market) lake now = .ok cycle ∧ Calm cycle := by
  have hrow : ∀ r ∈ (s.tables.load (d.feed name).market).1, CalmRecord r := by
    rw [hmarket]
    exact h.row
  have hlast : ∀ key, (s.tables.load (d.feed name).market).2.get? key = none := by
    intro key
    rw [hmarket]
    exact (s.tables.get?_sequences _ key).trans (h.last key)
  obtain ⟨cycle, hcycle⟩ := exists_create (d.feed name) lake now fun r hr => (hrow r hr).state
  exact ⟨cycle, hcycle, calm_create hcycle (d.stateStore_feed name) hmarket (route_of_nse hd hmarket) hrow hlast⟩

/-- What a calm write leaves. -/
theorem CalmMarket.write {w : FeedWrite} {r : FeedStateRecord} (h : CalmMarket d s) (hw : w = .save r)
    (hr : CalmRecord r) :
    (∀ r ∈ (s.tables.write w).row .nse, CalmRecord r) ∧ ∀ key, (s.tables.write w).last .nse key = none := by
  subst hw
  constructor
  · intro r' hr'
    rw [FeedTables.row_save, if_pos hr.market.symm] at hr'
    rwa [← Option.some.inj hr']
  · exact h.last

theorem calm_acted {s' : Deployed} (h : CalmMarket d s) (hd : d.trueData = false) (hmarket : (d.feed name).market = .nse)
    (hacted : Acted host reader d s name s') : CalmMarket d s' := by
  have hsingle : ∀ {cycle : FeedCycle} other, (d.feed other).market = .nse → Calm cycle →
      ∀ cycle' ∈ Function.update s.cycles name (some cycle) other, Calm cycle' := by
    intro cycle other hother hcycle cycle' hcycle'
    rw [Function.update_apply] at hcycle'
    split_ifs at hcycle'
    · rwa [← Option.some.inj hcycle']
    · exact h.cycles other hother cycle' hcycle'
  cases hacted with
  | idle => exact h
  | started lake now hpending hcycle =>
    rename_i cycle
    obtain ⟨cycle', hcycle', hcalm⟩ := calm_start h hd hmarket lake now
    obtain rfl : cycle' = cycle := Except.ok.inj (hcycle'.symm.trans hcycle)
    obtain ⟨-, -, -, -, hstored, -⟩ := create_cases hcycle
    obtain ⟨-, hwrites⟩ := hstored (d.stateStore_feed name)
    obtain ⟨hrow, hlast⟩ := h.write rfl hcalm.snapshot
    refine ⟨?_, ?_, h.pending, fun other hother => hsingle other hother hcalm⟩
    · rw [hwrites]
      exact hrow
    · rw [hwrites]
      exact hlast
  | failed lake now hpending he =>
    obtain ⟨cycle, hcycle, -⟩ := calm_start h hd hmarket lake now
    rw [he] at hcycle
    cases hcycle
  | called turn hcycle hpending =>
    rename_i cycle
    have hbefore : Calm cycle := h.cycles name hmarket cycle hcycle
    have hcalm : Calm (Effect.final (runOnce host reader (d.feed name) (cycle.begin turn))) :=
      (unchanged_calm (route_of_nse hd hmarket)).runOnce _
        ⟨hbefore.activeIndex, hbefore.failedOverAt, hbefore.snapshot, hbefore.sequences, fun _ hw => nomatch hw⟩
    refine ⟨h.row, h.last, fun other hother w hw => ?_, fun other hother => hsingle other hother hcalm⟩
    dsimp only at hw
    rw [Function.update_apply] at hw
    split_ifs at hw
    · exact hcalm.writes w hw
    · exact h.pending other hother w hw
  | written hpending =>
    rename_i w ws
    obtain ⟨r, hw, hr⟩ := h.pending name hmarket w (hpending ▸ List.mem_cons_self ..)
    obtain ⟨hrow, hlast⟩ := h.write hw hr
    refine ⟨hrow, hlast, fun other hother w' hw' => ?_, h.cycles⟩
    dsimp only at hw'
    rw [Function.update_apply] at hw'
    split_ifs at hw' with heq
    · exact h.pending name hmarket w' (hpending ▸ List.mem_cons_of_mem _ hw')
    · exact h.pending other hother w' hw'

/-! ### Runs -/

/-- What holds in every state. -/
structure Sound (d : Deployment) (s : Deployed) : Prop where
  addressed : ∀ name, ∀ w ∈ s.pending name, w.market = (d.feed name).market
  held : ∀ name, Alone d name → Held d s name
  calm : d.indexFeed = true → CalmMarket d s

theorem sound_start (d : Deployment) : Sound d {} := by
  constructor
  · exact fun name w hw => nomatch hw
  · exact fun name _ => ⟨rfl, rfl⟩
  · intro _
    constructor
    · exact fun r hr => nomatch hr
    · exact fun key => rfl
    · exact fun name _ w hw => nomatch hw
    · exact fun name _ cycle hcycle => nomatch hcycle

/-- **A step**: a cycle that is built anew resumes. -/
theorem Sound.step (h : Sound d s) (hd : ¬ (d.trueData = true ∧ d.indexFeed = true)) (i : CycleName × FeedAction) :
    Resumes d s i ∧ Sound d ((deployed host reader d).step s i).1 := by
  obtain ⟨name, action⟩ := i
  show _ ∧ Sound d (if d.Enabled name then s.act host reader d name action else s)
  by_cases hname : d.Enabled name
  · rw [if_pos hname]
    have hacted := acted host reader d s name action
    obtain ⟨hframe, hview⟩ := acted_frame hacted (h.addressed name)
    have hprimary : d.indexFeed = true → d.trueData = false := fun hindex =>
      Bool.eq_false_iff.mpr fun htrue => hd ⟨htrue, hindex⟩
    refine ⟨?_, ?_, ?_, ?_⟩
    · cases action with
      | start lake now =>
        intro _ hpending
        rcases alone_or hname with halone | ⟨hindex, hmarket⟩
        · obtain ⟨cycle, hcycle, hsince, hgoesOn, -⟩ := held_start (h.held name halone) hpending lake now
          exact ⟨cycle, hcycle, hsince, hgoesOn⟩
        · obtain ⟨cycle, hcycle, hcalm⟩ := calm_start (h.calm hindex) (hprimary hindex) hmarket lake now
          refine ⟨cycle, hcycle, fun hne => absurd hcalm.activeIndex hne, fun old hold => ?_⟩
          have hold' := (h.calm hindex).cycles name hmarket old hold
          constructor
          · rw [hcalm.activeIndex, hold'.activeIndex]
          · rw [hcalm.failedOverAt, hold'.failedOverAt]
          · exact hcalm.snapshot.failoverCount.trans hold'.snapshot.failoverCount.symm
          · intro key
            rw [hcalm.sequences, hold'.sequences]
      | call turn => trivial
      | write => trivial
    · intro other
      by_cases hne : other = name
      · subst hne
        rcases alone_or hname with halone | ⟨hindex, hmarket⟩
        · exact (held_acted (h.held other halone) hacted (h.addressed other)).2
        · intro w hw
          obtain ⟨r, rfl, hr⟩ := (calm_acted (h.calm hindex) (hprimary hindex) hmarket hacted).pending other hmarket w hw
          exact hr.market.trans hmarket.symm
      · rw [(hframe other hne).2]
        exact h.addressed other
    · intro other halone
      by_cases hne : other = name
      · subst hne
        exact (held_acted (h.held other halone) hacted (h.addressed other)).1
      · refine held_of_eq (h.held other halone) (hframe other hne).1 (hframe other hne).2 (hview _ fun heq => ?_)
        exact hne (halone name hname heq.symm).symm
    · intro hindex
      have hcalm := h.calm hindex
      by_cases hmarket : (d.feed name).market = .nse
      · exact calm_acted hcalm (hprimary hindex) hmarket hacted
      · have hsame := hview .nse fun heq => hmarket heq.symm
        have hother : ∀ other, (d.feed other).market = .nse → other ≠ name := by
          rintro other hother rfl
          exact hmarket hother
        constructor
        · intro r hr
          exact hcalm.row r ((congrArg Prod.fst hsame).symm.trans hr)
        · intro key
          exact (congrArg (fun view => view.2 key) hsame).trans (hcalm.last key)
        · intro other hnse
          rw [(hframe other (hother other hnse)).2]
          exact hcalm.pending other hnse
        · intro other hnse
          rw [(hframe other (hother other hnse)).1]
          exact hcalm.cycles other hnse
  · rw [if_neg hname]
    refine ⟨?_, h⟩
    cases action with
    | start lake now => exact fun hname' => absurd hname' hname
    | call turn => trivial
    | write => trivial

/-- The NSE cycle is built, the index cycle, and the NSE cycle anew. -/
def restarted : List (CycleName × FeedAction) :=
  [(.nse, .start {} 0), (.index, .start {} 0), (.nse, .start {} 0)]

/-- With the index cycle, the NSE cycle starts on its fallback. -/
theorem not_resumes (host : Host) (reader : Reader) (hd : d.trueData = true ∧ d.indexFeed = true) :
    ¬ (deployed host reader d).Along (Resumes d) {} restarted := by
  obtain ⟨trueData, indexFeed, dhanIdToCanonical, nseBars, indexBars⟩ := d
  obtain ⟨rfl, rfl⟩ := hd
  rintro ⟨-, -, h, -⟩
  obtain ⟨cycle, hcycle, hsince, -⟩ := h (fun hne => nomatch hne) rfl
  obtain ⟨-, -, -, -, -, ⟨-, -, hfresh⟩ | ⟨r, hr, -, hindex, hfailed, -⟩⟩ := create_cases hcycle
  · have hmem : Provider.dhan ∈ [Provider.truedata, Provider.dhan] := by decide
    exact hfresh rfl _ rfl hmem
  · cases hr
    have hfallback : [Provider.truedata, Provider.dhan].idxOf Provider.dhan ≠ 0 := by decide
    exact hsince (hindex.trans_ne hfallback) hfailed

variable (host reader d) in
/-- **Restarts**: a cycle that is built anew resumes with what it had, in every run of the cycles, exactly if it is not so
that the index cycle is there and the NSE cycle has a fallback. -/
theorem resumes_iff :
    (∀ run, (deployed host reader d).Along (Resumes d) {} run) ↔ ¬ (d.trueData = true ∧ d.indexFeed = true) := by
  constructor
  · exact fun h hd => not_resumes host reader hd (h restarted)
  · intro hd run
    refine Machine.along_of_invariant (C := fun _ _ => True) (fun s i hs _ => hs.step hd i) (sound_start d) ?_
    exact Machine.along_of_forall (fun _ _ => trivial) _

end Runs

namespace Sample

/-- TrueData is configured, and the index feed enabled. -/
def fullDeployment : Deployment where
  trueData := true
  indexFeed := true
  dhanIdToCanonical := Dict.empty.set "1333" "HDFCBANK"
  nseBars := .minute
  indexBars := .minute

end Sample

/-- The row of the index cycle is taken for the one of the NSE cycle. -/
theorem index_row_taken :
    ¬ ∀ run, (deployed .cpython .plain Sample.fullDeployment).Along (Resumes Sample.fullDeployment) {} run :=
  fun h => not_resumes .cpython .plain ⟨rfl, rfl⟩ (h restarted)

end NanoDelta.Runtime
