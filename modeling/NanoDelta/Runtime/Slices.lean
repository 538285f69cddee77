import NanoDelta.Runtime.Staleness

/-!
# Slices of a steady stream

At the end of `_consume`, the time that the whole slice took is compared with `staleness_seconds`, which the wait for each
frame is limited by as well.

* `Steady`: the loop reads frames, and no quote comes later than that after the quote before it, or the start.
* `slice_iff`: a call of `run_once` takes such a slice exactly if all of it is there in that time. `slow_quotes`: two
  quotes, twenty seconds apart, in a slice of two.
-/

namespace NanoDelta.Runtime

open Library

section Slices

variable (host : Host) (reader : Reader) (feed : RealtimeFeed) (provider : Provider) (target : ℕ) (persist : Bool)

/-- The loop reads these frames up to its target, and each quote is there in time after the one before it, or the start. -/
def Steady : Reading → List Arrival → Prop
  | r, [] => r.count = target
  | r, arrival :: arrivals =>
    match r.next host reader feed provider target persist arrival with
    | none => False
    | some r₁ => r₁.since ≤ r.since + feed.staleness ∧ Steady r₁ arrivals

instance Steady.decidable :
    ∀ r arrivals, Decidable (Steady host reader feed provider target persist r arrivals)
  | r, [] => inferInstanceAs (Decidable (r.count = target))
  | r, arrival :: arrivals => by
    unfold Steady
    exact match r.next host reader feed provider target persist arrival with
      | none => inferInstanceAs (Decidable False)
      | some r₁ => @instDecidableAnd _ _ (Int.decLe _ _) (Steady.decidable r₁ arrivals)

/-- What the loop starts from. -/
def FeedCycle.reading (s : FeedCycle) : Reading := { since := s.now, now := s.now, data := s.data }

/-- The time at which the last of some frames is read. -/
def timeAfter (now : Instant) (arrivals : List Arrival) : Instant := arrivals.foldl (fun now a => max now a.time) now

/-- The cycle when `run_once` begins to consume the active provider. -/
def FeedCycle.recovered (s : FeedCycle) : FeedCycle := Effect.final (recoverPrimary host reader feed s)

variable {host reader feed provider target persist} {observe : Bool}

theorem timeAfter_le_iff {now limit : Instant} {arrivals : List Arrival} :
    timeAfter now arrivals ≤ limit ↔ now ≤ limit ∧ ∀ a ∈ arrivals, a.time ≤ limit := by
  unfold timeAfter
  induction arrivals generalizing now with
  | nil => simp
  | cons a arrivals ih =>
    rw [List.foldl_cons, ih, max_le_iff, List.forall_mem_cons, and_assoc]

variable (observe) in
/-- **The loop** over a steady stream reads it to the target. -/
theorem consumeLoop_steady {r : Reading} {arrivals : List Arrival}
    (h : Steady host reader feed provider target persist r arrivals) {s : FeedCycle} (hnow : s.now = r.now)
    (hdata : s.data = r.data) (rest : List Arrival) :
    ∃ s', consumeLoop host reader feed provider target persist observe (arrivals ++ rest) r.count r.cleanReconnects s =
        .ok target s' ∧ s'.now = timeAfter r.now arrivals := by
  induction arrivals generalizing r s with
  | nil =>
    have hcount : r.count = target := h
    rw [consumeLoop_done hcount.ge, hcount]
    exact ⟨s, rfl, hnow⟩
  | cons arrival arrivals ih =>
    unfold Steady at h
    cases hnext : r.next host reader feed provider target persist arrival with
    | none =>
      rw [hnext] at h
      exact h.elim
    | some r₁ =>
      rw [hnext] at h
      obtain ⟨_, s₁, hrun, hnow₁, hdata₁, -, -, hr₁, -⟩ := consumeLoop_next hnow hdata hnext (arrivals ++ rest)
      obtain ⟨s', hs', hnow'⟩ := ih h.2 hnow₁ hdata₁
      refine ⟨s', hrun.trans hs', ?_⟩
      rw [hnow', hr₁]
      rfl

variable (observe) in
/-- `_consume` opens the stream and reads it to the target. Then it looks at the time. -/
theorem consume_steady (limit : Option ℕ) {s : FeedCycle} {arrivals rest : List Arrival}
    (hopen : provider ∈ s.iterators ∨ feed.channels.get? provider ≠ none) (hfeeds : s.feeds provider = arrivals ++ rest)
    (h : Steady host reader feed provider (feed.target limit) persist s.reading arrivals)
    (hpos : feed.target limit ≠ 0) :
    ∃ s', s'.now = timeAfter s.now arrivals ∧
      consume host reader feed provider limit persist observe s =
        if timeAfter s.now arrivals ≤ s.now + feed.staleness then .ok (feed.target limit) s'
        else .error (.timeoutError (provider.value ++ " realtime stream is stale")) s' := by
  have hiterator : ∃ s₁, openIterator feed provider s = .ok ⟨⟩ s₁ ∧ s₁.now = s.now ∧ s₁.data = s.data ∧
      s₁.feeds = s.feeds := by
    rw [openIterator, Effect.bind_of_ok (Effect.get_apply s)]
    by_cases hmem : provider ∈ s.iterators
    · rw [if_pos hmem]
      exact ⟨s, rfl, rfl, rfl, rfl⟩
    · obtain ⟨channel, hchannel⟩ := Option.ne_none_iff_exists'.mp (hopen.resolve_left hmem)
      rw [if_neg hmem, openProvider, hchannel]
      exact ⟨_, rfl, now_replaceSnapshot .., data_replaceSnapshot .., feeds_saveSnapshot _⟩
  obtain ⟨s₁, hs₁, hnow₁, hdata₁, hfeeds₁⟩ := hiterator
  have hloop : ∃ s', consumeLoop host reader feed provider (feed.target limit) persist observe (arrivals ++ rest) 0 0 s₁ =
      .ok (feed.target limit) s' ∧ s'.now = timeAfter s.now arrivals :=
    consumeLoop_steady observe h hnow₁ hdata₁ rest
  obtain ⟨s', hs', hnow'⟩ := hloop
  have hslice : consumeSlice host reader feed provider (feed.target limit) persist observe s₁ =
      .ok (feed.target limit) s' := by
    rw [consumeSlice, Effect.bind_of_ok (Effect.get_apply s₁), Effect.tryCatch_apply, hfeeds₁, hfeeds, hs']
  refine ⟨s', hnow', ?_⟩
  rw [consume, Effect.bind_of_ok (Effect.get_apply s), Effect.bind_of_ok hs₁, Effect.bind_of_ok hslice,
    Effect.bind_of_ok (Effect.get_apply s'), hnow']
  by_cases hle : timeAfter s.now arrivals ≤ s.now + feed.staleness
  · rw [if_pos hle, if_neg]
    · rfl
    · rintro (hzero | hlt)
      · exact hpos hzero
      · linarith
  · rw [if_neg hle, if_pos]
    · rfl
    · exact Or.inr (by linarith)

variable (host reader feed) in
/-- **A steady slice**: `run_once` consumes the active provider and stays with it, exactly if all of the slice is there
within `staleness_seconds`. -/
theorem slice_iff (s : FeedCycle) {arrivals rest : List Arrival}
    (hprovider : feed.route[(s.recovered host reader feed).activeIndex]? = some provider)
    (hopen : provider ∈ (s.recovered host reader feed).iterators ∨ feed.channels.get? provider ≠ none)
    (hfeeds : (s.recovered host reader feed).feeds provider = arrivals ++ rest)
    (hsteady : Steady host reader feed provider feed.maxEvents true (s.recovered host reader feed).reading arrivals) :
    ((∃ s', consume host reader feed provider none true true (s.recovered host reader feed) =
        .ok feed.maxEvents s') ∧
      ∃ s', runOnce host reader feed s = .ok feed.maxEvents s' ∧
        s'.control = (s.recovered host reader feed).control.consumed s'.now provider
          (s.recovered host reader feed).activeIndex) ↔
      ∀ arrival ∈ arrivals, arrival.time ≤ (s.recovered host reader feed).now + feed.staleness := by
  have hpos : 0 < feed.staleness := feed.limits.2.1
  have hrecover : recoverPrimary host reader feed s = .ok ⟨⟩ (s.recovered host reader feed) := by
    have hends : Effect.Ends (recoverPrimary host reader feed) s _ _ := recoverPrimary_control s
    unfold Effect.Ends at hends
    unfold FeedCycle.recovered
    cases hrun : recoverPrimary host reader feed s with
    | ok _ s' => rfl
    | error e s' =>
      rw [hrun] at hends
      exact hends.elim
  generalize s.recovered host reader feed = s₁ at *
  obtain ⟨s₂, hnow₂, hconsume⟩ := consume_steady true none hopen hfeeds hsteady feed.limits.1.ne'
  have htime : timeAfter s₁.now arrivals ≤ s₁.now + feed.staleness ↔
      ∀ arrival ∈ arrivals, arrival.time ≤ s₁.now + feed.staleness := by
    rw [timeAfter_le_iff]
    exact and_iff_right (le_add_of_nonneg_right hpos.le)
  rw [← htime]
  constructor
  · rintro ⟨⟨s', hs'⟩, -⟩
    by_contra hlate
    rw [hconsume, if_neg hlate] at hs'
    cases hs'
  · intro hle
    rw [if_pos hle] at hconsume
    refine ⟨⟨s₂, hconsume⟩, s₂.consumed feed provider s₁.activeIndex, ?_, ?_⟩
    · obtain ⟨hindex, hget⟩ := List.getElem?_eq_some_iff.mp hprovider
      rw [runOnce, Effect.bind_of_ok hrecover, Effect.bind_of_ok (Effect.get_apply s₁), List.drop_eq_getElem_cons hindex,
        hget, tryProviders, Effect.tryCatch_apply, Effect.bind_of_ok hconsume, Effect.bind_of_ok (Effect.modify_apply _ _)]
      rfl
    · have hcontrol : Effect.Ends (consume host reader feed _ _ _ _) _ _ _ := consume_control provider none true true s₁
      unfold Effect.Ends at hcontrol
      rw [hconsume] at hcontrol
      obtain ⟨active, -, hactive⟩ := hcontrol
      have hnow : (s₂.consumed feed provider s₁.activeIndex).now = s₂.now := now_replaceSnapshot ..
      rw [hnow, FeedCycle.consumed, FeedCycle.replaceSnapshot, control_saveSnapshot]
      exact congrArg (fun c => c.consumed s₂.now provider s₁.activeIndex) hactive

end Slices

/-! ### Slow quotes -/

namespace Sample

/-- The cycle with slices of two quotes. -/
def pairFeed : RealtimeFeed := { dhanFeed with maxEvents := 2, limits := by decide }

/-- A quote of a Dhan stream, some seconds after noon. -/
def trade (second : ℤ) : Arrival :=
  packet second 4
    [("ltp", .num 1650), ("last_trade_quantity", .num 10), ("last_trade_time", .num (1786708800 + second))]

/-- The cycle at noon, with two quotes. -/
def trading (first second : ℤ) : FeedCycle where
  data := CycleState.start pairFeed.toRealtimeMarketCycle
  snapshot := pairFeed.fresh (seconds 1786708800)
  now := seconds 1786708800
  feeds _ := [trade first, trade second]

end Sample

/-- Quotes after ten and after twenty seconds are a slice that is in time. -/
theorem slice_iff_quick :
    ((∃ s', consume .cpython .plain Sample.pairFeed .dhan none true true (Sample.trading 10 20) = .ok 2 s') ∧
      ∃ s', runOnce .cpython .plain Sample.pairFeed (Sample.trading 10 20) = .ok 2 s' ∧
        s'.control = (Sample.trading 10 20).control.consumed s'.now .dhan 0) ↔
      ∀ arrival ∈ [Sample.trade 10, Sample.trade 20], arrival.time ≤ (Sample.trading 10 20).now + seconds 30 :=
  slice_iff .cpython .plain Sample.pairFeed (Sample.trading 10 20) rfl (Or.inr (by decide))
    (List.append_nil [Sample.trade 10, Sample.trade 20]).symm
    (by decide +kernel)

/-- Two quotes that are each twenty seconds after what was before make the only provider stale. -/
theorem slow_quotes :
    Steady .cpython .plain Sample.pairFeed .dhan 2 true (Sample.trading 20 40).reading
        [Sample.trade 20, Sample.trade 40] ∧
      ¬ (∃ s', consume .cpython .plain Sample.pairFeed .dhan none true true (Sample.trading 20 40) = .ok 2 s') ∧
      (Effect.final (runOnce .cpython .plain Sample.pairFeed (Sample.trading 20 40))).snapshot.state = .degraded := by
  refine ⟨by decide +kernel, ?_, by decide +kernel⟩
  have hnone : Effect.returned (consume .cpython .plain Sample.pairFeed .dhan none true true (Sample.trading 20 40)) =
      none := by
    decide +kernel
  intro h
  rw [Effect.returned_eq_some.mpr h] at hnone
  cases hnone

end NanoDelta.Runtime
