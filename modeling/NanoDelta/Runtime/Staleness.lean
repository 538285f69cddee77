import Mathlib.Tactic.Linarith
import NanoDelta.Runtime.Hysteresis

/-!
# Streams without quotes

`_consume` waits for each frame for `staleness_seconds`, whatever the frame before it was.

* `Lively`: at no time was the last quote, or the start, longer ago than that while the loop was waiting.
* `Prompt`: what the frames have to be like: after one that is not a quote, another one comes in the time that is left.
* `lively_iff`: the one holds exactly if the other does. `packets_without_price`: a packet every twenty seconds, the
  third of them is the first quote.
-/

namespace NanoDelta.Runtime

open Library

/-- From the last quote or the start on, to the next frame and at last to the end, at most this time passes. With the
times of the frames, and whether they are quotes. -/
def Lively (limit : Instant) : Instant → List (Instant × Bool) → Instant → Prop
  | since, [], stop => stop ≤ since + limit
  | since, frame :: frames, stop =>
    frame.1 ≤ since + limit ∧ Lively limit (if frame.2 then frame.1 else since) frames stop

instance Lively.decidable (limit : Instant) : ∀ since frames stop, Decidable (Lively limit since frames stop)
  | since, [], stop => inferInstanceAs (Decidable (stop ≤ since + limit))
  | since, frame :: frames, stop =>
    @instDecidableAnd _ _ _ (Lively.decidable limit (if frame.2 then frame.1 else since) frames stop)

/-- Where the loop is when it waits for a frame: the time of the last quote or of its start, the time, the quotes and
the ends of the stream so far, and the data of the cycle. -/
structure Reading where
  since : Instant
  now : Instant
  count : ℕ := 0
  cleanReconnects : ℕ := 0
  data : CycleState

section Schedule

variable (host : Host) (reader : Reader) (feed : RealtimeFeed) (provider : Provider) (target : ℕ) (persist : Bool)

/-- The data after a quote is stored, if nothing raises. -/
def storeQuote (now : Instant) (quote : QuoteEvent) (data : CycleState) : Option CycleState :=
  if persist then
    match persistQuoteAndSettled host reader feed.toRealtimeMarketCycle now quote data with
    | .error _ _ => none
    | .ok _ data => some data
  else some data

/-- After a frame, if the loop reads it and goes on. -/
def Reading.next (r : Reading) (arrival : Arrival) : Option Reading :=
  if target ≤ r.count ∨ r.now + feed.staleness < arrival.time then none
  else
    let now := max r.now arrival.time
    match arrival.frame with
    | .raised _ => none
    | .ended =>
      if 1 ≤ r.cleanReconnects ∨ feed.channels.get? provider = none then none
      else some { r with now := now, cleanReconnects := r.cleanReconnects + 1 }
    | .payload payload =>
      match feed.quoteOf reader provider payload now with
      | .error _ => none
      | .ok none => some { r with now := now }
      | .ok (some quote) => (storeQuote host reader feed persist now quote r.data).map fun data =>
          { r with since := now, now := now, count := r.count + 1, data := data }

/-- Wherever the loop waits after a frame that is not a quote, the next frame is there before the last quote, or the
start, is too long ago. -/
def InTime (r : Reading) (arrivals : List Arrival) : Prop :=
  ∀ read rest r', arrivals = read ++ rest →
    read.foldlM (Reading.next host reader feed provider target persist) r = some r' → r'.count < target →
      r'.now = r'.since ∨ ∃ arrival ∈ rest.head?, arrival.time ≤ r'.since + feed.staleness

/-- The frames that are to arrive come in time, if the stream can be opened. -/
def Prompt (s : FeedCycle) : Prop :=
  provider ∈ s.iterators ∨ feed.channels.get? provider ≠ none →
    InTime host reader feed provider target persist { since := s.now, now := s.now, data := s.data } (s.feeds provider)

end Schedule

section Loop

variable {host : Host} {reader : Reader} {feed : RealtimeFeed} {provider : Provider} {target : ℕ}
  {persist observe : Bool} {r r₁ : Reading} {arrival : Arrival} {rest : List Arrival}

/-- The loop has read enough. -/
theorem inTime_of_le (h : target ≤ r.count) (arrivals : List Arrival) :
    InTime host reader feed provider target persist r arrivals := by
  intro read rest r' _ hread hcount
  cases read with
  | nil =>
    cases hread
    exact absurd h (not_le.mpr hcount)
  | cons arrival read =>
    rw [List.foldlM_cons, Reading.next, if_pos (Or.inl h)] at hread
    cases hread

/-- Nothing arrives any more. -/
theorem inTime_nil (h : r.count < target) :
    InTime host reader feed provider target persist r [] ↔ r.now = r.since := by
  constructor
  · intro hin
    rcases hin [] [] r rfl rfl h with heq | ⟨arrival, harrival, -⟩
    · exact heq
    · cases harrival
  · rintro heq read rest r' hsplit hread -
    obtain ⟨rfl, rfl⟩ := List.append_eq_nil_iff.mp hsplit.symm
    cases hread
    exact Or.inl heq

/-- The next frame, and what comes after it if the loop goes on. -/
theorem inTime_cons (h : r.count < target) :
    InTime host reader feed provider target persist r (arrival :: rest) ↔
      (r.now = r.since ∨ arrival.time ≤ r.since + feed.staleness) ∧
        ∀ r₁ ∈ r.next host reader feed provider target persist arrival,
          InTime host reader feed provider target persist r₁ rest := by
  constructor
  · intro hin
    refine ⟨?_, fun r₁ hr₁ read rest' r' hsplit hread => ?_⟩
    · rcases hin [] (arrival :: rest) r rfl rfl h with heq | ⟨a, ha, hle⟩
      · exact Or.inl heq
      · cases ha
        exact Or.inr hle
    · refine hin (arrival :: read) rest' r' (congrArg _ hsplit) ?_
      rw [List.foldlM_cons, Option.mem_def.mp hr₁]
      exact hread
  · rintro ⟨hfirst, hrest⟩ read rest' r' hsplit hread hcount
    cases read with
    | nil =>
      cases hread
      rw [List.nil_append] at hsplit
      subst hsplit
      exact hfirst.imp_right fun hle => ⟨arrival, rfl, hle⟩
    | cons a read =>
      obtain ⟨rfl, hsplit'⟩ := List.cons.inj hsplit
      rw [List.foldlM_cons] at hread
      obtain ⟨r₁, hr₁, hread⟩ := Option.bind_eq_some_iff.mp hread
      exact hrest r₁ hr₁ read rest' r' hsplit' hread hcount

/-! ### The loop -/

theorem waitFor_of_le {s : FeedCycle} (h : arrival.time ≤ s.now + feed.staleness) :
    waitFor feed provider arrival rest s = .ok ⟨⟩
      { s with now := max s.now arrival.time, feeds := Function.update s.feeds provider rest } := by
  rw [waitFor, Effect.bind_of_ok (Effect.get_apply s), if_pos h]
  rfl

theorem waitFor_of_lt {s : FeedCycle} (h : s.now + feed.staleness < arrival.time) :
    waitFor feed provider arrival rest s = .error (.timeoutError "") { s with now := s.now + feed.staleness } := by
  rw [waitFor, Effect.bind_of_ok (Effect.get_apply s), if_neg (not_le.mpr h)]
  rfl

/-- What of the cycle the loop goes by. -/
def FeedCycle.pace (s : FeedCycle) : Instant × List (Instant × Bool) × CycleState := (s.now, s.heard, s.data)

theorem of_pace {s s' : FeedCycle} (h : s.pace = s'.pace) : s.now = s'.now ∧ s.heard = s'.heard ∧ s.data = s'.data := by
  simpa [FeedCycle.pace] using h

theorem pace_saveSnapshot (s : FeedCycle) : (s.saveSnapshot feed).pace = s.pace := by
  obtain ⟨writes, heq⟩ := saveSnapshot_eq feed s
  rw [heq]
  rfl

theorem feeds_saveSnapshot (s : FeedCycle) : (s.saveSnapshot feed).feeds = s.feeds := by
  obtain ⟨writes, heq⟩ := saveSnapshot_eq feed s
  rw [heq]

@[simp] theorem now_replaceSnapshot (s : FeedCycle) (snapshot : StreamSnapshot) :
    (s.replaceSnapshot feed snapshot).now = s.now := congrArg Prod.fst (pace_saveSnapshot _)

@[simp] theorem heard_replaceSnapshot (s : FeedCycle) (snapshot : StreamSnapshot) :
    (s.replaceSnapshot feed snapshot).heard = s.heard := congrArg (fun pace => pace.2.1) (pace_saveSnapshot _)

@[simp] theorem data_replaceSnapshot (s : FeedCycle) (snapshot : StreamSnapshot) :
    (s.replaceSnapshot feed snapshot).data = s.data := congrArg (fun pace => pace.2.2) (pace_saveSnapshot _)

variable (feed) in
theorem pace_trackSequence (s : FeedCycle) (quote : QuoteEvent) : (s.trackSequence feed quote).pace = s.pace := by
  unfold FeedCycle.trackSequence
  cases quote.sequence with
  | none => rfl
  | some sequence =>
    dsimp only
    rw [pace_saveSnapshot]
    split_ifs <;> rfl

variable (host reader feed provider persist observe) in
/-- **Taking a quote** takes no time, and raises if storing it does. -/
theorem takeQuote_ends (s : FeedCycle) (quote : QuoteEvent) :
    Effect.Ends (takeQuote host reader feed provider persist observe quote) s
      (fun _ s' => s'.now = s.now ∧ s'.heard = s.heard ∧
        storeQuote host reader feed persist s.now quote s.data = some s'.data)
      fun _ s' => s'.now = s.now ∧ s'.heard = s.heard ∧
        storeQuote host reader feed persist s.now quote s.data = none := by
  have hstore : ∀ s₁ : FeedCycle, s₁.pace = s.pace → Effect.Ends (persistQuote host reader feed quote) s₁
      (fun _ s' => s'.now = s.now ∧ s'.heard = s.heard ∧
        storeQuote host reader feed true s.now quote s.data = some s'.data)
      fun _ s' => s'.now = s.now ∧ s'.heard = s.heard ∧
        storeQuote host reader feed true s.now quote s.data = none := by
    intro s₁ hpace
    obtain ⟨hnow, hheard, hdata⟩ := of_pace hpace
    refine Effect.Ends.bind (Effect.ends_of_eq_ok (Effect.get_apply s₁) ?_)
    unfold Effect.Ends Effect.focus storeQuote
    rw [hnow]
    dsimp only
    rw [hdata, if_pos rfl]
    cases persistQuoteAndSettled host reader feed.toRealtimeMarketCycle s.now quote s.data with
    | ok _ data => exact ⟨hnow, hheard, rfl⟩
    | error e data => exact ⟨hnow, hheard, rfl⟩
  have hshow : ∀ s₁ : FeedCycle, (s₁.now = s.now ∧ s₁.heard = s.heard ∧
      storeQuote host reader feed persist s.now quote s.data = some s₁.data) → ∀ snapshot,
      (s₁.replaceSnapshot feed snapshot).now = s.now ∧ (s₁.replaceSnapshot feed snapshot).heard = s.heard ∧
        storeQuote host reader feed persist s.now quote s.data = some (s₁.replaceSnapshot feed snapshot).data := by
    intro s₁ hs₁ snapshot
    rwa [now_replaceSnapshot, heard_replaceSnapshot, data_replaceSnapshot]
  have htrack := pace_trackSequence feed s quote
  unfold takeQuote
  cases observe <;> cases persist
  · exact ⟨rfl, rfl, rfl⟩
  · exact Effect.Ends.bind ((hstore s rfl).mono (fun _ _ h => h) fun _ _ h => h)
  · refine Effect.Ends.bind (Effect.ends_of_eq_ok (Effect.modify_apply _ s) ?_)
    obtain ⟨hnow, hheard, hdata⟩ := of_pace htrack
    exact hshow _ ⟨hnow, hheard, congrArg some hdata.symm⟩ _
  · refine Effect.Ends.bind (Effect.ends_of_eq_ok (Effect.modify_apply _ s) ?_)
    refine Effect.Ends.bind ((hstore _ htrack).mono ?_ fun _ _ h => h)
    exact fun _ s₁ hs₁ => hshow s₁ hs₁ _

/-- The loop has read enough. -/
theorem consumeLoop_done {count : ℕ} (h : target ≤ count) (arrivals : List Arrival) (cleanReconnects : ℕ)
    (s : FeedCycle) :
    consumeLoop host reader feed provider target persist observe arrivals count cleanReconnects s = .ok count s := by
  cases arrivals with
  | nil =>
    rw [consumeLoop, if_pos h]
    rfl
  | cons arrival rest =>
    rw [consumeLoop, if_pos h]
    rfl

/-- **A frame that the loop reads** and goes on: it is where the reading is. -/
theorem consumeLoop_next {s : FeedCycle} (hnow : s.now = r.now) (hdata : s.data = r.data)
    (hnext : r.next host reader feed provider target persist arrival = some r₁) (rest : List Arrival) :
    ∃ isQuote s₁,
      consumeLoop host reader feed provider target persist observe (arrival :: rest) r.count r.cleanReconnects s =
        consumeLoop host reader feed provider target persist observe rest r₁.count r₁.cleanReconnects s₁ ∧
      s₁.now = r₁.now ∧ s₁.data = r₁.data ∧ s₁.heard = s.heard ++ [(r₁.now, isQuote)] ∧
      arrival.time ≤ r.now + feed.staleness ∧ r₁.now = max r.now arrival.time ∧
      r₁.since = if isQuote then r₁.now else r.since := by
  unfold Reading.next at hnext
  have hread : ¬ (target ≤ r.count ∨ r.now + feed.staleness < arrival.time) := by
    intro h
    rw [if_pos h] at hnext
    cases hnext
  rw [if_neg hread] at hnext
  obtain ⟨hcount, hle⟩ := not_or.mp hread
  rw [not_lt] at hle
  rw [consumeLoop, if_neg hcount, Effect.bind_of_ok (waitFor_of_le (hnow ▸ hle)), hnow]
  cases hframe : arrival.frame with
  | raised message =>
    rw [hframe] at hnext
    cases hnext
  | ended =>
    rw [hframe] at hnext
    dsimp only at hnext ⊢
    split_ifs at hnext with hended
    obtain ⟨hfirst, hchannel⟩ := not_or.mp hended
    obtain ⟨channel, hchannel⟩ := Option.ne_none_iff_exists'.mp hchannel
    cases hnext
    rw [hear, Effect.bind_of_ok (Effect.modify_apply _ _), Effect.bind_of_ok (Effect.modify_apply _ _), if_neg hfirst,
      openProvider, hchannel]
    dsimp only
    rw [Effect.bind_of_ok (Effect.modify_apply _ _)]
    exact ⟨false, _, rfl, now_replaceSnapshot .., (data_replaceSnapshot ..).trans hdata, heard_replaceSnapshot .., hle,
      rfl, rfl⟩
  | payload payload =>
    rw [hframe] at hnext
    dsimp only at hnext ⊢
    rw [Effect.bind_of_ok (Effect.get_apply _)]
    cases hquote : feed.quoteOf reader provider payload (max r.now arrival.time) with
    | error e =>
      rw [hquote] at hnext
      cases hnext
    | ok quote =>
      rw [hquote] at hnext
      rw [Effect.ofExcept_ok, Effect.bind_of_ok (Effect.pure_apply _ _), hear, Effect.bind_of_ok (Effect.modify_apply _ _)]
      cases quote with
      | none =>
        cases hnext
        exact ⟨false, _, rfl, rfl, hdata, rfl, hle, rfl, rfl⟩
      | some quote =>
        obtain ⟨data, hstore, rfl⟩ := Option.map_eq_some_iff.mp hnext
        have htake := takeQuote_ends host reader feed provider persist observe { s with
          now := max r.now arrival.time, feeds := Function.update s.feeds provider rest
          heard := s.heard ++ [(max r.now arrival.time, (some quote).isSome)] } quote
        unfold Effect.Ends at htake
        dsimp only at htake ⊢
        rw [Effect.bind_apply]
        generalize takeQuote host reader feed provider persist observe quote _ = result at htake ⊢
        rw [hdata, hstore] at htake
        cases result with
        | error e s' => exact absurd htake.2.2 (by simp)
        | ok _ s' =>
          obtain ⟨hnow', hheard', hdata'⟩ := htake
          exact ⟨true, s', rfl, hnow', (Option.some.inj hdata').symm, hheard', hle, rfl, rfl⟩

/-- **A frame at which the loop stops**: it comes too late, or it is read and something raises. -/
theorem consumeLoop_stop {s : FeedCycle} (hnow : s.now = r.now) (hdata : s.data = r.data) (hcount : r.count < target)
    (hnext : r.next host reader feed provider target persist arrival = none) (rest : List Arrival) :
    ∃ e s', consumeLoop host reader feed provider target persist observe (arrival :: rest) r.count r.cleanReconnects s =
        .error e s' ∧
      (r.now + feed.staleness < arrival.time ∧ s'.now = r.now + feed.staleness ∧ s'.heard = s.heard ∨
        arrival.time ≤ r.now + feed.staleness ∧ s'.now = max r.now arrival.time ∧
          (s'.heard = s.heard ∨ ∃ isQuote, s'.heard = s.heard ++ [(max r.now arrival.time, isQuote)])) := by
  rw [consumeLoop, if_neg (not_le.mpr hcount)]
  rcases lt_or_ge (r.now + feed.staleness) arrival.time with hlt | hle
  · rw [Effect.bind_of_error (waitFor_of_lt (hnow ▸ hlt))]
    exact ⟨_, _, rfl, Or.inl ⟨hlt, congrArg (· + feed.staleness) hnow, rfl⟩⟩
  have hread : ¬ (target ≤ r.count ∨ r.now + feed.staleness < arrival.time) := by
    rw [not_or, not_le, not_lt]
    exact ⟨hcount, hle⟩
  unfold Reading.next at hnext
  rw [if_neg hread] at hnext
  rw [Effect.bind_of_ok (waitFor_of_le (hnow ▸ hle)), hnow]
  cases hframe : arrival.frame with
  | raised message => exact ⟨_, _, rfl, Or.inr ⟨hle, rfl, Or.inl rfl⟩⟩
  | ended =>
    rw [hframe] at hnext
    dsimp only at hnext ⊢
    rw [hear, Effect.bind_of_ok (Effect.modify_apply _ _), Effect.bind_of_ok (Effect.modify_apply _ _)]
    split_ifs at hnext with hended
    by_cases hfirst : 1 ≤ r.cleanReconnects
    · rw [if_pos hfirst]
      exact ⟨_, _, rfl, Or.inr ⟨hle, rfl, Or.inr ⟨false, rfl⟩⟩⟩
    · rw [if_neg hfirst, openProvider, hended.resolve_left hfirst]
      exact ⟨_, _, rfl, Or.inr ⟨hle, rfl, Or.inr ⟨false, rfl⟩⟩⟩
  | payload payload =>
    rw [hframe] at hnext
    dsimp only at hnext ⊢
    rw [Effect.bind_of_ok (Effect.get_apply _)]
    cases hquote : feed.quoteOf reader provider payload (max r.now arrival.time) with
    | error e =>
      rw [Effect.ofExcept_error, Effect.bind_of_error (Effect.throw_apply _ _)]
      exact ⟨_, _, rfl, Or.inr ⟨hle, rfl, Or.inl rfl⟩⟩
    | ok quote =>
      rw [hquote] at hnext
      rw [Effect.ofExcept_ok, Effect.bind_of_ok (Effect.pure_apply _ _), hear, Effect.bind_of_ok (Effect.modify_apply _ _)]
      cases quote with
      | none => cases hnext
      | some quote =>
        have hstore := Option.map_eq_none_iff.mp hnext
        have htake := takeQuote_ends host reader feed provider persist observe { s with
          now := max r.now arrival.time, feeds := Function.update s.feeds provider rest
          heard := s.heard ++ [(max r.now arrival.time, (some quote).isSome)] } quote
        unfold Effect.Ends at htake
        dsimp only at htake ⊢
        rw [Effect.bind_apply]
        generalize takeQuote host reader feed provider persist observe quote _ = result at htake ⊢
        rw [hdata, hstore] at htake
        cases result with
        | error e s' => exact ⟨e, s', rfl, Or.inr ⟨hle, htake.1, Or.inr ⟨true, htake.2.1⟩⟩⟩
        | ok _ s' => exact absurd htake.2.2 (by simp)

variable (host reader) in
/-- **The loop**: what it hears is lively exactly if the frames come in time. -/
theorem consumeLoop_lively (arrivals : List Arrival) (r : Reading) (s : FeedCycle) (hnow : s.now = r.now)
    (hdata : s.data = r.data) (hsince : r.since ≤ r.now) :
    ∃ new,
      (Effect.final (consumeLoop host reader feed provider target persist observe arrivals r.count r.cleanReconnects
        s)).heard = s.heard ++ new ∧
      (r.now ≤ r.since + feed.staleness →
        (Lively feed.staleness r.since new (Effect.final (consumeLoop host reader feed provider target persist observe
          arrivals r.count r.cleanReconnects s)).now ↔ InTime host reader feed provider target persist r arrivals)) := by
  have hpos : 0 < feed.staleness := feed.limits.2.1
  induction arrivals generalizing r s with
  | nil =>
    by_cases hcount : target ≤ r.count
    · rw [consumeLoop_done hcount]
      refine ⟨[], (List.append_nil _).symm, fun hlate => ?_⟩
      exact iff_of_true (hnow ▸ hlate) (inTime_of_le hcount [])
    rw [consumeLoop, if_neg hcount]
    refine ⟨[], (List.append_nil _).symm, fun hlate => ?_⟩
    rw [inTime_nil (not_le.mp hcount)]
    show s.now + feed.staleness ≤ r.since + feed.staleness ↔ _
    rw [hnow, add_le_add_iff_right]
    exact ⟨fun hle => le_antisymm hle hsince, fun heq => heq.le⟩
  | cons arrival rest ih =>
    by_cases hcount : target ≤ r.count
    · rw [consumeLoop_done hcount]
      refine ⟨[], (List.append_nil _).symm, fun hlate => ?_⟩
      exact iff_of_true (hnow ▸ hlate) (inTime_of_le hcount _)
    -- A frame that is there when the loop waits for it is in time if it is read in time.
    have hfirst : r.now ≤ r.since + feed.staleness → arrival.time ≤ r.now + feed.staleness →
        ((r.now = r.since ∨ arrival.time ≤ r.since + feed.staleness) ↔
          max r.now arrival.time ≤ r.since + feed.staleness) := by
      intro hlate hle
      rw [max_le_iff]
      constructor
      · rintro (heq | h)
        · exact ⟨hlate, heq ▸ hle⟩
        · exact ⟨hlate, h⟩
      · exact fun h => Or.inr h.2
    cases hnext : r.next host reader feed provider target persist arrival with
    | none =>
      obtain ⟨e, s', hrun, hcases⟩ := consumeLoop_stop hnow hdata (not_le.mp hcount) hnext rest
      have hrest : ∀ r₁ ∈ (none : Option Reading), InTime host reader feed provider target persist r₁ rest :=
        fun _ h => nomatch h
      rw [hrun, inTime_cons (not_le.mp hcount), hnext, and_iff_left hrest]
      rcases hcases with ⟨hlt, hnow', hheard⟩ | ⟨hle, hnow', hheard | ⟨isQuote, hheard⟩⟩
      · refine ⟨[], by simpa using hheard, fun hlate => ?_⟩
        show s'.now ≤ r.since + feed.staleness ↔ _
        rw [hnow', add_le_add_iff_right]
        constructor
        · exact fun h => Or.inl (le_antisymm h hsince)
        · rintro (heq | h)
          · exact heq.le
          · linarith
      · refine ⟨[], by simpa using hheard, fun hlate => ?_⟩
        rw [hfirst hlate hle, ← hnow']
        exact Iff.rfl
      · refine ⟨[(max r.now arrival.time, isQuote)], hheard, fun hlate => ?_⟩
        rw [hfirst hlate hle]
        show _ ∧ s'.now ≤ _ ↔ _
        rw [hnow']
        refine and_iff_left_of_imp fun hle => ?_
        cases isQuote
        · exact hle
        · exact le_add_of_nonneg_right hpos.le
    | some r₁ =>
      obtain ⟨isQuote, s₁, hrun, hnow₁, hdata₁, hheard₁, hle, hr₁, hsince₁⟩ :=
        consumeLoop_next hnow hdata hnext rest
      have hsince₂ : r₁.since ≤ r₁.now := by
        rw [hsince₁]
        split_ifs
        · exact le_rfl
        · exact hsince.trans (hr₁ ▸ le_max_left _ _)
      obtain ⟨new, hheard, hlively⟩ := ih r₁ s₁ hnow₁ hdata₁ hsince₂
      rw [hrun]
      refine ⟨(r₁.now, isQuote) :: new, ?_, fun hlate => ?_⟩
      · rw [hheard, hheard₁, List.append_assoc]
        rfl
      · rw [inTime_cons (not_le.mp hcount), hfirst hlate hle, hnext, Lively, ← hsince₁, ← hr₁]
        refine and_congr_right fun hlate₁ => ?_
        rw [hlively ?_]
        · simp
        · rw [hsince₁]
          split_ifs
          · exact le_add_of_nonneg_right hpos.le
          · exact hlate₁

variable (host reader feed provider target persist observe) in
/-- The handler of the loop only closes the stream. -/
theorem pace_consumeSlice (s : FeedCycle) :
    (Effect.final (consumeSlice host reader feed provider target persist observe s)).pace =
      (Effect.final (consumeLoop host reader feed provider target persist observe (s.feeds provider) 0 0 s)).pace := by
  rw [consumeSlice, Effect.bind_of_ok (Effect.get_apply s), Effect.tryCatch_apply]
  cases consumeLoop host reader feed provider target persist observe (s.feeds provider) 0 0 s with
  | ok count s' => rfl
  | error e s' => rfl

end Loop

section Streams

variable (host : Host) (reader : Reader) (feed : RealtimeFeed)

/-- **Staleness**: a stream is consumed without a quote for no longer than `staleness_seconds`, exactly if its frames come
in time. -/
theorem lively_iff (provider : Provider) (limit : Option ℕ) (persist observe : Bool) (s : FeedCycle) :
    (∃ new,
      (Effect.final (consume host reader feed provider limit persist observe s)).heard = s.heard ++ new ∧
        Lively feed.staleness s.now new
          (Effect.final (consume host reader feed provider limit persist observe s)).now) ↔
      Prompt host reader feed provider (feed.target limit) persist s := by
  have hpos : 0 < feed.staleness := feed.limits.2.1
  -- What is consumed once the stream is open.
  have hopen : ∀ s₁ : FeedCycle, openIterator feed provider s = .ok ⟨⟩ s₁ → s₁.pace = s.pace → s₁.feeds = s.feeds →
      ((∃ new,
        (Effect.final (consume host reader feed provider limit persist observe s)).heard = s.heard ++ new ∧
          Lively feed.staleness s.now new
            (Effect.final (consume host reader feed provider limit persist observe s)).now) ↔
        InTime host reader feed provider (feed.target limit) persist { since := s.now, now := s.now, data := s.data }
          (s.feeds provider)) := by
    intro s₁ hs₁ hpace hfeeds
    obtain ⟨hnow, hheard, hdata⟩ := of_pace hpace
    have hafter : (Effect.final (consume host reader feed provider limit persist observe s)).pace =
        (Effect.final (consumeLoop host reader feed provider (feed.target limit) persist observe (s.feeds provider) 0 0
          s₁)).pace := by
      rw [← hfeeds, ← pace_consumeSlice, consume, Effect.bind_of_ok (Effect.get_apply s), Effect.bind_of_ok hs₁,
        Effect.bind_apply]
      cases consumeSlice host reader feed provider (feed.target limit) persist observe s₁ with
      | error e s' => rfl
      | ok count s' =>
        dsimp only
        rw [Effect.bind_of_ok (Effect.get_apply s')]
        split_ifs <;> rfl
    obtain ⟨hnow', hheard', -⟩ := of_pace hafter
    obtain ⟨new, hnew, hlively⟩ := consumeLoop_lively host reader (s.feeds provider)
      { since := s.now, now := s.now, data := s.data : Reading } s₁ hnow hdata le_rfl
    have hsplit : ∀ new',
        (Effect.final (consume host reader feed provider limit persist observe s)).heard = s.heard ++ new' ↔ new' = new := by
      intro new'
      rw [hheard', hnew, hheard, List.append_cancel_left_eq]
      exact eq_comm
    simp only [hsplit, hnow', exists_eq_left]
    exact hlively (le_add_of_nonneg_right hpos.le)
  unfold Prompt
  by_cases hmem : provider ∈ s.iterators
  · have hs₁ : openIterator feed provider s = .ok ⟨⟩ s := by
      rw [openIterator, Effect.bind_of_ok (Effect.get_apply s), if_pos hmem]
      rfl
    rw [hopen s hs₁ rfl rfl]
    simp [hmem]
  have hrun : openIterator feed provider s = openProvider feed provider s := by
    rw [openIterator, Effect.bind_of_ok (Effect.get_apply s), if_neg hmem]
  rw [openProvider] at hrun
  cases hchannel : feed.channels.get? provider with
  | none =>
    rw [hchannel] at hrun
    have hconsume : consume host reader feed provider limit persist observe s = .error (.keyError provider.value) s := by
      rw [consume, Effect.bind_of_ok (Effect.get_apply s), Effect.bind_of_error hrun]
    rw [hconsume]
    refine iff_of_true ⟨[], (List.append_nil _).symm, le_add_of_nonneg_right hpos.le⟩ ?_
    rintro (hin | hne)
    · exact absurd hin hmem
    · exact absurd rfl hne
  | some channel =>
    rw [hchannel] at hrun
    rw [hopen _ hrun (pace_saveSnapshot _) (feeds_saveSnapshot _)]
    simp

end Streams

/-! ### Packets without a price -/

namespace Sample

/-- The NSE cycle without TrueData, with slices of one quote. -/
def dhanFeed : RealtimeFeed where
  market := .nse
  symbolMaps := Dict.empty.set .dhan (Dict.empty.set "1333" "HDFCBANK")
  barTimeframes := Dict.empty.set "1m" 60
  restores := true
  bars_pos := minuteBars_pos
  bars_nodup := minuteBars_nodup
  route := [.dhan]
  channels := Dict.empty.set .dhan "quote"
  maxEvents := 1
  stateStore := true
  route_ne := dhanRoute_ne
  route_nodup := dhanRoute_nodup
  limits := oneEvent

/-- A packet of a Dhan stream, some seconds after noon of 2026-08-14 in UTC. -/
def packet (second : ℤ) (code : ℚ) (fields : List (String × Json)) : Arrival :=
  ⟨seconds (1786708800 + second), .payload (payloadOf
    ([("response_code", .num code), ("exchange_segment", .num 1), ("security_id", .str "1333")] ++ fields))⟩

/-- The cycle at noon, with packets of open interest after twenty and forty seconds, and a quote after fifty. -/
def quiet : FeedCycle where
  data := CycleState.start dhanFeed.toRealtimeMarketCycle
  snapshot := dhanFeed.fresh (seconds 1786708800)
  now := seconds 1786708800
  feeds _ := [packet 20 5 [("open_interest", .num 1200)], packet 40 5 [("open_interest", .num 1250)],
    packet 50 4 [("ltp", .num 1650), ("last_trade_quantity", .num 10), ("last_trade_time", .num 1786708850)]]

end Sample

/-- For fifty seconds no payload is a quote, and the loop goes on. -/
theorem packets_without_price :
    ¬ ∃ new,
      (Effect.final (consume .cpython .plain Sample.dhanFeed .dhan none true true Sample.quiet)).heard =
        Sample.quiet.heard ++ new ∧
      Lively Sample.dhanFeed.staleness Sample.quiet.now new
        (Effect.final (consume .cpython .plain Sample.dhanFeed .dhan none true true Sample.quiet)).now := by
  have hheard : (Effect.final (consume .cpython .plain Sample.dhanFeed .dhan none true true Sample.quiet)).heard =
      [(seconds 1786708820, false), (seconds 1786708840, false), (seconds 1786708850, true)] := by decide +kernel
  rintro ⟨new, hnew, hlively⟩
  obtain rfl : new = [(seconds 1786708820, false), (seconds 1786708840, false), (seconds 1786708850, true)] :=
    hnew.symm.trans hheard
  exact absurd hlively.2.1 (by decide)

end NanoDelta.Runtime
