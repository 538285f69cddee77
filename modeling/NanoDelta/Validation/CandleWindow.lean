import NanoDelta.Runtime.TechnicalContext
import NanoDelta.Strategies.Causality
import NanoDelta.Validation.Nse

/-!
# The candle window

The paper runtime computes the features of a candle from the last `CANDLE_WINDOW` settled candles of its series, the
validation from all of them. Both make snapshots with `materialize_technical_features`, so what may differ are the
indicators that look back further than the window.

* `research_eq_slot`, `runtime_eq_slot`: each snapshot is the last one of its candles.
* `window_values`: in the first candles of a series all values agree, and later on those that look back no further.
* `forgotten_candle`: after a hundred candles the averages no longer agree.
-/

namespace NanoDelta.Validation

open Library Strategies NanoDelta.Runtime

/-! ### What is computed for a candle -/

/-- The values of the snapshot of a time. -/
def valuesAt (t : Instant) (snapshots : List TechnicalFeatureSnapshot) : Option (Dict String ℚ) :=
  (snapshots.find? fun snapshot => snapshot.eventTime = t).map TechnicalFeatureSnapshot.values

/-- What the runtime computes for the candle of a time: `fetch_settled_candles`, then
`materialize_technical_features`. -/
def runtimeValues (silver : List CanonicalCandle) (market : Market) (symbol timeframe : String) (t : Instant) :
    Except PyError (Option (Dict String ℚ)) := do
  let candles ← fetchSettledCandles silver market symbol timeframe
  let snapshots ← materializeTechnicalFeatures candles {}
  return valuesAt t snapshots

/-- What `evaluate_nse_strategy` computes for it. -/
def researchValues (rows : List SettledCandle) (t : Instant) : Except PyError (Option (Dict String ℚ)) := do
  let snapshots ← snapshotsOf rows
  return valuesAt t snapshots

/-- The settled candles of a series in Silver are these rows, as the indicators see them. -/
def InSilver (silver : List CanonicalCandle) (market : Market) (symbol timeframe : String) (rows : List SettledCandle) :
    Prop :=
  ((NanoDelta.Runtime.seriesOf silver market symbol timeframe).map technicalCandle).Perm
    (rows.map fun row => .ok row.technical)

/-- The rows up to a row. -/
def upTo (row : SettledCandle) (rows : List SettledCandle) : List SettledCandle :=
  rows.filter fun r => r.openTime ≤ row.openTime

/-- The rows up to a row on its day. -/
def onDayOf (row : SettledCandle) (rows : List SettledCandle) : List SettledCandle :=
  (upTo row rows).filter fun r => r.technical.date = row.technical.date

/-- The values that look back at most `CANDLE_WINDOW` candles. -/
def recentFeatures : List String :=
  ["close", "high", "low", "body_pct", "volume_ratio_20", "range_high_20", "range_low_20", "range_high_10",
    "range_low_10", "range_high_5", "range_low_5"]

/-- The values that look back to the start of the day. -/
def sessionFeatures : List String := ["vwap", "opening_range_high", "opening_range_low"]

/-! ### The last snapshot -/

section Slot

variable {candles : List TechnicalCandle} {candle : TechnicalCandle}

/-- The snapshot at the last candle of a series, if there is one. -/
def lastSlot (candles : List TechnicalCandle) (candle : TechnicalCandle) : Option TechnicalFeatureSnapshot :=
  snapshotAt (indicatorSeries (candles ++ [candle]) {}).1 (indicatorSeries (candles ++ [candle]) {}).2 candles.length
    candle

/-- With the default periods the snapshots are those of the settled candles by time. -/
theorem materialize_default (candles : List TechnicalCandle) :
    materializeTechnicalFeatures candles {} = .ok ((snapshotSlots {} (settledByTime candles)).filterMap id) := by
  have hvalid : ¬ (({} : TechnicalPeriods).rsiPeriod < 2 ∨ ({} : TechnicalPeriods).atrPeriod < 2 ∨
      ({} : TechnicalPeriods).adxPeriod < 2 ∨ ({} : TechnicalPeriods).supertrendMultiplier ≤ 0) := by decide +kernel
  unfold materializeTechnicalFeatures
  rw [if_neg hvalid]
  rfl

/-- In a series with increasing times, the snapshot of the last time is that of the last candle. -/
theorem valuesAt_last (hsorted : (candles ++ [candle]).Pairwise fun a b => a.eventTime < b.eventTime) :
    valuesAt candle.eventTime ((snapshotSlots {} (candles ++ [candle])).filterMap id) =
      (lastSlot candles candle).map TechnicalFeatureSnapshot.values := by
  obtain ⟨-, -, hbefore⟩ := List.pairwise_append.mp hsorted
  unfold valuesAt lastSlot snapshotSlots
  rw [List.mapIdx_append, List.mapIdx_singleton, List.filterMap_append, List.find?_append]
  have hfirst : (List.filterMap id (List.mapIdx (snapshotAt (indicatorSeries (candles ++ [candle]) {}).1
      (indicatorSeries (candles ++ [candle]) {}).2) candles)).find? (fun s => s.eventTime = candle.eventTime) = none := by
    refine List.find?_eq_none.mpr fun snapshot hsnapshot => ?_
    obtain ⟨slot, hslot, rfl⟩ := List.mem_filterMap.mp hsnapshot
    obtain ⟨i, hi, hat⟩ := List.mem_mapIdx.mp hslot
    have htime := eventTime_of_snapshotAt hat
    have hlt := hbefore _ (List.getElem_mem hi) candle (List.mem_singleton_self _)
    simpa [htime] using hlt.ne
  rw [hfirst, Option.none_or, Nat.zero_add]
  cases hslot : snapshotAt (indicatorSeries (candles ++ [candle]) {}).1 (indicatorSeries (candles ++ [candle]) {}).2
      candles.length candle with
  | none => rfl
  | some snapshot =>
    have htime := eventTime_of_snapshotAt hslot
    simp [htime]

end Slot

/-! ### Candles by time -/

section Sorted

variable {rows : List SettledCandle} {row : SettledCandle}

/-- The settled candles by time, if all are settled and have different times. -/
theorem settledByTime_eq {candles sorted : List TechnicalCandle} (hperm : candles.Perm sorted)
    (hsettled : ∀ c ∈ sorted, c.settled = true) (hsorted : sorted.Pairwise fun a b => a.eventTime < b.eventTime) :
    settledByTime candles = sorted := by
  have hall : (sorted.filter fun c => c.settled) = sorted := List.filter_eq_self.mpr hsettled
  have hdistinct : candles.Pairwise fun a b => a.eventTime ≠ b.eventTime :=
    hperm.symm.pairwise (hsorted.imp fun h => h.ne) fun h => Ne.symm h
  refine eq_of_increasing hsorted (pairwise_settledByTime hdistinct) ?_
  refine (List.perm_insertionSort _ _).trans ?_
  have hfilter := hperm.filter fun c => c.settled
  rwa [hall] at hfilter

/-- The candles up to a row, by time: it is the last one. -/
theorem exists_sorted (hdistinct : rows.Pairwise fun a b => a.openTime ≠ b.openTime) (hrow : row ∈ rows) :
    ∃ candles : List TechnicalCandle, ((upTo row rows).map SettledCandle.technical).Perm (candles ++ [row.technical]) ∧
      (candles ++ [row.technical]).Pairwise (fun a b => a.eventTime < b.eventTime) ∧
      ∀ c ∈ candles ++ [row.technical], c.settled = true ∧ c.utcOffset = 0 := by
  have htimes : ((upTo row rows).map SettledCandle.technical).Pairwise fun a b => a.eventTime ≠ b.eventTime :=
    List.pairwise_map.mpr (hdistinct.sublist List.filter_sublist)
  have hperm := List.perm_insertionSort (fun a b : TechnicalCandle => a.eventTime ≤ b.eventTime)
    ((upTo row rows).map SettledCandle.technical)
  have hsorted : (((upTo row rows).map SettledCandle.technical).insertionSort
      fun a b => a.eventTime ≤ b.eventTime).Pairwise fun a b => a.eventTime < b.eventTime :=
    pairwise_lt_insertionSort htimes
  generalize (((upTo row rows).map SettledCandle.technical).insertionSort fun a b => a.eventTime ≤ b.eventTime) =
    sorted at hperm hsorted
  have hmem : row.technical ∈ sorted :=
    hperm.mem_iff.mpr (List.mem_map_of_mem (List.mem_filter.mpr ⟨hrow, by simp⟩))
  have horigin : ∀ c ∈ sorted, ∃ r ∈ upTo row rows, r.technical = c := fun c hc => List.mem_map.mp (hperm.mem_iff.mp hc)
  obtain ⟨before, after, rfl⟩ := List.append_of_mem hmem
  have hnil : after = [] := by
    refine List.eq_nil_iff_forall_not_mem.mpr fun c hc => ?_
    obtain ⟨-, hlater, -⟩ := List.pairwise_append.mp hsorted
    have hlt := (List.pairwise_cons.mp hlater).1 c hc
    obtain ⟨r, hr, rfl⟩ := horigin c (List.mem_append_right _ (List.mem_cons_of_mem _ hc))
    have hle : r.openTime ≤ row.openTime := by simpa using (List.mem_filter.mp hr).2
    exact absurd hlt (not_lt.mpr hle)
  subst hnil
  refine ⟨before, hperm.symm, hsorted, fun c hc => ?_⟩
  obtain ⟨r, -, rfl⟩ := horigin c hc
  exact ⟨rfl, rfl⟩

/-- **Research** looks at all the candles up to a row. -/
theorem research_eq_slot (hdistinct : rows.Pairwise fun a b => a.openTime ≠ b.openTime) {candles : List TechnicalCandle}
    (hperm : ((upTo row rows).map SettledCandle.technical).Perm (candles ++ [row.technical]))
    (hsorted : (candles ++ [row.technical]).Pairwise fun a b => a.eventTime < b.eventTime)
    (hsettled : ∀ c ∈ candles ++ [row.technical], c.settled = true) :
    researchValues rows row.openTime = .ok ((lastSlot candles row.technical).map TechnicalFeatureSnapshot.values) := by
  have htimes : (rows.map SettledCandle.technical).Pairwise fun a b => a.eventTime ≠ b.eventTime :=
    List.pairwise_map.mpr hdistinct
  have hpast := (materialize_has_no_lookahead htimes {}).1 row.openTime
  have hrows : ((rows.map SettledCandle.technical).filter fun c => decide (c.eventTime ≤ row.openTime)) =
      (upTo row rows).map SettledCandle.technical := List.filter_map
  have hcut : ∀ snapshots : List TechnicalFeatureSnapshot,
      valuesAt row.openTime (snapshots.filter fun snapshot => snapshot.eventTime ≤ row.openTime) =
        valuesAt row.openTime snapshots := by
    intro snapshots
    unfold valuesAt
    rw [List.find?_filter]
    congr 2
    funext snapshot
    by_cases h : snapshot.eventTime = row.openTime <;> simp [h]
  rw [hrows, materialize_default, settledByTime_eq hperm hsettled hsorted] at hpast
  unfold researchValues snapshotsOf
  cases hall : materializeTechnicalFeatures (rows.map SettledCandle.technical) {} with
  | error e =>
    rw [hall] at hpast
    cases hpast
  | ok snapshots =>
    rw [hall] at hpast
    have hlast := valuesAt_last hsorted
    rw [Except.ok.inj hpast] at hlast
    exact congrArg Except.ok ((hcut snapshots).symm.trans hlast)

theorem eventTime_of_technicalCandle {c : CanonicalCandle} {t : TechnicalCandle} (h : technicalCandle c = .ok t) :
    t.eventTime = c.openTime := by
  unfold technicalCandle TechnicalCandle.create at h
  dsimp only at h
  split_ifs at h
  cases h
  rfl

/-- Results of which none is an error. -/
theorem eq_map_ok {xs : List (Except PyError TechnicalCandle)} {as : List TechnicalCandle}
    (hperm : xs.Perm (as.map Except.ok)) : ∃ bs : List TechnicalCandle, bs.Perm as ∧ xs = bs.map Except.ok := by
  have hvalues : ∀ cs : List TechnicalCandle, (cs.map Except.ok).filterMap (Except.toOption (ε := PyError)) = cs := by
    intro cs
    rw [List.filterMap_map]
    exact List.filterMap_some
  refine ⟨xs.filterMap Except.toOption, ?_, ?_⟩
  · have hfilter := hperm.filterMap Except.toOption
    rwa [hvalues] at hfilter
  · have hok : ∀ x ∈ xs, ∃ a, x = .ok a := by
      intro x hx
      obtain ⟨a, -, rfl⟩ := List.mem_map.mp (hperm.mem_iff.mp hx)
      exact ⟨a, rfl⟩
    clear hperm
    induction xs with
    | nil => rfl
    | cons x xs ih =>
      obtain ⟨a, rfl⟩ := hok x (List.mem_cons_self ..)
      exact congrArg _ (ih fun y hy => hok y (List.mem_cons_of_mem _ hy))

theorem mapM_of_map_eq {f : CanonicalCandle → Except PyError TechnicalCandle} {as : List CanonicalCandle}
    {bs : List TechnicalCandle} (h : as.map f = bs.map Except.ok) : as.mapM f = .ok bs := by
  induction as generalizing bs with
  | nil =>
    rw [List.map_nil, eq_comm, List.map_eq_nil_iff] at h
    subst h
    rfl
  | cons a as ih =>
    cases bs with
    | nil => cases h
    | cons b bs =>
      rw [List.map_cons, List.map_cons, List.cons.injEq] at h
      rw [List.mapM_cons, h.1, ih h.2]
      rfl

/-- The candles of a series in Silver, the newest one first. -/
theorem newest_eq_reverse {silver : List CanonicalCandle} {market : Market} {symbol timeframe : String}
    {sorted : List TechnicalCandle}
    (hsilver : ((NanoDelta.Runtime.seriesOf silver market symbol timeframe).map technicalCandle).Perm
      (sorted.map Except.ok))
    (hsorted : sorted.Pairwise fun a b => a.eventTime < b.eventTime) :
    ((NanoDelta.Runtime.seriesOf silver market symbol timeframe).insertionSort
      fun a b => b.openTime ≤ a.openTime).map technicalCandle = sorted.reverse.map Except.ok := by
  have hnewest := List.perm_insertionSort (fun a b : CanonicalCandle => b.openTime ≤ a.openTime)
    (NanoDelta.Runtime.seriesOf silver market symbol timeframe)
  have htimes := List.pairwise_insertionSort (fun a b : CanonicalCandle => b.openTime ≤ a.openTime)
    (NanoDelta.Runtime.seriesOf silver market symbol timeframe)
  generalize (NanoDelta.Runtime.seriesOf silver market symbol timeframe).insertionSort
    (fun a b => b.openTime ≤ a.openTime) = newest at hnewest htimes
  have hperm := (hnewest.map technicalCandle).trans hsilver
  obtain ⟨made, hmade, hmap⟩ := eq_map_ok hperm
  have hdistinct : made.Pairwise fun a b => a.eventTime ≠ b.eventTime :=
    hmade.symm.pairwise (hsorted.imp fun h => h.ne) fun h => Ne.symm h
  have hdescending : made.Pairwise fun a b => b.eventTime ≤ a.eventTime := by
    have hpairs : (newest.map technicalCandle).Pairwise fun x y =>
        ∀ a b, x = .ok a → y = .ok b → b.eventTime ≤ a.eventTime := by
      refine List.pairwise_map.mpr (htimes.imp fun hle a b ha hb => ?_)
      rw [eventTime_of_technicalCandle ha, eventTime_of_technicalCandle hb]
      exact hle
    rw [hmap, List.pairwise_map] at hpairs
    exact hpairs.imp fun h => h _ _ rfl rfl
  have hincreasing : made.reverse.Pairwise fun a b => a.eventTime < b.eventTime :=
    List.pairwise_reverse.mpr ((hdescending.and hdistinct).imp fun h => lt_of_le_of_ne h.1 h.2.symm)
  have hreverse := eq_of_increasing hsorted hincreasing ((List.reverse_perm made).trans hmade)
  rw [hmap, ← hreverse, List.reverse_reverse]

/-- **The runtime** looks at the last `CANDLE_WINDOW` of them. -/
theorem runtime_eq_slot {silver : List CanonicalCandle} {market : Market} {symbol timeframe : String}
    (hsilver : InSilver silver market symbol timeframe (upTo row rows)) {candles : List TechnicalCandle}
    (hperm : ((upTo row rows).map SettledCandle.technical).Perm (candles ++ [row.technical]))
    (hsorted : (candles ++ [row.technical]).Pairwise fun a b => a.eventTime < b.eventTime)
    (hsettled : ∀ c ∈ candles ++ [row.technical], c.settled = true) :
    runtimeValues silver market symbol timeframe row.openTime = .ok
      ((lastSlot (candles.drop (candles.length + 1 - candleWindow)) row.technical).map
        TechnicalFeatureSnapshot.values) := by
  have hok := hperm.map (Except.ok (ε := PyError))
  rw [List.map_map] at hok
  have hnewest := newest_eq_reverse (hsilver.trans hok) hsorted
  have hlength : candles.length + 1 - candleWindow ≤ candles.length := by
    unfold candleWindow
    omega
  have hwindow : (candles ++ [row.technical]).reverse.take candleWindow =
      (candles.drop (candles.length + 1 - candleWindow) ++ [row.technical]).reverse := by
    rw [List.take_reverse, List.length_append, List.length_singleton, List.drop_append_of_le_length hlength]
  have hfetch : fetchSettledCandles silver market symbol timeframe =
      .ok (candles.drop (candles.length + 1 - candleWindow) ++ [row.technical]).reverse := by
    refine mapM_of_map_eq ?_
    rw [newestCandles, List.map_take, hnewest, ← List.map_take, hwindow]
  have hsub : (candles.drop (candles.length + 1 - candleWindow) ++ [row.technical]).Sublist
      (candles ++ [row.technical]) := (List.drop_sublist _ _).append_right _
  have hlast := hsorted.sublist hsub
  unfold runtimeValues
  rw [hfetch]
  simp only [Except.bind, bind, materialize_default]
  rw [settledByTime_eq (List.reverse_perm _) (fun c hc => hsettled c (hsub.subset hc)) hlast]
  exact congrArg Except.ok (valuesAt_last hlast)

end Sorted

/-! ### Indicators with a short memory -/

section Memory

variable {as bs : List TechnicalCandle} {candle : TechnicalCandle}

theorem recent_volumeRatios {period : ℕ} (hperiod : 1 ≤ period) :
    Recent period fun candles => volumeRatios candles period := by
  refine recent_mapIdx hperiod fun as bs candle hlength => ?_
  have hwindow : windowUpTo (as ++ bs ++ [candle]) period (as ++ bs).length =
      windowUpTo (bs ++ [candle]) period bs.length := by
    unfold windowUpTo
    rw [List.take_of_length_le (by rw [List.length_append, List.length_singleton]),
      List.take_of_length_le (by rw [List.length_append, List.length_singleton]), List.append_assoc, List.length_append,
      Nat.add_assoc, Nat.add_sub_assoc hlength, List.drop_length_add_append]
  rw [hwindow]

theorem recent_rollingRange (period : ℕ) : Recent (period + 1) fun candles => rollingRange candles period := by
  refine recent_mapIdx (by omega) fun as bs candle hlength => ?_
  have hfull : period ≤ bs.length := by omega
  rw [if_neg (by rw [List.length_append]; omega), if_neg (by omega), List.take_left, List.take_left,
    List.length_append, Nat.add_sub_assoc hfull, List.drop_length_add_append]

/-- The opening range of a candle is made of candles of its day. -/
theorem openingRange_of_day (minutes : ℤ) (has : ∀ c ∈ as, c.date ≠ candle.date) :
    (openingRange (as ++ (bs ++ [candle])) minutes).getLast? = (openingRange (bs ++ [candle]) minutes).getLast? := by
  have hnone : ∀ p : TechnicalCandle → Prop, [DecidablePred p] →
      (as.filter fun prior => prior.date = candle.date ∧ p prior) = [] := by
    intro p _
    refine List.filter_eq_nil_iff.mpr fun c hc => ?_
    simp [has c hc]
  unfold openingRange
  rw [← List.append_assoc, getLast?_mapIdx, getLast?_mapIdx]
  dsimp only
  rw [List.take_left, List.take_left, List.filter_append, hnone, List.nil_append]

theorem session_add (state : SessionState) (c : TechnicalCandle) : (state.add c).session = some c.date := by
  unfold SessionState.add
  by_cases h : state.session = some c.date
  · rw [if_pos h]
    exact h
  · rw [if_neg h]

/-- The session of a day starts anew: what came before the day is forgotten. -/
theorem foldl_add_of_day {day : ℤ} {state state' : SessionState}
    (h : state = state' ∨ state.session ≠ some day ∧ state'.session ≠ some day) (candles : List TechnicalCandle) :
    candles.foldl SessionState.add state = candles.foldl SessionState.add state' ∨
      (candles.foldl SessionState.add state).session ≠ some day ∧
        (candles.foldl SessionState.add state').session ≠ some day := by
  induction candles generalizing state state' with
  | nil => exact h
  | cons c candles ih =>
    refine ih ?_
    rcases h with rfl | ⟨hne, hne'⟩
    · exact Or.inl rfl
    · by_cases hday : c.date = day
      · subst hday
        refine Or.inl ?_
        unfold SessionState.add
        rw [if_neg hne, if_neg hne']
      · rw [session_add, session_add]
        exact Or.inr ⟨by simpa using hday, by simpa using hday⟩

theorem getLast?_vwaps (candles : List TechnicalCandle) (candle : TechnicalCandle) :
    (vwaps (candles ++ [candle])).getLast? = some ((candles ++ [candle]).foldl SessionState.add {}).vwap := by
  unfold vwaps
  rw [List.getLast?_map, List.getLast?_tail, if_neg (by simp), List.getLast?_scanl]
  rfl

theorem vwaps_of_day (has : ∀ c ∈ as, c.date ≠ candle.date) :
    (vwaps (as ++ (bs ++ [candle]))).getLast? = (vwaps (bs ++ [candle])).getLast? := by
  have hbefore : (as.foldl SessionState.add {}).session ≠ some candle.date := by
    rcases List.eq_nil_or_concat' as with rfl | ⟨before, last, rfl⟩
    · exact fun h => (nomatch h)
    · rw [List.foldl_append, List.foldl_cons, List.foldl_nil, session_add]
      simpa using has last (by simp)
  have hnew : ({} : SessionState).session ≠ some candle.date := fun h => (nomatch h)
  have hday := foldl_add_of_day (Or.inr ⟨hbefore, hnew⟩) (bs ++ [candle])
  rw [← List.append_assoc, getLast?_vwaps, getLast?_vwaps, List.append_assoc, List.foldl_append]
  rcases hday with heq | ⟨hne, -⟩
  · rw [heq]
  · rw [List.foldl_append, List.foldl_cons, List.foldl_nil, session_add] at hne
    exact absurd rfl hne

/-! ### Values -/

/-- The last value of a causal series. -/
theorem valueAt_last {F : List TechnicalCandle → List (Option ℚ)} (hF : Causal F)
    (h : (F (as ++ (bs ++ [candle]))).getLast? = (F (bs ++ [candle])).getLast?) :
    valueAt (F (as ++ bs ++ [candle])) (as ++ bs).length = valueAt (F (bs ++ [candle])) bs.length := by
  have hat : ∀ cs : List TechnicalCandle, (F (cs ++ [candle]))[cs.length]? = (F (cs ++ [candle])).getLast? := by
    intro cs
    rw [List.getLast?_eq_getElem?, hF.length, List.length_append, List.length_singleton, Nat.add_sub_cancel]
  unfold valueAt
  rw [hat, hat, List.append_assoc, h]

/-- What a key has after some values are set. -/
theorem get?_foldl_setSome {key : String} {es es' : List (String × Option ℚ)} {values values' : Dict String ℚ}
    (hes : List.Forall₂ (fun e e' => e.1 = e'.1 ∧ (e.1 = key → e.2 = e'.2)) es es')
    (hvalues : values.get? key = values'.get? key) :
    (es.foldl setSome values).get? key = (es'.foldl setSome values').get? key := by
  induction hes generalizing values values' with
  | nil => exact hvalues
  | @cons e e' es es' he hes ih =>
    refine ih ?_
    obtain ⟨name, value⟩ := e
    obtain ⟨name', value'⟩ := e'
    obtain ⟨rfl, heq⟩ := he
    by_cases hname : name = key
    · obtain rfl := heq hname
      cases value with
      | none => exact hvalues
      | some value =>
        simp only [setSome, Dict.get?_set, if_pos hname.symm]
    · cases value <;> cases value' <;> simp only [setSome, Dict.get?_set, if_neg (Ne.symm hname)] <;> exact hvalues

/-- A key has the same value in two snapshots, if its series have. -/
theorem get?_lastSlot {key : String} {snapshot snapshot' : TechnicalFeatureSnapshot}
    (h : lastSlot (as ++ bs) candle = some snapshot) (h' : lastSlot bs candle = some snapshot')
    (hneeded : List.Forall₂ (fun e e' : String × List (Option ℚ) => e.1 = e'.1 ∧
        (e.1 = key → valueAt e.2 (as ++ bs).length = valueAt e'.2 bs.length))
      (indicatorSeries (as ++ bs ++ [candle]) {}).1 (indicatorSeries (bs ++ [candle]) {}).1)
    (hoptional : List.Forall₂ (fun e e' : String × List (Option ℚ) => e.1 = e'.1 ∧
        (e.1 = key → valueAt e.2 (as ++ bs).length = valueAt e'.2 bs.length))
      (indicatorSeries (as ++ bs ++ [candle]) {}).2 (indicatorSeries (bs ++ [candle]) {}).2) :
    snapshot.values.get? key = snapshot'.values.get? key := by
  unfold lastSlot snapshotAt at h h'
  simp only at h h'
  split_ifs at h
  split_ifs at h'
  cases h
  cases h'
  refine get?_foldl_setSome ?_ (get?_foldl_setSome ?_ rfl)
  · exact List.forall₂_map_left_iff.mpr (List.forall₂_map_right_iff.mpr hoptional)
  · exact List.forall₂_map_left_iff.mpr (List.forall₂_map_right_iff.mpr hneeded)

/-- With a full window, the values that do not look back further are those of the whole series. -/
theorem get?_of_window {key : String} {snapshot snapshot' : TechnicalFeatureSnapshot}
    (h : lastSlot (as ++ bs) candle = some snapshot) (h' : lastSlot bs candle = some snapshot')
    (hwindow : candleWindow ≤ bs.length + 1)
    (hkey : key ∈ recentFeatures ∨ key ∈ sessionFeatures ∧ ∀ c ∈ as, c.date ≠ candle.date) :
    snapshot.values.get? key = snapshot'.values.get? key := by
  have hlong : ∀ k, k ≤ candleWindow → k ≤ (bs ++ [candle]).length := by
    intro k hk
    rw [List.length_append, List.length_singleton]
    exact hk.trans hwindow
  have hother : ∀ name value value', name ∉ recentFeatures ++ sessionFeatures → name = key →
      (value : Option ℚ) = value' := by
    rintro name value value' hname rfl
    refine absurd ?_ hname
    rcases hkey with hkey | ⟨hkey, -⟩
    · exact List.mem_append_left _ hkey
    · exact List.mem_append_right _ hkey
  have hsession : ∀ {F : List TechnicalCandle → List (Option ℚ)}, Causal F →
      ((∀ c ∈ as, c.date ≠ candle.date) → (F (as ++ (bs ++ [candle]))).getLast? = (F (bs ++ [candle])).getLast?) →
      ∀ name, name ∉ recentFeatures → name = key →
        valueAt (F (as ++ bs ++ [candle])) (as ++ bs).length = valueAt (F (bs ++ [candle])) bs.length := by
    rintro F hF hlast name hname rfl
    exact valueAt_last hF (hlast (hkey.resolve_left hname).2)
  have hvolume := valueAt_last (causal_volumeRatios 20)
    (recent_volumeRatios (by omega : 1 ≤ 20) as (bs ++ [candle]) (hlong 20 (by decide)))
  have hrange : ∀ {period : ℕ} (f : Option ℚ × Option ℚ → Option ℚ), period + 1 ≤ candleWindow →
      valueAt ((rollingRange (as ++ bs ++ [candle]) period).map f) (as ++ bs).length =
        valueAt ((rollingRange (bs ++ [candle]) period).map f) bs.length := by
    intro period f hperiod
    exact valueAt_last ((causal_rollingRange period).map f)
      (((recent_rollingRange period).map f) as (bs ++ [candle]) (hlong _ hperiod))
  have hopening : ∀ f : Option ℚ × Option ℚ → Option ℚ, (∀ c ∈ as, c.date ≠ candle.date) →
      ((openingRange (as ++ (bs ++ [candle])) 15).map f).getLast? =
        ((openingRange (bs ++ [candle]) 15).map f).getLast? := by
    intro f has
    rw [List.getLast?_map, List.getLast?_map, openingRange_of_day 15 has]
  refine get?_lastSlot h h' ?_ ?_
  · exact .cons ⟨rfl, hother "ema_9" _ _ (by decide)⟩ <| .cons ⟨rfl, hother "ema_21" _ _ (by decide)⟩ <|
      .cons ⟨rfl, hother "rsi_14" _ _ (by decide)⟩ <| .cons ⟨rfl, hother "atr_14" _ _ (by decide)⟩ <|
      .cons ⟨rfl, hother "adx_14" _ _ (by decide)⟩ <| .cons ⟨rfl, hother "supertrend" _ _ (by decide)⟩ <|
      .cons ⟨rfl, hother "supertrend_direction" _ _ (by decide)⟩ <|
      .cons ⟨rfl, hsession causal_vwaps vwaps_of_day "vwap" (by decide)⟩ <| .cons ⟨rfl, fun _ => hvolume⟩ .nil
  · exact .cons ⟨rfl, fun _ => hrange _ (by decide)⟩ <| .cons ⟨rfl, fun _ => hrange _ (by decide)⟩ <|
      .cons ⟨rfl, fun _ => hrange _ (by decide)⟩ <| .cons ⟨rfl, fun _ => hrange _ (by decide)⟩ <|
      .cons ⟨rfl, fun _ => hrange _ (by decide)⟩ <| .cons ⟨rfl, fun _ => hrange _ (by decide)⟩ <|
      .cons ⟨rfl, hsession ((causal_openingRange 15).map _) (hopening _) "opening_range_high" (by decide)⟩ <|
      .cons ⟨rfl, hsession ((causal_openingRange 15).map _) (hopening _) "opening_range_low" (by decide)⟩ .nil

/-- If the window has all candles of the day, those before it are of other days. -/
theorem date_ne_of_onDay {candles : List TechnicalCandle} {k : ℕ}
    (hsorted : (candles ++ [candle]).Pairwise fun a b => a.eventTime < b.eventTime)
    (hutc : ∀ c ∈ candles ++ [candle], c.utcOffset = 0)
    (hday : ((candles ++ [candle]).filter fun c => c.date = candle.date).length + k ≤ candles.length + 1) :
    ∀ c ∈ candles.take k, c.date ≠ candle.date := by
  intro c hc heq
  have hsplit : candles ++ [candle] = candles.take k ++ (candles.drop k ++ [candle]) := by
    rw [← List.append_assoc, List.take_append_drop]
  rw [hsplit] at hsorted hutc hday
  have hdate : ∀ a ∈ candles.take k ++ (candles.drop k ++ [candle]), a.date = a.eventTime / seconds 86400 := by
    intro a ha
    unfold TechnicalCandle.date
    rw [hutc a ha, add_zero]
  have hlast : ∀ a ∈ candles.drop k ++ [candle], a.eventTime ≤ candle.eventTime := by
    intro a ha
    rcases List.mem_append.mp ha with ha | ha
    · have hlater := (List.pairwise_append.mp (List.pairwise_append.mp hsorted).2.1).2.2
      exact (hlater a ha candle (List.mem_singleton_self _)).le
    · rw [List.mem_singleton.mp ha]
  -- from the candle `c` on all candles are of the day
  have hwindow : (candles.drop k ++ [candle]).filter (fun a => a.date = candle.date) = candles.drop k ++ [candle] := by
    refine List.filter_eq_self.mpr fun a ha => ?_
    have hafter := ((List.pairwise_append.mp hsorted).2.2 c hc a ha).le
    have hca : c.date ≤ a.date := by
      rw [hdate c (List.mem_append_left _ hc), hdate a (List.mem_append_right _ ha)]
      exact Int.ediv_le_ediv (by decide) hafter
    have hacandle : a.date ≤ candle.date := by
      rw [hdate a (List.mem_append_right _ ha), hdate candle (by simp)]
      exact Int.ediv_le_ediv (by decide) (hlast a ha)
    simpa using le_antisymm hacandle (heq ▸ hca)
  have hpos : 0 < ((candles.take k).filter fun a => a.date = candle.date).length :=
    List.length_pos_of_mem (List.mem_filter.mpr ⟨hc, by simpa using heq⟩)
  rw [List.filter_append, List.length_append, hwindow, List.length_append, List.length_drop, List.length_singleton]
    at hday
  omega

end Memory

/-! ### The runtime and the validation -/

section Window

variable {rows : List SettledCandle} {row : SettledCandle} {silver : List CanonicalCandle} {market : Market}
  {symbol timeframe : String}

/-- **The window.** At the first `CANDLE_WINDOW` candles of a series the runtime computes all values of the validation.
At every candle at which both have a snapshot they agree on the values that look back at most that far, and on those of
the session if the day has no more candles up to it. -/
theorem window_values (hdistinct : rows.Pairwise fun a b => a.openTime ≠ b.openTime) (hrow : row ∈ rows)
    (hsilver : InSilver silver market symbol timeframe (upTo row rows)) :
    ((upTo row rows).length ≤ candleWindow →
      runtimeValues silver market symbol timeframe row.openTime = researchValues rows row.openTime) ∧
    ∀ values values', runtimeValues silver market symbol timeframe row.openTime = .ok (some values) →
      researchValues rows row.openTime = .ok (some values') →
      (∀ key ∈ recentFeatures, values.get? key = values'.get? key) ∧
      ((onDayOf row rows).length ≤ candleWindow → ∀ key ∈ sessionFeatures, values.get? key = values'.get? key) := by
  obtain ⟨candles, hperm, hsorted, hall⟩ := exists_sorted hdistinct hrow
  have hsettled := fun c hc => (hall c hc).1
  rw [research_eq_slot hdistinct hperm hsorted hsettled, runtime_eq_slot hsilver hperm hsorted hsettled]
  have hlength : (upTo row rows).length = candles.length + 1 := by
    rw [← List.length_map SettledCandle.technical, hperm.length_eq, List.length_append, List.length_singleton]
  have hday : (onDayOf row rows).length =
      ((candles ++ [row.technical]).filter fun c => c.date = row.technical.date).length := by
    rw [← (hperm.filter _).length_eq, List.filter_map, List.length_map]
    rfl
  refine ⟨fun hshort => ?_, fun values values' hruntime hresearch => ?_⟩
  · rw [Nat.sub_eq_zero_of_le (hlength ▸ hshort), List.drop_zero]
  · obtain ⟨snapshot', hslot', hvalues'⟩ := Option.map_eq_some_iff.mp (Except.ok.inj hruntime)
    obtain ⟨snapshot, hslot, hvalues⟩ := Option.map_eq_some_iff.mp (Except.ok.inj hresearch)
    subst hvalues
    subst hvalues'
    by_cases hshort : candles.length + 1 ≤ candleWindow
    · rw [Nat.sub_eq_zero_of_le hshort, List.drop_zero, hslot] at hslot'
      cases hslot'
      exact ⟨fun _ _ => rfl, fun _ _ _ => rfl⟩
    · have hwindow : candleWindow ≤ (candles.drop (candles.length + 1 - candleWindow)).length + 1 := by
        rw [List.length_drop]
        omega
      rw [← List.take_append_drop (candles.length + 1 - candleWindow) candles] at hslot
      refine ⟨fun key hkey => (get?_of_window hslot hslot' hwindow (Or.inl hkey)).symm, fun hsame key hkey => ?_⟩
      refine (get?_of_window hslot hslot' hwindow (Or.inr ⟨hkey, ?_⟩)).symm
      exact date_ne_of_onDay hsorted (fun c hc => (hall c hc).2) (by omega)

end Window

/-! ### A hundred bars after an outlier -/

/-- A row as a settled candle of Silver. -/
def SettledCandle.inSilver (market : Market) (row : SettledCandle) : CanonicalCandle where
  recordId := ""
  rawRecordId := ""
  market := market
  provider := row.provider
  symbol := row.symbol
  timeframe := row.timeframe
  openTime := row.openTime
  openPrice := row.openPrice
  high := row.high
  low := row.low
  close := row.close
  volume := row.volume
  isSettled := true
  volume_nonneg := row.volume_nonneg
  range := row.range

theorem inSilver_map {market : Market} {symbol timeframe : String} {rows : List SettledCandle}
    (hrows : ∀ row ∈ rows, row.symbol = symbol ∧ row.timeframe = timeframe) :
    InSilver (rows.map (SettledCandle.inSilver market)) market symbol timeframe rows := by
  unfold InSilver NanoDelta.Runtime.seriesOf
  rw [List.filter_eq_self.mpr, List.map_map]
  · exact .of_eq (List.map_congr_left fun row _ => row.create_technical)
  · intro c hc
    obtain ⟨row, hrow, rfl⟩ := List.mem_map.mp hc
    obtain ⟨hsymbol, htimeframe⟩ := hrows row hrow
    simp [SettledCandle.inSilver, hsymbol, htimeframe]

namespace Sample

theorem at_hundred : (99 : ℚ) ≤ 100 ∧ (100 : ℚ) ≤ 130 := by decide +kernel

theorem at_breakout : (99 : ℚ) ≤ 121 ∧ (121 : ℚ) ≤ 130 := by decide +kernel

/-- A bar of five minutes of RELIANCE. -/
def bar (k : ℕ) (close : ℚ) (hclose : 99 ≤ close ∧ close ≤ 130 := by first | exact Sample.at_hundred | exact Sample.at_breakout | decide +kernel) : SettledCandle where
  symbol := "RELIANCE"
  timeframe := "5m"
  openTime := seconds (1786795200 + 300 * k)
  openPrice := 100
  high := 130
  low := 99
  close := close
  volume := 10
  texts := by decide
  prices_pos := ⟨by decide, by decide, by decide, lt_of_lt_of_le (by decide) hclose.1⟩
  volume_nonneg := Amounts.ten_nonneg
  range := ⟨le_min (by decide +kernel) hclose.1, max_le (by decide +kernel) hclose.2⟩

/-- An outlier and ninety-nine bars after it. -/
def bars : List SettledCandle := bar 0 121 :: (List.range 99).map fun k => bar (k + 1) 100

/-- The bar after them. -/
def lastBar : SettledCandle := bar 100 100

theorem bars_distinct : (bars ++ [lastBar]).Pairwise fun a b => a.openTime ≠ b.openTime := by decide +kernel

theorem upTo_lastBar : upTo lastBar (bars ++ [lastBar]) = bars ++ [lastBar] :=
  List.filter_eq_self.mpr (by decide +kernel)

theorem bars_sorted :
    (bars.map SettledCandle.technical ++ [lastBar.technical]).Pairwise fun a b => a.eventTime < b.eventTime := by
  decide +kernel

theorem bars_inSilver : InSilver ((bars ++ [lastBar]).map (SettledCandle.inSilver .nse)) .nse "RELIANCE" "5m"
    (bars ++ [lastBar]) := inSilver_map (by decide +kernel)

end Sample

/-- A hundred bars after an outlier the runtime has forgotten it: its average is not that of the validation. -/
theorem forgotten_candle :
    (Sample.bars ++ [Sample.lastBar]).Pairwise (fun a b => a.openTime ≠ b.openTime) ∧
      InSilver ((Sample.bars ++ [Sample.lastBar]).map (SettledCandle.inSilver .nse)) .nse "RELIANCE" "5m"
        (upTo Sample.lastBar (Sample.bars ++ [Sample.lastBar])) ∧
      runtimeValues ((Sample.bars ++ [Sample.lastBar]).map (SettledCandle.inSilver .nse)) .nse "RELIANCE" "5m"
          Sample.lastBar.openTime ≠
        researchValues (Sample.bars ++ [Sample.lastBar]) Sample.lastBar.openTime := by
  have hsilver : InSilver ((Sample.bars ++ [Sample.lastBar]).map (SettledCandle.inSilver .nse)) .nse "RELIANCE" "5m"
      (upTo Sample.lastBar (Sample.bars ++ [Sample.lastBar])) := by
    rw [Sample.upTo_lastBar]
    exact Sample.bars_inSilver
  have hperm : ((upTo Sample.lastBar (Sample.bars ++ [Sample.lastBar])).map SettledCandle.technical).Perm
      (Sample.bars.map SettledCandle.technical ++ [Sample.lastBar.technical]) := by
    rw [Sample.upTo_lastBar, List.map_append, List.map_singleton]
  have hsettled : ∀ c ∈ Sample.bars.map SettledCandle.technical ++ [Sample.lastBar.technical], c.settled = true := by
    decide +kernel
  refine ⟨Sample.bars_distinct, hsilver, ?_⟩
  rw [research_eq_slot Sample.bars_distinct hperm Sample.bars_sorted hsettled,
    runtime_eq_slot hsilver hperm Sample.bars_sorted hsettled]
  intro heq
  have hvalue : ((lastSlot ((Sample.bars.map SettledCandle.technical).drop
        ((Sample.bars.map SettledCandle.technical).length + 1 - candleWindow)) Sample.lastBar.technical).map
          TechnicalFeatureSnapshot.values).bind (fun values => values.get? "ema_9") =
      ((lastSlot (Sample.bars.map SettledCandle.technical) Sample.lastBar.technical).map
        TechnicalFeatureSnapshot.values).bind fun values => values.get? "ema_9" := by
    rw [Except.ok.inj heq]
  revert hvalue
  decide +kernel

/-- Before that the values agree. -/
theorem first_bars_agree :
    runtimeValues (Sample.bars.map (SettledCandle.inSilver .nse)) .nse "RELIANCE" "5m" (Sample.bar 99 100).openTime =
      researchValues Sample.bars (Sample.bar 99 100).openTime := by
  have hlast : upTo (Sample.bar 99 100) Sample.bars = Sample.bars := List.filter_eq_self.mpr (by decide +kernel)
  refine (window_values (Sample.bars_distinct.sublist (List.sublist_append_left _ _)) (by decide +kernel) ?_).1 ?_
  · rw [hlast]
    exact inSilver_map (by decide +kernel)
  · rw [hlast]
    decide +kernel

end NanoDelta.Validation
