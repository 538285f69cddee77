import Mathlib.Data.List.DropRight
import Mathlib.Tactic.Linarith
import NanoDelta.Library.Averages
import NanoDelta.Strategies.Causality

/-!
# Bounds of the indicators

What the values of the indicators of `strategies/technical_features.py` can be, whatever the candles are. An average of
`_ema` or `_wilder` is a convex combination of the values it has seen, a ratio of averages is bounded by what the
averages have in common, and causality says which candles an average has seen.

* `mem_ema`, `mem_wilder`: smoothed series, and from them `rsi_bounds`, `atr_nonneg` and `adx_bounds`.
* `vwap_bounds`: a session so far, `volumeRatio_bounds`, `direction_eq` and `range_ordered`.
* `bounded_of_snapshotAt`: all of them, of the snapshot of a candle.
-/

namespace NanoDelta.Strategies

open Library

/-! ### Smoothed series -/

section Smoothed

variable {s : Set ℚ} {period : ℕ} {values : List ℚ}

/-- A series that starts in a set which its updates keep stays in the set. -/
theorem mem_scanl {update : ℚ → ℚ → ℚ} (hupdate : ∀ current ∈ s, ∀ value ∈ s, update current value ∈ s) {seed : ℚ}
    (hseed : seed ∈ s) (hvalues : ∀ value ∈ values, value ∈ s) : ∀ v ∈ values.scanl update seed, v ∈ s := by
  induction values generalizing seed with
  | nil => simpa using hseed
  | cons value values ih =>
    obtain ⟨hvalue, hrest⟩ := List.forall_mem_cons.mp hvalues
    rw [List.scanl_cons]
    exact List.forall_mem_cons.mpr ⟨hseed, ih (hupdate seed hseed value hvalue) hrest⟩

/-- A smoothed series stays in a convex set that its updates keep. -/
theorem mem_seeded (hs : Convex ℚ s) (hperiod : 1 ≤ period) {update : ℚ → ℚ → ℚ}
    (hupdate : ∀ current ∈ s, ∀ value ∈ s, update current value ∈ s) (hvalues : ∀ value ∈ values, value ∈ s) {v : ℚ}
    (hv : some v ∈ seeded period update values) : v ∈ s := by
  unfold seeded at hv
  split_ifs at hv with hshort
  · exact absurd (List.eq_of_mem_replicate hv) (Option.some_ne_none v)
  · rcases List.mem_append.mp hv with hblank | hwarm
    · exact absurd (List.eq_of_mem_replicate hblank) (Option.some_ne_none v)
    · have hfull : (values.take period).length = period := by
        rw [List.length_take]
        omega
      have hseed : (values.take period).sum / period ∈ s := by
        have hne : values.take period ≠ [] := List.ne_nil_of_length_pos (by omega)
        have hmean := mean_mem hs hne fun value hvalue => hvalues value (List.mem_of_mem_take hvalue)
        rwa [hfull] at hmean
      obtain ⟨w, hw, heq⟩ := List.mem_map.mp hwarm
      cases heq
      exact mem_scanl hupdate hseed (fun value hvalue => hvalues value (List.mem_of_mem_drop hvalue)) _ hw

theorem mem_ema (hs : Convex ℚ s) (hperiod : 1 ≤ period) (hvalues : ∀ value ∈ values, value ∈ s) {v : ℚ}
    (hv : some v ∈ ema period values) : v ∈ s := by
  refine mem_seeded hs hperiod (fun current hcurrent value hvalue => ?_) hvalues hv
  have hone : (1 : ℚ) ≤ period := by exact_mod_cast hperiod
  apply blend_mem hs hcurrent hvalue (by positivity)
  rw [div_le_one (by positivity)]
  linarith

theorem mem_wilder (hs : Convex ℚ s) (hperiod : 1 ≤ period) (hvalues : ∀ value ∈ values, value ∈ s) {v : ℚ}
    (hv : some v ∈ wilder period values) : v ∈ s := by
  refine mem_seeded hs hperiod (fun current hcurrent value hvalue => ?_) hvalues hv
  have hone : (1 : ℚ) ≤ period := by exact_mod_cast hperiod
  have hweight : 1 / (period : ℚ) ≤ 1 := by
    rw [div_le_one (by positivity)]
    exact hone
  have hblend := blend_mem hs hcurrent hvalue (by positivity) hweight
  convert hblend using 1
  field_simp
  ring

/-- The value of a causal series is one of the values of the items up to its own. -/
theorem mem_of_valueAt {α : Type*} {F : List α → List (Option ℚ)} (hF : Causal F) {past : List α} {a : α}
    {rest : List α} {v : ℚ} (hv : valueAt (F (past ++ a :: rest)) past.length = some v) : some v ∈ F (past ++ [a]) := by
  have hcut : F (past ++ [a]) = (F (past ++ a :: rest)).take (past.length + 1) := by
    rw [← hF.take, List.take_length_add_append]
    rfl
  have hget := Option.join_eq_some_iff.mp hv
  rw [hcut]
  apply List.mem_of_getElem? (i := past.length)
  rw [List.getElem?_take, if_pos (by omega), hget]

end Smoothed

/-! ### Least and greatest values -/

section Extremes

variable {values : List ℚ}

theorem minimum_eq (values : List ℚ) : minimum values = values.min? := by
  cases values <;> rfl

theorem maximum_eq (values : List ℚ) : maximum values = values.max? := by
  cases values <;> rfl

/-- Values that there are lie between the least and the greatest one. -/
theorem exists_extremes (hne : values ≠ []) :
    ∃ low high, minimum values = some low ∧ maximum values = some high ∧
      ∀ value ∈ values, low ≤ value ∧ value ≤ high := by
  obtain ⟨low, hlow⟩ := Option.ne_none_iff_exists'.mp (mt List.min?_eq_none_iff.mp hne)
  obtain ⟨high, hhigh⟩ := Option.ne_none_iff_exists'.mp (mt List.max?_eq_none_iff.mp hne)
  refine ⟨low, high, (minimum_eq values).trans hlow, (maximum_eq values).trans hhigh, fun value hvalue => ?_⟩
  exact ⟨(List.min?_eq_some_iff.mp hlow).2 value hvalue, (List.max?_eq_some_iff.mp hhigh).2 value hvalue⟩

end Extremes

/-! ### Relative strength -/

/-- The averages that `rsi` divides are not negative. -/
theorem averages_nonneg {period : ℕ} (hperiod : 1 ≤ period) (closes : List ℚ) {v : ℚ} :
    (some v ∈ wilder period ((changes closes).map fun change => max change 0) → 0 ≤ v) ∧
      (some v ∈ wilder period ((changes closes).map fun change => max (-change) 0) → 0 ≤ v) := by
  have hcut : ∀ f : ℚ → ℚ, ∀ value ∈ (changes closes).map fun change => max (f change) 0, value ∈ Set.Ici (0 : ℚ) := by
    intro f value hvalue
    obtain ⟨change, -, rfl⟩ := List.mem_map.mp hvalue
    exact le_max_right (f change) 0
  exact ⟨mem_wilder (convex_Ici 0) hperiod (hcut id), mem_wilder (convex_Ici 0) hperiod (hcut Neg.neg)⟩

theorem strength_bounds {gain loss v : ℚ} (hgain : 0 ≤ gain) (hloss : 0 ≤ loss)
    (hv : strength (some gain) (some loss) = some v) : 0 ≤ v ∧ v ≤ 100 := by
  rw [strength, Option.some_inj] at hv
  split_ifs at hv with hzero
  · rw [← hv]
    norm_num
  · have hratio : 0 ≤ gain / loss := div_nonneg hgain hloss
    have hpart : 0 ≤ 100 / (1 + gain / loss) := by positivity
    have hwhole : 100 / (1 + gain / loss) ≤ 100 := div_le_self (by norm_num) (by linarith)
    rw [← hv]
    constructor <;> linarith

/-- The relative strength is a percentage. -/
theorem rsi_bounds {period : ℕ} (hperiod : 1 ≤ period) {closes : List ℚ} {v : ℚ} (hv : some v ∈ rsi closes period) :
    0 ≤ v ∧ v ≤ 100 := by
  cases closes with
  | nil => exact absurd hv List.not_mem_nil
  | cons close closes =>
    rcases List.mem_cons.mp hv with hnone | hv
    · exact absurd hnone (Option.some_ne_none v)
    · rw [← List.map_uncurry_zip_eq_zipWith] at hv
      obtain ⟨⟨gain, loss⟩, hmem, hstrength⟩ := List.mem_map.mp hv
      obtain ⟨hgain, hloss⟩ := List.of_mem_zip hmem
      cases gain with
      | none => cases hstrength
      | some gain =>
        cases loss with
        | none => cases hstrength
        | some loss =>
          have hnonneg := @averages_nonneg period hperiod (close :: closes)
          exact strength_bounds (hnonneg.1 hgain) (hnonneg.2 hloss) hstrength

/-! ### Ranges and directional movement -/

theorem TechnicalCandle.low_le_high (candle : TechnicalCandle) : candle.low ≤ candle.high :=
  candle.range.2.trans ((min_le_left _ _).trans ((le_max_left _ _).trans candle.range.1))

theorem trueRange_nonneg (previous candle : TechnicalCandle) : 0 ≤ trueRange previous candle :=
  le_max_of_le_left (le_max_of_le_left (sub_nonneg.mpr candle.low_le_high))

theorem positiveMove_nonneg (previous candle : TechnicalCandle) : 0 ≤ positiveMove previous candle := by
  unfold positiveMove
  dsimp only
  split_ifs with h
  · exact h.2.le
  · exact le_rfl

theorem negativeMove_nonneg (previous candle : TechnicalCandle) : 0 ≤ negativeMove previous candle := by
  unfold negativeMove
  dsimp only
  split_ifs with h
  · exact h.2.le
  · exact le_rfl

/-- What is not negative of any candle is not negative smoothed. -/
theorem smoothed_nonneg {period : ℕ} (hperiod : 1 ≤ period) {f : TechnicalCandle → TechnicalCandle → ℚ}
    (hf : ∀ previous candle, 0 ≤ f previous candle) {candles : List TechnicalCandle} {v : ℚ}
    (hv : some v ∈ wilder period ((withPrevious candles).map fun e => f e.1 e.2)) : 0 ≤ v := by
  refine mem_wilder (convex_Ici 0) hperiod (fun value hvalue => ?_) hv
  obtain ⟨e, -, rfl⟩ := List.mem_map.mp hvalue
  exact hf e.1 e.2

theorem atr_nonneg {period : ℕ} (hperiod : 1 ≤ period) {adxPeriod : ℕ} {candles : List TechnicalCandle} {v : ℚ}
    (hv : some v ∈ (atrAdx candles period adxPeriod).1) : 0 ≤ v :=
  smoothed_nonneg hperiod trueRange_nonneg hv

/-- The directional index of averages that are not negative is a percentage. -/
theorem directionalIndex_bounds {averageRange plus minus : Option ℚ} (hrange : ∀ v ∈ averageRange, 0 ≤ v)
    (hplus : ∀ v ∈ plus, 0 ≤ v) (hminus : ∀ v ∈ minus, 0 ≤ v) {v : ℚ}
    (hv : directionalIndex (averageRange, plus, minus) = some v) : 0 ≤ v ∧ v ≤ 100 := by
  have hdefault : ∀ value : Option ℚ, (∀ v ∈ value, 0 ≤ v) → 0 ≤ value.getD 0 := by
    intro value hvalue
    cases value with
    | none => exact le_rfl
    | some value => exact hvalue value rfl
  cases averageRange with
  | none => cases hv
  | some averageRange =>
    have hnonneg : 0 ≤ averageRange := hrange averageRange rfl
    have hplusDi : 0 ≤ 100 * plus.getD 0 / averageRange :=
      div_nonneg (mul_nonneg (by norm_num) (hdefault plus hplus)) hnonneg
    have hminusDi : 0 ≤ 100 * minus.getD 0 / averageRange :=
      div_nonneg (mul_nonneg (by norm_num) (hdefault minus hminus)) hnonneg
    simp only [directionalIndex] at hv
    generalize 100 * plus.getD 0 / averageRange = plusDi at hv hplusDi
    generalize 100 * minus.getD 0 / averageRange = minusDi at hv hminusDi
    split_ifs at hv with hflat hstill
    · cases hv
      norm_num
    · cases hv
      have htotal : 0 < plusDi + minusDi := (add_nonneg hplusDi hminusDi).lt_of_ne (Ne.symm hstill)
      have hdifference : |plusDi - minusDi| ≤ plusDi + minusDi := by
        rw [abs_le]
        constructor <;> linarith
      refine ⟨by positivity, ?_⟩
      rw [div_le_iff₀ htotal]
      linarith

theorem mem_of_mem_spread {v : ℚ} (slots values : List (Option ℚ)) (hv : some v ∈ spread slots values) :
    some v ∈ values := by
  fun_induction spread slots values with
  | case1 slot slots value values ih =>
    rcases List.mem_cons.mp hv with rfl | hv
    · exact List.mem_cons_self ..
    · exact List.mem_cons_of_mem _ (ih hv)
  | case2 slot slots values hneither ih =>
    rcases List.mem_cons.mp hv with hnone | hv
    · cases hnone
    · exact ih hv
  | case3 values => cases hv

theorem adx_bounds {period : ℕ} (hperiod : 1 ≤ period) {atrPeriod : ℕ} {candles : List TechnicalCandle} {v : ℚ}
    (hv : some v ∈ (atrAdx candles atrPeriod period).2) : 0 ≤ v ∧ v ≤ 100 := by
  refine mem_wilder (convex_Icc 0 100) hperiod (fun value hvalue => ?_) (mem_of_mem_spread _ _ hv)
  obtain ⟨slot, hslot, rfl⟩ := List.mem_filterMap.mp hvalue
  obtain ⟨⟨averageRange, plus, minus⟩, hmem, hdx⟩ := List.mem_map.mp hslot
  obtain ⟨hrange, hmoves⟩ := List.of_mem_zip hmem
  obtain ⟨hplus, hminus⟩ := List.of_mem_zip hmoves
  refine directionalIndex_bounds (fun v hv => ?_) (fun v hv => ?_) (fun v hv => ?_) hdx
  · exact smoothed_nonneg hperiod trueRange_nonneg (hv ▸ hrange)
  · exact smoothed_nonneg hperiod positiveMove_nonneg (hv ▸ hplus)
  · exact smoothed_nonneg hperiod negativeMove_nonneg (hv ▸ hminus)

/-! ### The super trend -/

/-- The direction is up or down. -/
theorem direction_eq (multiplier : ℚ) (state : TrendState)
    (rows : List ((TechnicalCandle × TechnicalCandle) × Option ℚ)) {e : ℚ × ℚ}
    (he : some e ∈ trendLoop multiplier state rows) : e.2 = 1 ∨ e.2 = -1 := by
  fun_induction trendLoop multiplier state rows with
  | case1 state => cases he
  | case2 state pair rest ih =>
    rcases List.mem_cons.mp he with hnone | he
    · cases hnone
    · exact ih he
  | case3 state previous candle averageRange rest trend state' hstep ih =>
    rcases List.mem_cons.mp he with hhere | he
    · cases hhere
      dsimp only
      split_ifs
      · exact Or.inl rfl
      · exact Or.inr rfl
    · exact ih he

/-! ### Sessions -/

/-- The session of a candle so far, after the candles before it: since the date last changed. -/
def session (past : List TechnicalCandle) (candle : TechnicalCandle) : List TechnicalCandle :=
  (past.rtakeWhile fun prior => prior.date = candle.date) ++ [candle]

/-- `typical`. -/
def TechnicalCandle.typical (candle : TechnicalCandle) : ℚ := (candle.high + candle.low + candle.close) / 3

/-- The sums of a session so far. -/
def sessionSums (past : List TechnicalCandle) (candle : TechnicalCandle) : SessionState where
  session := some candle.date
  weighted := ((session past candle).map fun c => c.typical * c.volume).sum
  volume := ((session past candle).map TechnicalCandle.volume).sum

/-- The first candle of a session. -/
theorem add_of_other_day {state : SessionState} {candle : TechnicalCandle} (h : state.session ≠ some candle.date) :
    state.add candle = ⟨some candle.date, candle.typical * candle.volume, candle.volume⟩ := by
  unfold SessionState.add
  rw [if_neg h]
  simp [TechnicalCandle.typical]

/-- The loop has the sums of the session, whatever came before it. -/
theorem foldl_add (past : List TechnicalCandle) (candle : TechnicalCandle) :
    (past ++ [candle]).foldl SessionState.add {} = sessionSums past candle := by
  induction past using List.reverseRecOn generalizing candle with
  | nil =>
    rw [List.nil_append, List.foldl_cons, List.foldl_nil, add_of_other_day (by simp)]
    simp [sessionSums, session]
  | append_singleton past prior ih =>
    rw [List.foldl_append, ih prior, List.foldl_cons, List.foldl_nil]
    by_cases hday : prior.date = candle.date
    · have hsession : session (past ++ [prior]) candle = session past prior ++ [candle] := by
        unfold session
        rw [List.rtakeWhile_concat_pos _ _ _ (by simpa using hday), hday]
      unfold SessionState.add sessionSums
      rw [hsession]
      simp [hday, TechnicalCandle.typical]
    · have hsession : session (past ++ [prior]) candle = [candle] := by
        unfold session
        rw [List.rtakeWhile_concat_neg _ _ _ (by simpa using hday), List.nil_append]
      rw [add_of_other_day (by simpa [sessionSums] using hday)]
      simp [sessionSums, hsession]

section Window

variable {window : List TechnicalCandle}

/-- The low and the high of a window that is not empty. -/
theorem window_range (hne : window ≠ []) :
    ∃ low high, minimum (window.map TechnicalCandle.low) = some low ∧
      maximum (window.map TechnicalCandle.high) = some high ∧ ∀ c ∈ window, low ≤ c.low ∧ c.high ≤ high := by
  have hlows : window.map TechnicalCandle.low ≠ [] := mt List.map_eq_nil_iff.mp hne
  have hhighs : window.map TechnicalCandle.high ≠ [] := mt List.map_eq_nil_iff.mp hne
  obtain ⟨low, _, hlow, -, hbelow⟩ := exists_extremes hlows
  obtain ⟨_, high, -, hhigh, habove⟩ := exists_extremes hhighs
  exact ⟨low, high, hlow, hhigh, fun c hc =>
    ⟨(hbelow _ (List.mem_map_of_mem hc)).1, (habove _ (List.mem_map_of_mem hc)).2⟩⟩

/-- A window has a low and a high, in this order, or it is empty and has neither. -/
theorem rel_window (window : List TechnicalCandle) :
    Option.Rel (· ≤ ·) (minimum (window.map TechnicalCandle.low)) (maximum (window.map TechnicalCandle.high)) := by
  cases window with
  | nil => exact .none
  | cons candle window =>
    obtain ⟨low, high, hlow, hhigh, hbetween⟩ := window_range (List.cons_ne_nil candle window)
    obtain ⟨hbelow, habove⟩ := hbetween candle (List.mem_cons_self ..)
    rw [hlow, hhigh]
    exact .some (hbelow.trans (candle.low_le_high.trans habove))

end Window

section Places

variable {past rest : List TechnicalCandle} {candle : TechnicalCandle}

/-- The average price of a session is between its low and its high. -/
theorem vwap_bounds {v : ℚ} (hv : valueAt (vwaps (past ++ candle :: rest)) past.length = some v) :
    ∃ low high, minimum ((session past candle).map TechnicalCandle.low) = some low ∧
      maximum ((session past candle).map TechnicalCandle.high) = some high ∧ low ≤ v ∧ v ≤ high := by
  have hne : session past candle ≠ [] := by simp [session]
  obtain ⟨low, high, hlow, hhigh, hbetween⟩ := window_range hne
  refine ⟨low, high, hlow, hhigh, ?_⟩
  have hsums : valueAt (vwaps (past ++ candle :: rest)) past.length = (sessionSums past candle).vwap := by
    have hlast : past.length + 1 ≤ (past ++ candle :: rest).length := by simp
    unfold valueAt vwaps
    rw [List.getElem?_map, List.getElem?_tail, List.getElem?_scanl, if_pos hlast, List.take_length_add_append,
      List.take_succ_cons, List.take_zero, foldl_add]
    rfl
  rw [hsums] at hv
  unfold SessionState.vwap at hv
  split_ifs at hv with hpos
  rw [← Option.some.inj hv]
  refine weighted_mem TechnicalCandle.volume TechnicalCandle.typical (convex_Icc low high)
    (fun c _ => c.volume_nonneg) (fun c hc => ?_) hpos
  obtain ⟨hbelow, habove⟩ := hbetween c hc
  have hclose : c.low ≤ c.close ∧ c.close ≤ c.high :=
    ⟨c.range.2.trans (min_le_right _ _), (le_max_right _ _).trans c.range.1⟩
  have hrange := c.low_le_high
  unfold TechnicalCandle.typical
  constructor <;> linarith

/-- A value over the mean of values that are not negative, of which it is one. -/
theorem div_mean_bounds {values : List ℚ} (hvalues : ∀ value ∈ values, 0 ≤ value) {value : ℚ} (hvalue : value ∈ values)
    (hpos : 0 < mean values) : 0 ≤ value / mean values ∧ value / mean values ≤ values.length := by
  refine ⟨div_nonneg (hvalues value hvalue) hpos.le, ?_⟩
  have hlength : (0 : ℚ) < values.length := by exact_mod_cast List.length_pos_of_mem hvalue
  have hsum : value ≤ values.sum := List.single_le_sum hvalues value hvalue
  rw [div_le_iff₀ hpos, mean, mul_div_cancel₀ _ hlength.ne']
  exact hsum

/-- A volume is at most as many times the average of its window as the window is long. -/
theorem volumeRatio_bounds {period : ℕ} (hperiod : 1 ≤ period) {v : ℚ}
    (hv : valueAt (volumeRatios (past ++ candle :: rest) period) past.length = some v) : 0 ≤ v ∧ v ≤ period := by
  have hwindow : windowUpTo (past ++ candle :: rest) period past.length =
      past.drop (past.length + 1 - period) ++ [candle] := by
    unfold windowUpTo
    rw [List.take_length_add_append, List.take_succ_cons, List.take_zero, List.drop_append_of_le_length (by omega)]
  unfold valueAt volumeRatios at hv
  rw [List.getElem?_mapIdx, List.getElem?_append_right le_rfl, Nat.sub_self, List.getElem?_cons_zero, Option.map_some,
    Option.join_some, hwindow] at hv
  generalize hlist : (past.drop (past.length + 1 - period) ++ [candle]).map TechnicalCandle.volume = volumes at hv
  dsimp only at hv
  split_ifs at hv with hpos
  cases hv
  have hlength : volumes.length ≤ period := by
    rw [← hlist, List.length_map, List.length_append, List.length_drop, List.length_singleton]
    omega
  have hnonneg : ∀ volume ∈ volumes, 0 ≤ volume := by
    intro volume hvolume
    obtain ⟨c, -, rfl⟩ := List.mem_map.mp (hlist ▸ hvolume)
    exact c.volume_nonneg
  have hmem : candle.volume ∈ volumes := by
    rw [← hlist]
    exact List.mem_map_of_mem (List.mem_append_right _ (List.mem_singleton_self candle))
  obtain ⟨hbelow, habove⟩ := div_mean_bounds hnonneg hmem hpos
  exact ⟨hbelow, habove.trans (by exact_mod_cast hlength)⟩

end Places

theorem rollingRange_ordered (candles : List TechnicalCandle) (period : ℕ) :
    ∀ e ∈ rollingRange candles period, Option.Rel (· ≤ ·) e.2 e.1 := by
  intro e he
  obtain ⟨index, hindex, rfl⟩ := List.mem_mapIdx.mp he
  dsimp only
  split_ifs
  · exact .none
  · exact rel_window _

theorem openingRange_ordered (candles : List TechnicalCandle) (minutes : ℤ) :
    ∀ e ∈ openingRange candles minutes, Option.Rel (· ≤ ·) e.2 e.1 := by
  intro e he
  obtain ⟨index, hindex, rfl⟩ := List.mem_mapIdx.mp he
  dsimp only
  split_ifs
  · exact rel_window _
  · exact .none

/-- The low and the high of a range, at each place. -/
theorem rel_valueAt {ranges : List (Option ℚ × Option ℚ)} (h : ∀ e ∈ ranges, Option.Rel (· ≤ ·) e.2 e.1) (index : ℕ) :
    Option.Rel (· ≤ ·) (valueAt (ranges.map Prod.snd) index) (valueAt (ranges.map Prod.fst) index) := by
  unfold valueAt
  rw [List.getElem?_map, List.getElem?_map]
  cases hget : ranges[index]? with
  | none => exact .none
  | some e => exact h e (List.mem_of_getElem? hget)

/-! ### Snapshots -/

section Values

variable {es : List (String × Option ℚ)} {key : String}

theorem get?_setSome (values : Dict String ℚ) (e : String × Option ℚ) (key : String) :
    (setSome values e).get? key = if key = e.1 then e.2.or (values.get? key) else values.get? key := by
  obtain ⟨name, _ | value⟩ := e
  · simp [setSome]
  · simp [setSome, Dict.get?_set]

/-- A key that is not among the names keeps its value. -/
theorem get?_of_not_mem (h : key ∉ es.map Prod.fst) (values : Dict String ℚ) :
    (es.foldl setSome values).get? key = values.get? key := by
  induction es generalizing values with
  | nil => rfl
  | cons e es ih =>
    obtain ⟨hne, hrest⟩ := not_or.mp (mt List.mem_cons.mpr h)
    rw [List.foldl_cons, ih hrest, get?_setSome, if_neg hne]

/-- A key has the value of its name, if the names differ and there is one. -/
theorem get?_of_mem (hnodup : (es.map Prod.fst).Nodup) {value : Option ℚ} (hmem : (key, value) ∈ es)
    (values : Dict String ℚ) : (es.foldl setSome values).get? key = value.or (values.get? key) := by
  induction es generalizing values with
  | nil => cases hmem
  | cons e es ih =>
    obtain ⟨hfirst, hrest⟩ := List.nodup_cons.mp hnodup
    rw [List.foldl_cons]
    rcases List.mem_cons.mp hmem with rfl | hmem
    · rw [get?_of_not_mem hfirst, get?_setSome, if_pos rfl]
    · have hne : key ≠ e.1 := fun heq => hfirst (heq ▸ List.mem_map_of_mem hmem)
      rw [ih hrest hmem, get?_setSome, if_neg hne]

end Values

section Snapshot

variable {needed optional : List (String × List (Option ℚ))} {index : ℕ} {candle : TechnicalCandle}
  {snapshot : TechnicalFeatureSnapshot}

/-- An indicator that a snapshot needs is in it. -/
theorem get?_needed (h : snapshotAt needed optional index candle = some snapshot)
    (hnodup : (needed.map Prod.fst).Nodup) {key : String} {series : List (Option ℚ)} (hmem : (key, series) ∈ needed)
    (hoptional : key ∉ optional.map Prod.fst) :
    ∃ v, snapshot.values.get? key = some v ∧ valueAt series index = some v := by
  unfold snapshotAt at h
  dsimp only at h
  split_ifs at h with hwarm
  cases h
  have hvalue : (key, valueAt series index) ∈ needed.map fun e => (e.1, valueAt e.2 index) :=
    List.mem_map.mpr ⟨_, hmem, rfl⟩
  have hsome : (valueAt series index).isNone ≠ true := fun hnone => hwarm (List.any_eq_true.mpr ⟨_, hvalue, hnone⟩)
  obtain ⟨v, hv⟩ := Option.ne_none_iff_exists'.mp (mt Option.isNone_iff_eq_none.mpr hsome)
  refine ⟨v, ?_, hv⟩
  rw [get?_of_not_mem (by simpa [Function.comp_def] using hoptional),
    get?_of_mem (by simpa [Function.comp_def] using hnodup) hvalue, hv, Option.some_or]

/-- An optional indicator is in a snapshot, if it has a value. -/
theorem get?_optional (h : snapshotAt needed optional index candle = some snapshot)
    (hnodup : (optional.map Prod.fst).Nodup) {key : String} {series : List (Option ℚ)} (hmem : (key, series) ∈ optional)
    (hneeded : key ∉ needed.map Prod.fst) (hcandle : (candleValues candle).get? key = none) :
    snapshot.values.get? key = valueAt series index := by
  unfold snapshotAt at h
  dsimp only at h
  split_ifs at h with hwarm
  cases h
  have hvalue : (key, valueAt series index) ∈ optional.map fun e => (e.1, valueAt e.2 index) :=
    List.mem_map.mpr ⟨_, hmem, rfl⟩
  rw [get?_of_mem (by simpa [Function.comp_def] using hnodup) hvalue,
    get?_of_not_mem (by simpa [Function.comp_def] using hneeded), hcandle, Option.or_none]

end Snapshot

/-- The names of the indicators that a snapshot needs. -/
def neededNames : List String :=
  ["ema_9", "ema_21", "rsi_14", "atr_14", "adx_14", "supertrend", "supertrend_direction", "vwap", "volume_ratio_20"]

/-- The names of those that it may have. -/
def optionalNames : List String :=
  ["range_high_20", "range_low_20", "range_high_10", "range_low_10", "range_high_5", "range_low_5",
    "opening_range_high", "opening_range_low"]

/-- The names of the values of a candle itself. -/
def candleNames : List String := ["close", "high", "low", "body_pct"]

/-- The names of the low and the high of each range. -/
def rangeNames : List (String × String) :=
  [("range_low_20", "range_high_20"), ("range_low_10", "range_high_10"), ("range_low_5", "range_high_5"),
    ("opening_range_low", "opening_range_high")]

/-- What holds of the values of a snapshot at a candle, after the candles before it. -/
structure Bounded (past : List TechnicalCandle) (candle : TechnicalCandle) (values : Dict String ℚ) : Prop where
  rsi : ∃ v, values.get? "rsi_14" = some v ∧ 0 ≤ v ∧ v ≤ 100
  adx : ∃ v, values.get? "adx_14" = some v ∧ 0 ≤ v ∧ v ≤ 100
  atr : ∃ v, values.get? "atr_14" = some v ∧ 0 ≤ v
  /-- Each average of closes is between the least and the greatest close so far. -/
  ema : ∀ key ∈ ["ema_9", "ema_21"], ∃ v low high, values.get? key = some v ∧
    minimum ((past ++ [candle]).map TechnicalCandle.close) = some low ∧
    maximum ((past ++ [candle]).map TechnicalCandle.close) = some high ∧ low ≤ v ∧ v ≤ high
  /-- The average price is between the least low and the greatest high of the session so far. -/
  vwap : ∃ v low high, values.get? "vwap" = some v ∧
    minimum ((session past candle).map TechnicalCandle.low) = some low ∧
    maximum ((session past candle).map TechnicalCandle.high) = some high ∧ low ≤ v ∧ v ≤ high
  volumeRatio : ∃ v, values.get? "volume_ratio_20" = some v ∧ 0 ≤ v ∧ v ≤ 20
  direction : ∃ v, values.get? "supertrend_direction" = some v ∧ (v = 1 ∨ v = -1)
  /-- A range has a low and a high, in this order, or neither. -/
  ranges : ∀ names ∈ rangeNames, Option.Rel (· ≤ ·) (values.get? names.1) (values.get? names.2)

/-- The periods that `materialize_technical_features` takes. -/
structure TechnicalPeriods.Valid (periods : TechnicalPeriods) : Prop where
  rsi : 2 ≤ periods.rsiPeriod
  atr : 2 ≤ periods.atrPeriod
  adx : 2 ≤ periods.adxPeriod
  multiplier : 0 < periods.supertrendMultiplier

section Bounds

variable {past rest : List TechnicalCandle} {candle : TechnicalCandle} {periods : TechnicalPeriods}

theorem ema_bounds {period : ℕ} (hperiod : 1 ≤ period) {v : ℚ}
    (hv : valueAt (ema period ((past ++ candle :: rest).map TechnicalCandle.close)) past.length = some v) :
    ∃ low high, minimum ((past ++ [candle]).map TechnicalCandle.close) = some low ∧
      maximum ((past ++ [candle]).map TechnicalCandle.close) = some high ∧ low ≤ v ∧ v ≤ high := by
  have hcausal : Causal fun candles : List TechnicalCandle => ema period (candles.map TechnicalCandle.close) :=
    (causal_ema hperiod).comp (causal_map TechnicalCandle.close)
  have hne : (past ++ [candle]).map TechnicalCandle.close ≠ [] := by simp
  obtain ⟨low, high, hlow, hhigh, hbetween⟩ := exists_extremes hne
  exact ⟨low, high, hlow, hhigh, mem_ema (convex_Icc low high) hperiod hbetween (mem_of_valueAt hcausal hv)⟩

variable {ordered : List TechnicalCandle} {index : ℕ} {snapshot : TechnicalFeatureSnapshot}

/-- The indicators that every snapshot has. -/
theorem exists_indicator
    (h : snapshotAt (indicatorSeries ordered periods).1 (indicatorSeries ordered periods).2 index candle =
      some snapshot)
    (key : String) (series : List (Option ℚ)) (hmem : (key, series) ∈ (indicatorSeries ordered periods).1)
    (hkey : key ∉ optionalNames) : ∃ v, snapshot.values.get? key = some v ∧ valueAt series index = some v := by
  have hnodup : ((indicatorSeries ordered periods).1.map Prod.fst).Nodup := by
    change neededNames.Nodup
    decide
  exact get?_needed h hnodup hmem hkey

/-- The indicators that it may have. -/
theorem get?_indicator
    (h : snapshotAt (indicatorSeries ordered periods).1 (indicatorSeries ordered periods).2 index candle =
      some snapshot)
    (key : String) (series : List (Option ℚ)) (hmem : (key, series) ∈ (indicatorSeries ordered periods).2)
    (hkey : key ∉ neededNames ++ candleNames) : snapshot.values.get? key = valueAt series index := by
  have hnodup : ((indicatorSeries ordered periods).2.map Prod.fst).Nodup := by
    change optionalNames.Nodup
    decide
  obtain ⟨hother, hown⟩ := not_or.mp (mt List.mem_append.mpr hkey)
  simp only [candleNames, List.mem_cons, List.not_mem_nil, or_false, not_or] at hown
  apply get?_optional h hnodup hmem hother
  simp [candleValues, Dict.get?_set, hown]

/-- A range of a snapshot. -/
theorem rel_rollingRange
    (h : snapshotAt (indicatorSeries ordered periods).1 (indicatorSeries ordered periods).2 index candle =
      some snapshot)
    (low high : String) (period : ℕ)
    (hlow : (low, (rollingRange ordered period).map Prod.snd) ∈ (indicatorSeries ordered periods).2)
    (hhigh : (high, (rollingRange ordered period).map Prod.fst) ∈ (indicatorSeries ordered periods).2)
    (hlowKey : low ∉ neededNames ++ candleNames) (hhighKey : high ∉ neededNames ++ candleNames) :
    Option.Rel (· ≤ ·) (snapshot.values.get? low) (snapshot.values.get? high) := by
  rw [get?_indicator h low _ hlow hlowKey, get?_indicator h high _ hhigh hhighKey]
  exact rel_valueAt (rollingRange_ordered ordered period) index

/-- **The bounds** of the snapshot of a candle. -/
theorem bounded_of_snapshotAt (hvalid : periods.Valid) (hordered : ordered = past ++ candle :: rest)
    (h : snapshotAt (indicatorSeries ordered periods).1 (indicatorSeries ordered periods).2 past.length candle =
      some snapshot) :
    Bounded past candle snapshot.values := by
  obtain ⟨hrsi, hatr, hadx, -⟩ := hvalid
  have need := exists_indicator h
  have hplace : ∀ {series : List (Option ℚ)} {v : ℚ}, valueAt series past.length = some v → some v ∈ series :=
    fun hv => List.mem_of_getElem? (Option.join_eq_some_iff.mp hv)
  constructor
  case rsi =>
    obtain ⟨v, hget, hv⟩ := need "rsi_14" (rsi (ordered.map TechnicalCandle.close) periods.rsiPeriod)
      (by simp [indicatorSeries]) (by decide)
    exact ⟨v, hget, rsi_bounds (by omega : 1 ≤ periods.rsiPeriod) (hplace hv)⟩
  case adx =>
    obtain ⟨v, hget, hv⟩ := need "adx_14" (atrAdx ordered periods.atrPeriod periods.adxPeriod).2
      (by simp [indicatorSeries]) (by decide)
    exact ⟨v, hget, adx_bounds (by omega : 1 ≤ periods.adxPeriod) (hplace hv)⟩
  case atr =>
    obtain ⟨v, hget, hv⟩ := need "atr_14" (atrAdx ordered periods.atrPeriod periods.adxPeriod).1
      (by simp [indicatorSeries]) (by decide)
    exact ⟨v, hget, atr_nonneg (by omega : 1 ≤ periods.atrPeriod) (hplace hv)⟩
  case ema =>
    intro key hkey
    simp only [List.mem_cons, List.not_mem_nil, or_false] at hkey
    rcases hkey with rfl | rfl
    · obtain ⟨v, hget, hv⟩ := need "ema_9" (ema 9 (ordered.map TechnicalCandle.close))
        (by simp [indicatorSeries]) (by decide)
      obtain ⟨low, high, hbounds⟩ := ema_bounds (by omega : 1 ≤ 9) (hordered ▸ hv)
      exact ⟨v, low, high, hget, hbounds⟩
    · obtain ⟨v, hget, hv⟩ := need "ema_21" (ema 21 (ordered.map TechnicalCandle.close))
        (by simp [indicatorSeries]) (by decide)
      obtain ⟨low, high, hbounds⟩ := ema_bounds (by omega : 1 ≤ 21) (hordered ▸ hv)
      exact ⟨v, low, high, hget, hbounds⟩
  case vwap =>
    obtain ⟨v, hget, hv⟩ := need "vwap" (vwaps ordered) (by simp [indicatorSeries]) (by decide)
    obtain ⟨low, high, hbounds⟩ := vwap_bounds (hordered ▸ hv)
    exact ⟨v, low, high, hget, hbounds⟩
  case volumeRatio =>
    obtain ⟨v, hget, hv⟩ := need "volume_ratio_20" (volumeRatios ordered 20) (by simp [indicatorSeries]) (by decide)
    exact ⟨v, hget, by exact_mod_cast volumeRatio_bounds (by omega : 1 ≤ 20) (hordered ▸ hv)⟩
  case direction =>
    obtain ⟨v, hget, hv⟩ := need "supertrend_direction"
      ((supertrend ordered (atrAdx ordered periods.atrPeriod periods.adxPeriod).1 periods.supertrendMultiplier).map
        fun e => e.map Prod.snd) (by simp [indicatorSeries]) (by decide)
    obtain ⟨e, he, hdirection⟩ := List.mem_map.mp (hplace hv)
    obtain ⟨pair, rfl, rfl⟩ := Option.map_eq_some_iff.mp hdirection
    exact ⟨_, hget, direction_eq _ _ _ he⟩
  case ranges =>
    intro names hnames
    simp only [rangeNames, List.mem_cons, List.not_mem_nil, or_false] at hnames
    rcases hnames with rfl | rfl | rfl | rfl
    · exact rel_rollingRange h _ _ 20 (by simp [indicatorSeries]) (by simp [indicatorSeries]) (by decide) (by decide)
    · exact rel_rollingRange h _ _ 10 (by simp [indicatorSeries]) (by simp [indicatorSeries]) (by decide) (by decide)
    · exact rel_rollingRange h _ _ 5 (by simp [indicatorSeries]) (by simp [indicatorSeries]) (by decide) (by decide)
    · have hlow := get?_indicator h "opening_range_low" ((openingRange ordered 15).map Prod.snd)
        (by simp [indicatorSeries]) (by decide)
      have hhigh := get?_indicator h "opening_range_high" ((openingRange ordered 15).map Prod.fst)
        (by simp [indicatorSeries]) (by decide)
      rw [hlow, hhigh]
      exact rel_valueAt (openingRange_ordered ordered 15) _

end Bounds

end NanoDelta.Strategies
