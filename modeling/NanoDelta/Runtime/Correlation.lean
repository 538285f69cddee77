import Mathlib.Data.Rat.Sqrt
import NanoDelta.Library.Series
import NanoDelta.Records

/-!
# Correlations of returns

`runtime/correlation.py`: the correlation of the daily returns of two symbols, from their newest settled candles in
Silver. The square root of the runtime is a parameter.

* `fetchDailyCloses`, `computeReturnCorrelations`, `fetchReturnCorrelations`: the functions.
* `pairedReturns`: the returns that are paired, with their days.
* `same_days_iff`: when the returns of a pair are always of the same days.
-/

namespace NanoDelta.Runtime

open Library

/-! ### Closes -/

/-- `_LOOKBACK_BARS`. -/
def lookbackBars : ℕ := 90

/-- `_MINIMUM_OVERLAP`. -/
def minimumOverlap : ℕ := 20

section Closes

variable (silver : List CanonicalCandle) (market : Market) (symbols : List String)

/-- The rows of the query: by symbol, the newest first. -/
def dailyRows : List CanonicalCandle :=
  (silver.filter fun c =>
      c.market = market ∧ c.symbol ∈ symbols ∧ c.timeframe = "1d" ∧ c.isSettled = true).insertionSort
    fun a b => a.symbol < b.symbol ∨ a.symbol = b.symbol ∧ b.openTime ≤ a.openTime

/-- What `_fetch_daily_closes` does with a row. -/
def addClose (closes : Dict String (List ℚ)) (row : CanonicalCandle) : Dict String (List ℚ) :=
  let bucket := (closes.get? row.symbol).getD []
  closes.set row.symbol (if bucket.length < lookbackBars then bucket ++ [row.close] else bucket)

/-- `_fetch_daily_closes`. -/
def fetchDailyCloses : Dict String (List ℚ) :=
  ((dailyRows silver market symbols).foldl addClose .empty).mapValues List.reverse

end Closes

/-! ### Correlations -/

section Correlations

variable (sqrt : ℚ → ℚ)

/-- The sum of the products of two lists' distances from their means. -/
def comoment (x y : List ℚ) : ℚ :=
  (x.zipWith (fun xi yi => (xi - x.sum / x.length) * (yi - y.sum / x.length)) y).sum

/-- `_pearson`, of lists of one length that are not empty. -/
def pearson (x y : List ℚ) : Option ℚ :=
  let denominator := sqrt (comoment x x * comoment y y)
  if denominator = 0 then none else some (comoment x y / denominator)

/-- The simple returns of closes: those from a close that is positive. -/
def returns (closes : List ℚ) : List ℚ :=
  (adjacent closes).filterMap fun (previous, close) =>
    if 0 < previous then some ((close - previous) / previous) else none

/-- `values[-overlap:]`, for a positive number. -/
def newest {α : Type} (overlap : ℕ) (values : List α) : List α := values.drop (values.length - overlap)

/-- The correlation of two lists of returns, if it is reported. -/
def correlation (a b : List ℚ) : Option ℚ :=
  let overlap := min a.length b.length
  if overlap < minimumOverlap then none else pearson sqrt (newest overlap a) (newest overlap b)

/-- The pairs of items of a list in their order. -/
def orderedPairs {α : Type} : List α → List (α × α)
  | [] => []
  | first :: later => later.map (fun second => (first, second)) ++ orderedPairs later

/-- `compute_return_correlations`, with its `minimum_overlap`. -/
def computeReturnCorrelations (closesBySymbol : Dict String (List ℚ)) : Dict (String × String) ℚ :=
  let returnsBySymbol := closesBySymbol.mapValues returns
  let symbols := (returnsBySymbol.entries.map Prod.fst).insertionSort (· ≤ ·)
  (orderedPairs symbols).foldl (fun result pair =>
    (correlation sqrt ((returnsBySymbol.get? pair.1).getD []) ((returnsBySymbol.get? pair.2).getD [])).elim result
      (result.set pair)) .empty

/-- `fetch_return_correlations`. -/
def fetchReturnCorrelations (silver : List CanonicalCandle) (market : Market) (symbols : List String) :
    Dict (String × String) ℚ :=
  computeReturnCorrelations sqrt (fetchDailyCloses silver market symbols)

end Correlations

/-! ### The closes of a symbol -/

/-- The newest settled daily candles of a symbol, in order. -/
def dailyCandles (silver : List CanonicalCandle) (market : Market) (symbols : List String) (symbol : String) :
    List CanonicalCandle :=
  (((dailyRows silver market symbols).filter fun c => c.symbol = symbol).take lookbackBars).reverse

theorem take_concat_take (n : ℕ) {α : Type} (as : List α) (a : α) (bs : List α) (h : as.length ≤ n) :
    ((if as.length < n then as ++ [a] else as) ++ bs).take n = (as ++ a :: bs).take n := by
  split_ifs with hlt
  · simp
  · obtain rfl : n = as.length := by omega
    simp

theorem length_addClose_le {closes : Dict String (List ℚ)} {symbol : String}
    (hshort : ((closes.get? symbol).getD []).length ≤ lookbackBars) (row : CanonicalCandle) :
    (((addClose closes row).get? symbol).getD []).length ≤ lookbackBars := by
  unfold addClose
  dsimp only
  rw [Dict.get?_set]
  split_ifs with hsymbol hroom
  · subst hsymbol
    rw [Option.getD_some, List.length_append]
    exact Nat.succ_le_of_lt hroom
  · subst hsymbol
    exact hshort
  · exact hshort

/-- The bucket of a symbol after some rows. -/
theorem getD_foldl_addClose (rows : List CanonicalCandle) {closes : Dict String (List ℚ)} {symbol : String}
    (hshort : ((closes.get? symbol).getD []).length ≤ lookbackBars) :
    ((rows.foldl addClose closes).get? symbol).getD [] =
      ((closes.get? symbol).getD [] ++ (rows.filter fun c => c.symbol = symbol).map CanonicalCandle.close).take
        lookbackBars := by
  induction rows generalizing closes with
  | nil => simp [List.take_of_length_le hshort]
  | cons row rows ih =>
    rw [List.foldl_cons, ih (length_addClose_le hshort row)]
    unfold addClose
    dsimp only
    rw [Dict.get?_set]
    by_cases hsymbol : symbol = row.symbol
    · subst hsymbol
      simpa using take_concat_take lookbackBars _ row.close _ hshort
    · simp [hsymbol, Ne.symm hsymbol]

section Symbols

variable {silver : List CanonicalCandle} {market : Market} {symbols : List String}

/-- The closes that are fetched for a symbol. -/
theorem getD_fetchDailyCloses (symbol : String) : ((fetchDailyCloses silver market symbols).get? symbol).getD [] =
    (dailyCandles silver market symbols symbol).map CanonicalCandle.close := by
  have hstart : (((Dict.empty : Dict String (List ℚ)).get? symbol).getD []).length ≤ lookbackBars := Nat.zero_le _
  have hbucket := getD_foldl_addClose (dailyRows silver market symbols) hstart
  rw [Dict.get?_empty, Option.getD_none, List.nil_append, ← List.map_take] at hbucket
  unfold fetchDailyCloses dailyCandles
  rw [Dict.get?_mapValues, List.map_reverse, ← hbucket]
  cases ((dailyRows silver market symbols).foldl addClose .empty).get? symbol <;> rfl

end Symbols

/-! ### Returns with their days -/

/-- The return from a daily candle to the next one, with the times at which they open. -/
structure DailyReturn where
  opened : Instant
  next : Instant
  value : ℚ

/-- The returns of candles: those from a close that is positive. -/
def dailyReturns (candles : List CanonicalCandle) : List DailyReturn :=
  (adjacent candles).filterMap fun (previous, candle) =>
    if 0 < previous.close then
      some ⟨previous.openTime, candle.openTime, (candle.close - previous.close) / previous.close⟩
    else none

/-- How many returns of each of two symbols are paired. -/
def overlap (first second : List CanonicalCandle) : ℕ := min (dailyReturns first).length (dailyReturns second).length

/-- The returns of two symbols that are paired. -/
def pairedReturns (first second : List CanonicalCandle) : List (DailyReturn × DailyReturn) :=
  (newest (overlap first second) (dailyReturns first)).zip (newest (overlap first second) (dailyReturns second))

variable (day : Instant → ℤ)

/-- The days of two candles that follow each other, the first one with a positive close. -/
def steps (candles : List CanonicalCandle) : List (ℤ × ℤ) :=
  (adjacent candles).filterMap fun (previous, candle) =>
    if 0 < previous.close then some (day previous.openTime, day candle.openTime) else none

/-- The last steps of the two are the same, as many as the shorter one has. -/
def SameSteps (first second : List CanonicalCandle) : Prop :=
  let shorter := min (steps day first).length (steps day second).length
  newest shorter (steps day first) = newest shorter (steps day second)

/-- The two have enough returns, which vary. -/
def Compared (sqrt : ℚ → ℚ) (first second : List CanonicalCandle) : Prop :=
  minimumOverlap ≤ overlap first second ∧
    sqrt (comoment (newest (overlap first second) (returns (first.map CanonicalCandle.close)))
        (newest (overlap first second) (returns (first.map CanonicalCandle.close))) *
      comoment (newest (overlap first second) (returns (second.map CanonicalCandle.close)))
        (newest (overlap first second) (returns (second.map CanonicalCandle.close)))) ≠ 0

/-- A number is the correlation of paired returns, each two of the same two days. -/
def OfSameDays (sqrt : ℚ → ℚ) (first second : List CanonicalCandle) (c : ℚ) : Prop :=
  pearson sqrt ((pairedReturns first second).map fun p => p.1.value)
      ((pairedReturns first second).map fun p => p.2.value) = some c ∧
    ∀ p ∈ pairedReturns first second, day p.1.opened = day p.2.opened ∧ day p.1.next = day p.2.next

variable {day} {first second candles : List CanonicalCandle}

theorem returns_close : returns (candles.map CanonicalCandle.close) = (dailyReturns candles).map DailyReturn.value := by
  unfold returns dailyReturns
  rw [adjacent_map, List.filterMap_map, List.map_filterMap]
  apply List.filterMap_congr
  rintro ⟨previous, candle⟩ -
  by_cases h : 0 < previous.close
  · simp [h]
  · simp [h]

theorem steps_eq : steps day candles = (dailyReturns candles).map fun r => (day r.opened, day r.next) := by
  unfold steps dailyReturns
  rw [List.map_filterMap]
  apply List.filterMap_congr
  rintro ⟨previous, candle⟩ -
  by_cases h : 0 < previous.close
  · simp [h]
  · simp [h]

theorem newest_map {α β : Type} (f : α → β) (n : ℕ) (as : List α) : newest n (as.map f) = (newest n as).map f := by
  unfold newest
  rw [List.length_map, List.map_drop]

theorem length_newest {α : Type} {n : ℕ} {as : List α} (h : n ≤ as.length) : (newest n as).length = n := by
  unfold newest
  rw [List.length_drop]
  omega

theorem length_paired : (newest (overlap first second) (dailyReturns first)).length = overlap first second ∧
    (newest (overlap first second) (dailyReturns second)).length = overlap first second :=
  ⟨length_newest (min_le_left _ _), length_newest (min_le_right _ _)⟩

/-- The values of the returns that are paired. -/
theorem pairedReturns_values :
    (pairedReturns first second).map (fun p => p.1.value) =
        newest (overlap first second) (returns (first.map CanonicalCandle.close)) ∧
      (pairedReturns first second).map (fun p => p.2.value) =
        newest (overlap first second) (returns (second.map CanonicalCandle.close)) := by
  obtain ⟨hfirst, hsecond⟩ := @length_paired first second
  rw [returns_close, returns_close, newest_map, newest_map]
  constructor
  · have hfst : (pairedReturns first second).map (fun p => p.1.value) =
        ((pairedReturns first second).map Prod.fst).map DailyReturn.value := by
      rw [List.map_map]
      rfl
    rw [hfst, pairedReturns, List.map_fst_zip (hfirst.trans hsecond.symm).le]
  · have hsnd : (pairedReturns first second).map (fun p => p.2.value) =
        ((pairedReturns first second).map Prod.snd).map DailyReturn.value := by
      rw [List.map_map]
      rfl
    rw [hsnd, pairedReturns, List.map_snd_zip (hsecond.trans hfirst.symm).le]

/-- Two lists that are equal item by item. -/
theorem map_eq_map_iff {α β : Type} (f : α → β) {as bs : List α} (h : as.length = bs.length) :
    as.map f = bs.map f ↔ ∀ p ∈ as.zip bs, f p.1 = f p.2 := by
  induction as generalizing bs with
  | nil =>
    obtain rfl := List.length_eq_zero_iff.mp h.symm
    simp
  | cons a as ih =>
    cases bs with
    | nil => cases h
    | cons b bs =>
      rw [List.map_cons, List.map_cons, List.cons.injEq, ih (Nat.succ.inj h), List.zip_cons_cons, List.forall_mem_cons]

/-- **The steps are the same** just if the returns that are paired are of the same days. -/
theorem sameSteps_iff : SameSteps day first second ↔
    ∀ p ∈ pairedReturns first second, day p.1.opened = day p.2.opened ∧ day p.1.next = day p.2.next := by
  obtain ⟨hfirst, hsecond⟩ := @length_paired first second
  unfold SameSteps
  rw [steps_eq, steps_eq, List.length_map, List.length_map]
  show newest (overlap first second) _ = newest (overlap first second) _ ↔ _
  rw [newest_map, newest_map, map_eq_map_iff _ (hfirst.trans hsecond.symm)]
  simp only [Prod.mk.injEq]
  rfl

/-! ### Candles with positive closes -/

/-- With positive closes there is a return from each candle but the last one. -/
theorem steps_of_pos (h : ∀ candle ∈ candles, 0 < candle.close) :
    steps day candles = adjacent (candles.map fun candle => day candle.openTime) := by
  unfold steps
  rw [adjacent_map, ← List.filterMap_eq_map]
  apply List.filterMap_congr
  rintro ⟨previous, candle⟩ hmem
  exact if_pos (h previous (List.of_mem_zip hmem).1)

theorem newest_adjacent {α : Type} {n : ℕ} {as : List α} (hn : 1 ≤ n) (h : n ≤ as.length) :
    newest (n - 1) (adjacent as) = adjacent (newest n as) := by
  unfold newest
  rw [adjacent_drop, length_adjacent]
  congr 1
  omega

/-- **Two symbols with positive closes** have the same steps just if their last candles, as many as the shorter one has,
are of the same days. -/
theorem sameSteps_of_pos (hfirst : ∀ candle ∈ first, 0 < candle.close) (hsecond : ∀ candle ∈ second, 0 < candle.close)
    (hlength : 2 ≤ min first.length second.length) :
    SameSteps day first second ↔
      (newest (min first.length second.length) first).map (fun candle => day candle.openTime) =
        (newest (min first.length second.length) second).map fun candle => day candle.openTime := by
  have hshorter : min (first.length - 1) (second.length - 1) = min first.length second.length - 1 := by omega
  unfold SameSteps
  rw [steps_of_pos hfirst, steps_of_pos hsecond, length_adjacent, length_adjacent, List.length_map, List.length_map]
  dsimp only
  rw [hshorter, newest_adjacent (by omega) (by simp), newest_adjacent (by omega) (by simp), newest_map, newest_map]
  constructor
  · apply adjacent_inj
    rw [List.length_map, length_newest (min_le_left _ _)]
    exact hlength
  · exact congrArg adjacent

/-! ### What is reported -/

section Reported

variable {sqrt : ℚ → ℚ}

theorem mem_orderedPairs_iff {α : Type} [LinearOrder α] {as : List α} (h : as.Pairwise (· < ·)) {a b : α} :
    (a, b) ∈ orderedPairs as ↔ a ∈ as ∧ b ∈ as ∧ a < b := by
  induction as with
  | nil => simp [orderedPairs]
  | cons first later ih =>
    obtain ⟨hfirst, hlater⟩ := List.pairwise_cons.mp h
    rw [orderedPairs, List.mem_append, ih hlater, List.mem_map]
    constructor
    · rintro (⟨second, hsecond, heq⟩ | ⟨ha, hb, hlt⟩)
      · cases heq
        exact ⟨List.mem_cons_self .., List.mem_cons_of_mem _ hsecond, hfirst b hsecond⟩
      · exact ⟨List.mem_cons_of_mem _ ha, List.mem_cons_of_mem _ hb, hlt⟩
    · rintro ⟨ha, hb, hlt⟩
      rcases List.mem_cons.mp ha with rfl | ha'
      · rcases List.mem_cons.mp hb with rfl | hb'
        · exact absurd hlt (lt_irrefl _)
        · exact Or.inl ⟨b, hb', rfl⟩
      · rcases List.mem_cons.mp hb with rfl | hb'
        · exact absurd hlt (hfirst a ha').not_gt
        · exact Or.inr ⟨ha', hb', hlt⟩

/-- The correlation of two symbols, if they are compared. -/
theorem correlation_eq_some_iff {c : ℚ} : correlation sqrt (returns (first.map CanonicalCandle.close))
      (returns (second.map CanonicalCandle.close)) = some c ↔
    Compared sqrt first second ∧ pearson sqrt ((pairedReturns first second).map fun p => p.1.value)
      ((pairedReturns first second).map fun p => p.2.value) = some c := by
  have hoverlap : min (returns (first.map CanonicalCandle.close)).length
      (returns (second.map CanonicalCandle.close)).length = overlap first second := by
    rw [returns_close, returns_close, List.length_map, List.length_map]
    rfl
  obtain ⟨hvalues, hvalues'⟩ := @pairedReturns_values first second
  unfold correlation Compared
  dsimp only
  rw [hoverlap, hvalues, hvalues']
  unfold pearson
  dsimp only
  by_cases hfew : overlap first second < minimumOverlap
  · simp [hfew]
  · simp [hfew, not_lt.mp hfew]

theorem exists_of_compared (h : Compared sqrt first second) :
    ∃ c, correlation sqrt (returns (first.map CanonicalCandle.close)) (returns (second.map CanonicalCandle.close)) =
      some c := by
  obtain ⟨hvalues, hvalues'⟩ := @pairedReturns_values first second
  have hpearson : ∃ c, pearson sqrt ((pairedReturns first second).map fun p => p.1.value)
      ((pairedReturns first second).map fun p => p.2.value) = some c := by
    rw [hvalues, hvalues']
    exact ⟨_, if_neg h.2⟩
  obtain ⟨c, hc⟩ := hpearson
  exact ⟨c, correlation_eq_some_iff.mpr ⟨h, hc⟩⟩

/-- There is something to compare only if there are candles. -/
theorem ne_nil_of_compared (h : Compared sqrt first second) : first ≠ [] ∧ second ≠ [] := by
  have hoverlap : 1 ≤ overlap first second := le_trans (by decide) h.1
  unfold overlap at hoverlap
  constructor
  · rintro rfl
    simp [dailyReturns, adjacent] at hoverlap
  · rintro rfl
    simp [dailyReturns, adjacent] at hoverlap

variable {silver : List CanonicalCandle} {market : Market} {symbols : List String}

/-- The returns of a symbol. -/
theorem getD_returns (symbol : String) :
    (((fetchDailyCloses silver market symbols).mapValues returns).get? symbol).getD [] =
      returns ((dailyCandles silver market symbols symbol).map CanonicalCandle.close) := by
  rw [Dict.get?_mapValues, ← getD_fetchDailyCloses]
  cases (fetchDailyCloses silver market symbols).get? symbol <;> rfl

/-- A symbol with candles is among those with returns. -/
theorem mem_symbols {symbol : String} (h : dailyCandles silver market symbols symbol ≠ []) :
    symbol ∈ ((fetchDailyCloses silver market symbols).mapValues returns).entries.map Prod.fst := by
  cases hget : ((fetchDailyCloses silver market symbols).mapValues returns).get? symbol with
  | some values => exact List.mem_map.mpr ⟨_, Dict.get?_eq_some_iff.mp hget, rfl⟩
  | none =>
    rw [Dict.get?_mapValues, Option.map_eq_none_iff] at hget
    have hcloses := @getD_fetchDailyCloses silver market symbols symbol
    rw [hget, Option.getD_none, eq_comm, List.map_eq_nil_iff] at hcloses
    exact absurd hcloses h

/-- **What is reported** of two symbols. -/
theorem get?_fetchReturnCorrelations {a b : String} {c : ℚ} :
    (fetchReturnCorrelations sqrt silver market symbols).get? (a, b) = some c ↔
      a < b ∧ correlation sqrt (returns ((dailyCandles silver market symbols a).map CanonicalCandle.close))
        (returns ((dailyCandles silver market symbols b).map CanonicalCandle.close)) = some c := by
  set returnsBySymbol := (fetchDailyCloses silver market symbols).mapValues returns with hreturns
  have hsorted : ((returnsBySymbol.entries.map Prod.fst).insertionSort (· ≤ ·)).Pairwise (· < ·) :=
    @pairwise_lt_insertionSort _ _ _ id _ (List.nodup_iff_pairwise_ne.mp returnsBySymbol.nodup)
  have hget : (fetchReturnCorrelations sqrt silver market symbols).get? (a, b) = some c ↔
      (a, b) ∈ orderedPairs ((returnsBySymbol.entries.map Prod.fst).insertionSort (· ≤ ·)) ∧
        correlation sqrt ((returnsBySymbol.get? a).getD []) ((returnsBySymbol.get? b).getD []) = some c := by
    unfold fetchReturnCorrelations computeReturnCorrelations
    dsimp only
    rw [← hreturns, Dict.get?_foldl_set]
  rw [hget, hreturns, getD_returns, getD_returns, ← hreturns, mem_orderedPairs_iff hsorted, List.mem_insertionSort,
    List.mem_insertionSort]
  constructor
  · rintro ⟨⟨-, -, hlt⟩, hcorrelation⟩
    exact ⟨hlt, hcorrelation⟩
  · rintro ⟨hlt, hcorrelation⟩
    obtain ⟨hcompared, -⟩ := correlation_eq_some_iff.mp hcorrelation
    obtain ⟨ha, hb⟩ := ne_nil_of_compared hcompared
    exact ⟨⟨mem_symbols ha, mem_symbols hb, hlt⟩, hcorrelation⟩

end Reported

/-- **Returns of the same days**: every correlation that is reported is of returns that belong, two by two, to the same
two days that follow each other, just if any two symbols that are compared have the same steps. With positive closes
these are the days of the last candles. -/
theorem same_days_iff (sqrt : ℚ → ℚ) (day : Instant → ℤ) (silver : List CanonicalCandle) (market : Market)
    (symbols : List String) :
    ((∀ a b c, (fetchReturnCorrelations sqrt silver market symbols).get? (a, b) = some c →
        OfSameDays day sqrt (dailyCandles silver market symbols a) (dailyCandles silver market symbols b) c) ↔
      ∀ a b, a < b → Compared sqrt (dailyCandles silver market symbols a) (dailyCandles silver market symbols b) →
        SameSteps day (dailyCandles silver market symbols a) (dailyCandles silver market symbols b)) ∧
    ∀ first second : List CanonicalCandle,
      (∀ candle ∈ first, 0 < candle.close) → (∀ candle ∈ second, 0 < candle.close) →
      2 ≤ min first.length second.length →
      (SameSteps day first second ↔
        (newest (min first.length second.length) first).map (fun candle => day candle.openTime) =
          (newest (min first.length second.length) second).map fun candle => day candle.openTime) := by
  refine ⟨?_, fun first second hfirst hsecond hlength => sameSteps_of_pos hfirst hsecond hlength⟩
  constructor
  · intro h a b hlt hcompared
    obtain ⟨c, hc⟩ := exists_of_compared hcompared
    exact sameSteps_iff.mpr (h a b c (get?_fetchReturnCorrelations.mpr ⟨hlt, hc⟩)).2
  · intro h a b c hc
    obtain ⟨hlt, hcorrelation⟩ := get?_fetchReturnCorrelations.mp hc
    obtain ⟨hcompared, hpearson⟩ := correlation_eq_some_iff.mp hcorrelation
    exact ⟨hpearson, sameSteps_iff.mp (h a b hlt hcompared)⟩

/-! ### A missing day -/

/-- A settled candle of a day, with a close of 100 or 200 in turn. -/
def alternating (symbol : String) (day place : ℕ) : CanonicalCandle where
  recordId := ""
  rawRecordId := ""
  market := .nse
  provider := .dhan
  symbol := symbol
  timeframe := "1d"
  openTime := seconds (86400 * day)
  openPrice := if place % 2 = 0 then 100 else 200
  high := if place % 2 = 0 then 100 else 200
  low := if place % 2 = 0 then 100 else 200
  close := if place % 2 = 0 then 100 else 200
  volume := 1
  isSettled := true
  volume_nonneg := Amounts.one_nonneg
  range := by simp

/-- A symbol with candles on 22 days that follow each other, and one that began a day earlier and has none on the tenth
of them. -/
def missingDay : List CanonicalCandle :=
  (List.range 22).map (fun place => alternating "A" (place + 1) place) ++
    (List.range 22).map fun place => alternating "B" (if place < 10 then place else place + 1) place

/-- **Returns of different days**: the two are perfectly correlated, but up to the missing day the returns of one are a
day later than those of the other. -/
theorem shifted_by_a_day :
    ¬ ∀ a b c, (fetchReturnCorrelations Rat.sqrt missingDay .nse ["A", "B"]).get? (a, b) = some c →
      OfSameDays (fun t => t / 86400000000) Rat.sqrt (dailyCandles missingDay .nse ["A", "B"] a)
        (dailyCandles missingDay .nse ["A", "B"] b) c := by
  intro h
  have hreported : (fetchReturnCorrelations Rat.sqrt missingDay .nse ["A", "B"]).get? ("A", "B") = some 1 := by
    decide +kernel
  have hdays := (h "A" "B" 1 hreported).2
  revert hdays
  decide +kernel

end NanoDelta.Runtime
