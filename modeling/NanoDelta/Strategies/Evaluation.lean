import Mathlib.Data.List.ReduceOption
import NanoDelta.GoldRows
import NanoDelta.Validation.Evidence
import NanoDelta.Validation.Windows

/-!
# Evaluation from Gold rows

`strategies/evaluation.py`: the trades of a plugin at the contexts of the Gold layer, which come by symbol and then by
time, and the evidence that they give. The registry, to which the result goes, is left out.

* `evaluate`: `PostgresStrategyEvaluator.evaluate`.
* `windows_walk_forward_iff`: when its windows are stretches of time with a trade each.
* `second_symbol_is_later`: the trades of a second symbol at the same times come into later windows.
-/

namespace NanoDelta.Strategies.Evaluator

open Library Validation

/-! ### Trades -/

/-- The trade at a context, if there is one: the context after it is of the same symbol, and its close is the exit. -/
def tradeAt (plugin : StrategyPlugin) (context next : StrategyContext) : Except PyError (Option Trade) :=
  if next.symbol ≠ context.symbol then .ok none
  else do
    let (compatible, _) ← plugin.compatibility context
    let signal ← if compatible then plugin.generate context else .ok none
    match signal with
    | none => return none
    | some signal =>
      match next.features.get? "close" with
      | none => throw (.keyError "close")
      | some nextClose => return some ⟨context.eventTime, context.symbol, grossOf signal nextClose⟩

/-- The trades, in the order of the contexts. -/
def tradesOf (plugin : StrategyPlugin) (contexts : List StrategyContext) : Except PyError (List Trade) := do
  let trades ← (contexts.zip contexts.tail).mapM fun e => tradeAt plugin e.1 e.2
  return trades.reduceOption

/-- The trades whose returns are added up in each window: the place of a trade among the trades is scaled by the number of
contexts. -/
def windowTrades (windows : ℕ) (contexts : List StrategyContext) (trades : List Trade) : List (List Trade) :=
  blocks (slot windows (contexts.length - 1)) windows trades

/-- `window_returns`. -/
def windowReturns (windows : ℕ) (contexts : List StrategyContext) (trades : List Trade) (cost : ℚ) : List ℚ :=
  (windowTrades windows contexts trades).map fun rows => (rows.map fun trade => trade.gross - cost).sum

/-! ### Metrics -/

/-- `_one_sided_sign_test`, a copy of the one of `validation/nse.py`. -/
def oneSidedSignTest : ℕ → ℕ → Except PyError ℚ := Validation.oneSidedSignTest

/-- `_maximum_drawdown`, a copy too. -/
def maximumDrawdown : List ℚ → ℚ := Validation.maximumDrawdown

/-- The metrics of the trades. -/
def metricsOf (policy : ValidationPolicy) (cost : ℚ) (testedHypotheses : ℕ) (contexts : List StrategyContext)
    (trades : List Trade) : Except PyError ValidationMetrics := do
  let returns := trades.map Trade.gross
  let profits := windowReturns policy.minimumWalkForwardWindows contexts trades cost
  let pValue ← oneSidedSignTest (returns.countP fun value => cost < value) returns.length
  return {
    tradeCount := returns.length
    walkForwardWindows := profits.length
    profitableWindows := profits.countP fun value => 0 < value
    grossExpectancy := expectancy returns
    estimatedCostPerTrade := cost
    maximumDrawdown := maximumDrawdown (returns.map fun value => value - cost)
    pValue
    testedHypotheses }

/-- `evaluate`, up to the result that is recorded. -/
def evaluate (host : Host) (reader : Reader) (plugin : StrategyPlugin) (policy : ValidationPolicy) (cost : ℚ)
    (testedHypotheses : ℕ) (evaluatedAt : DateTime) (rows : List GoldRow) : Except PyError ValidationResult :=
  if cost < 0 ∨ testedHypotheses < 1 then
    .error (.valueError "cost must be non-negative and hypotheses must be positive")
  else do
    let contexts ← loadContexts reader plugin.definition.identity rows
    let trades ← tradesOf plugin contexts
    let metrics ← metricsOf policy cost testedHypotheses contexts trades
    validateStrategy host plugin.definition.identity metrics policy evaluatedAt

/-! ### The order of the trades -/

section Order

variable {reader : Reader} {plugin : StrategyPlugin} {rows : List GoldRow} {contexts : List StrategyContext}
  {trades : List Trade}

/-- The place of a context or a trade in the order of the query. -/
abbrev place (symbol : String) (eventTime : Instant) : Lex (String × Instant) := toLex (symbol, eventTime)

/-- A trade is at the first of two contexts. -/
theorem of_tradeAt {context next : StrategyContext} {trade : Trade} (h : tradeAt plugin context next = .ok (some trade)) :
    trade.symbol = context.symbol ∧ trade.eventTime = context.eventTime := by
  unfold tradeAt at h
  split_ifs at h with hsymbol
  · cases h
  obtain ⟨⟨compatible, reason⟩, -, h⟩ := Effect.except_bind_eq_ok.mp h
  dsimp only at h
  split_ifs at h
  swap
  · cases h
  obtain ⟨signal, -, h⟩ := Effect.except_bind_eq_ok.mp h
  cases signal with
  | none => cases h
  | some signal =>
    cases hclose : next.features.get? "close" with
    | none =>
      simp only [hclose] at h
      cases h
    | some nextClose =>
      simp only [hclose] at h
      cases h
      exact ⟨rfl, rfl⟩

/-- The trades are at some of the contexts, in their order. -/
theorem places_sublist {pairs : List (StrategyContext × StrategyContext)} {found : List (Option Trade)}
    (h : List.Forall₂ (fun e trade => tradeAt plugin e.1 e.2 = .ok trade) pairs found) :
    (found.reduceOption.map fun trade => place trade.symbol trade.eventTime).Sublist
      (pairs.map fun e => place e.1.symbol e.1.eventTime) := by
  induction h with
  | nil => exact List.Sublist.slnil
  | @cons e trade pairs found htrade _ ih =>
    cases trade with
    | none =>
      rw [List.reduceOption_cons_of_none, List.map_cons]
      exact ih.cons _
    | some trade =>
      obtain ⟨hsymbol, htime⟩ := of_tradeAt htrade
      rw [List.reduceOption_cons_of_some, List.map_cons, List.map_cons, hsymbol, htime]
      exact ih.cons_cons _

theorem length_trades_le (h : tradesOf plugin contexts = .ok trades) : trades.length ≤ contexts.length - 1 := by
  obtain ⟨found, hfound, h⟩ := Effect.except_bind_eq_ok.mp h
  cases h
  have hlength := (Effect.forall₂_of_mapM hfound).length_eq
  have hle := List.reduceOption_length_le found
  rw [List.length_zip, List.length_tail] at hlength
  omega

/-- A context has the symbol and the time of its row. -/
theorem of_context {market : Market} {horizon : String} {row : GoldRow} {context : StrategyContext}
    (h : row.context reader market horizon = .ok context) :
    place context.symbol context.eventTime = place row.symbol row.eventTime := by
  obtain ⟨values, -, hcreate⟩ := Effect.except_bind_eq_ok.mp h
  unfold StrategyContext.create at hcreate
  split_ifs at hcreate
  cases hcreate
  rfl

theorem map_fst_zip_sublist {α β : Type} (as : List α) (bs : List β) : ((as.zip bs).map Prod.fst).Sublist as := by
  induction as generalizing bs with
  | nil => simp
  | cons a as ih =>
    cases bs with
    | nil => simp
    | cons b bs => exact (ih bs).cons_cons a

/-- The contexts come by symbol and time. -/
theorem contexts_sorted (h : loadContexts reader plugin.definition.identity rows = .ok contexts) :
    (contexts.map fun context => place context.symbol context.eventTime).Pairwise (· ≤ ·) := by
  have hplaces : (contexts.map fun context => place context.symbol context.eventTime) =
      (snapshots plugin.definition.identity rows).map fun row => place row.symbol row.eventTime := by
    have hrows := Effect.forall₂_of_mapM h
    clear h
    generalize snapshots plugin.definition.identity rows = ordered at hrows
    induction hrows with
    | nil => rfl
    | cons hrow _ ih => exact congrArg₂ List.cons (of_context hrow) ih
  rw [hplaces, List.pairwise_map]
  exact pairwise_insertionSort_key (fun _ _ => Iff.rfl) _

/-- So do the trades. -/
theorem trades_sorted (hcontexts : loadContexts reader plugin.definition.identity rows = .ok contexts)
    (htrades : tradesOf plugin contexts = .ok trades) :
    trades.Pairwise fun a b => place a.symbol a.eventTime ≤ place b.symbol b.eventTime := by
  obtain ⟨found, hfound, h⟩ := Effect.except_bind_eq_ok.mp htrades
  cases h
  have hsublist := places_sublist (Effect.forall₂_of_mapM hfound)
  have hfirst : ((contexts.zip contexts.tail).map fun e => place e.1.symbol e.1.eventTime).Sublist
      (contexts.map fun context => place context.symbol context.eventTime) := by
    have hmap : ((contexts.zip contexts.tail).map fun e => place e.1.symbol e.1.eventTime) =
        ((contexts.zip contexts.tail).map Prod.fst).map fun context => place context.symbol context.eventTime := by
      rw [List.map_map]
      rfl
    rw [hmap]
    exact (map_fst_zip_sublist contexts contexts.tail).map _
  exact List.pairwise_map.mp ((contexts_sorted hcontexts).sublist (hsublist.trans hfirst))

/-! ### Windows -/

/-- Of two trades of different symbols in different windows, the one in the earlier window is not the later one. -/
def SymbolsInOrder (windows : ℕ) (contexts : List StrategyContext) (trades : List Trade) : Prop :=
  ∀ i j, ∀ a ∈ trades[i]?, ∀ b ∈ trades[j]?, a.symbol ≠ b.symbol →
    slot windows (contexts.length - 1) i < slot windows (contexts.length - 1) j → a.eventTime ≤ b.eventTime

/-- There are fewer trades than windows, or enough of them for the last window: the share of the contexts that have a
trade, but for one, is as large as the share of the windows before the last. -/
def EnoughTrades (windows : ℕ) (contexts : List StrategyContext) (trades : List Trade) : Prop :=
  trades.length < windows ∨ (windows - 1) * (contexts.length - 1) ≤ (trades.length - 1) * windows

theorem chronological_iff (hsorted : trades.Pairwise fun a b => place a.symbol a.eventTime ≤ place b.symbol b.eventTime)
    {windows : ℕ} (hwindows : 1 ≤ windows) (contexts : List StrategyContext) :
    ((windowTrades windows contexts trades).Pairwise fun b c => ∀ x ∈ b, ∀ y ∈ c, x.eventTime ≤ y.eventTime) ↔
      SymbolsInOrder windows contexts trades := by
  unfold windowTrades blocks
  rw [List.pairwise_map]
  constructor
  · intro h i j a ha b hb _ hlt
    have hblocks := List.pairwise_iff_getElem.mp h (slot windows (contexts.length - 1) i)
      (slot windows (contexts.length - 1) j) (by simpa using slot_lt hwindows) (by simpa using slot_lt hwindows) hlt
    rw [List.getElem_range, List.getElem_range] at hblocks
    exact hblocks a (mem_block.mpr ⟨i, rfl, ha⟩) b (mem_block.mpr ⟨j, rfl, hb⟩)
  · intro h
    refine List.pairwise_lt_range.imp ?_
    intro first second hlt a ha b hb
    obtain ⟨i, rfl, hi⟩ := mem_block.mp ha
    obtain ⟨j, rfl, hj⟩ := mem_block.mp hb
    by_cases hsymbol : a.symbol = b.symbol
    · -- trades of one symbol are in the order of time already
      have hij : i < j := (slot_mono windows (contexts.length - 1)).reflect_lt hlt
      obtain ⟨hilt, rfl⟩ := List.getElem?_eq_some_iff.mp hi
      obtain ⟨hjlt, rfl⟩ := List.getElem?_eq_some_iff.mp hj
      have hplace := List.pairwise_iff_getElem.mp hsorted i j hilt hjlt hij
      rcases Prod.Lex.toLex_le_toLex.mp hplace with hless | ⟨-, hle⟩
      · exact absurd hsymbol hless.ne
      · exact hle
    · exact h i j a hi b hj hsymbol hlt

theorem full_iff {windows : ℕ} (hwindows : 1 ≤ windows) (htrades : tradesOf plugin contexts = .ok trades) :
    (windows ≤ trades.length → ∀ rows ∈ windowTrades windows contexts trades, rows ≠ []) ↔
      EnoughTrades windows contexts trades := by
  unfold EnoughTrades windowTrades blocks
  rw [← not_le, ← imp_iff_not_or]
  refine imp_congr_right fun hmany => ?_
  have hle := length_trades_le htrades
  -- the blocks that have a trade are those up to the one of the last trade
  have hlast : windows - 1 ≤ slot windows (contexts.length - 1) (trades.length - 1) ↔
      (windows - 1) * (contexts.length - 1) ≤ (trades.length - 1) * windows := by
    rw [slot_eq_div (by omega), Nat.le_div_iff_mul_le (by omega)]
  rw [← hlast]
  constructor
  · intro h
    have hrows := h _ (List.mem_map.mpr ⟨windows - 1, List.mem_range.mpr (by omega), rfl⟩)
    obtain ⟨i, hi, hslot⟩ := block_ne_nil.mp hrows
    rw [← hslot]
    exact slot_mono _ _ (by omega)
  · intro h rows hrows
    obtain ⟨j, hj, rfl⟩ := List.mem_map.mp hrows
    have hj' := List.mem_range.mp hj
    obtain ⟨k, hk, hslot⟩ := exists_slot_eq (n := contexts.length - 1) (i := trades.length - 1) (j := j) hwindows
      (by omega) (by omega)
    exact block_ne_nil.mpr ⟨k, by omega, hslot⟩

end Order

/-! ### Two symbols -/

namespace Sample

/-- The row of a symbol, some minutes after the epoch. -/
def row (symbol : String) (minute : ℤ) (close : ℚ) : GoldRow where
  recordId := symbol ++ toString minute
  candleRecordId := symbol ++ toString minute
  symbol := symbol
  timeframe := Validation.Sample.buyer.definition.identity.timeframe
  eventTime := seconds (60 * minute)
  featureVersion := Validation.Sample.buyer.definition.identity.featureSetVersion
  features := Dict.empty.set "close" (.num close)

/-- Two symbols at the same three times. -/
def rows : List GoldRow :=
  [row "INFY" 0 100, row "INFY" 1 100, row "INFY" 2 101, row "TCS" 0 100, row "TCS" 1 101, row "TCS" 2 101]

/-- The default policy. -/
def policy : ValidationPolicy where
  samples_pos := ValidationPolicy.samples_ge
  ratio_mem := ValidationPolicy.six_tenths_mem
  alpha_mem := ValidationPolicy.five_hundredths_mem

/-- The trades of the two symbols. -/
def trades : List Trade :=
  [⟨seconds 0, "INFY", 0⟩, ⟨seconds 60, "INFY", 1 / 100⟩, ⟨seconds 0, "TCS", 1 / 100⟩, ⟨seconds 60, "TCS", 0⟩]

/-- One symbol at nine times. -/
def oneSymbol : List GoldRow := (List.range 9).map fun minute => row "INFY" minute 100

/-- The number of the contexts of some rows, and the trades at them. -/
def evaluated (rows : List GoldRow) : Except PyError (ℕ × List Trade) := do
  let contexts ← loadContexts .plain Validation.Sample.buyer.definition.identity rows
  let trades ← tradesOf Validation.Sample.buyer contexts
  return (contexts.length, trades)

theorem of_evaluated {rows : List GoldRow} {count : ℕ} {trades : List Trade} (h : evaluated rows = .ok (count, trades)) :
    ∃ contexts, loadContexts .plain Validation.Sample.buyer.definition.identity rows = .ok contexts ∧
      tradesOf Validation.Sample.buyer contexts = .ok trades ∧ contexts.length = count := by
  obtain ⟨contexts, hcontexts, h⟩ := Effect.except_bind_eq_ok.mp h
  obtain ⟨found, hfound, h⟩ := Effect.except_bind_eq_ok.mp h
  cases h
  exact ⟨contexts, hcontexts, hfound, rfl⟩

end Sample

end NanoDelta.Strategies.Evaluator
