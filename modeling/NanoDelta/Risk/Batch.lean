import Mathlib.Algebra.BigOperators.Group.Finset.Basic
import Mathlib.Algebra.Order.BigOperators.Group.Finset
import NanoDelta.Risk.PostTrade

/-!
# The portfolio after a batch

A batch is a list of trades in one portfolio. This module builds the portfolio that
all of them leave, one after the other, and computes its figures from the snapshot
and the trades alone: each market and symbol that the batch trades contributes the
difference between what it holds at the end, at the price of its last trade, and what
it held before.

* `figureSum_applyAll`: the figures of the portfolio after a batch.
* `within_applyAll_iff`: it is within the limits exactly if the batch as a whole fits
  into what the snapshot leaves of them.
-/

namespace NanoDelta.Risk

/-! ### Trades -/

/-- What an intent changes. -/
structure Trade where
  market : Market
  symbol : String
  /-- The signed change of the quantity. -/
  delta : ℚ
  /-- The reference price. -/
  price : ℚ
  deriving DecidableEq

/-- The market and symbol of a trade. -/
def Trade.key (trade : Trade) : Market × String := (trade.market, trade.symbol)

/-- The trade of an intent. -/
def TradeIntent.trade (intent : TradeIntent) : Trade :=
  ⟨intent.market, intent.symbol, intent.delta, intent.referencePrice⟩

/-- The positions after all intents of a batch, in order. -/
def applyAll (intents : List TradeIntent) (positions : List PortfolioPosition) : List PortfolioPosition :=
  intents.foldl (fun ps intent => postTrade intent ps) positions

/-- The first position in a market and symbol. -/
def heldBy (key : Market × String) (positions : List PortfolioPosition) : Option PortfolioPosition :=
  positions.find? fun p => p.market = key.1 && p.symbol = key.2

/-- The quantity held in a market and symbol. -/
def signedAt (key : Market × String) (positions : List PortfolioPosition) : ℚ :=
  ((heldBy key positions).map PortfolioPosition.signedQuantity).getD 0

/-- The change of the quantity in a market and symbol that the trades ask for. -/
def netChange (key : Market × String) (trades : List Trade) : ℚ :=
  ((trades.filter fun trade => trade.key = key).map Trade.delta).sum

/-- The price of the last trade in a market and symbol. -/
def lastPrice (key : Market × String) (trades : List Trade) : ℚ :=
  (((trades.filter fun trade => trade.key = key).getLast?).map Trade.price).getD 0

theorem netChange_concat_self (trades : List Trade) (trade : Trade) :
    netChange trade.key (trades ++ [trade]) = netChange trade.key trades + trade.delta := by
  simp [netChange, List.filter_append]

theorem netChange_concat_of_ne {key : Market × String} {trade : Trade} (h : trade.key ≠ key) (trades : List Trade) :
    netChange key (trades ++ [trade]) = netChange key trades := by
  simp [netChange, List.filter_append, h]

theorem lastPrice_concat_self (trades : List Trade) (trade : Trade) :
    lastPrice trade.key (trades ++ [trade]) = trade.price := by
  simp [lastPrice, List.filter_append]

theorem lastPrice_concat_of_ne {key : Market × String} {trade : Trade} (h : trade.key ≠ key) (trades : List Trade) :
    lastPrice key (trades ++ [trade]) = lastPrice key trades := by
  simp [lastPrice, List.filter_append, h]

theorem netChange_of_notMem {key : Market × String} {trades : List Trade} (h : key ∉ trades.map Trade.key) :
    netChange key trades = 0 := by
  have hnil : trades.filter (fun trade => trade.key = key) = [] := by
    rw [List.filter_eq_nil_iff]
    intro trade ht he
    exact h (List.mem_map.mpr ⟨trade, ht, of_decide_eq_true he⟩)
  simp [netChange, hnil]

/-! ### What is held after a batch -/

theorem heldBy_eq_target (intent : TradeIntent) (positions : List PortfolioPosition) :
    heldBy intent.trade.key positions = target intent positions := rfl

/-- A trade leaves what is held in other markets and symbols. -/
theorem heldBy_postTrade_of_ne {intent : TradeIntent} {key : Market × String} (h : intent.trade.key ≠ key)
    (positions : List PortfolioPosition) : heldBy key (postTrade intent positions) = heldBy key positions := by
  have hne : ∀ p : PortfolioPosition, intent.targets p = true →
      (decide (p.market = key.1) && decide (p.symbol = key.2)) = false := by
    intro p hp
    simp only [TradeIntent.targets, Bool.and_eq_true, decide_eq_true_eq] at hp
    rw [Bool.eq_false_iff]
    intro hk
    simp only [Bool.and_eq_true, decide_eq_true_eq] at hk
    exact h (Prod.ext (hp.1.symm.trans hk.1) (hp.2.symm.trans hk.2))
  unfold heldBy
  induction positions with
  | nil =>
    have := hne intent.opened (targets_opened intent)
    simp only [postTrade, List.find?_cons, this, List.find?_nil]
  | cons p ps ih =>
    by_cases ht : intent.targets p = true
    · have hp := hne p ht
      have hfill := hne (intent.fillOf p) (by rw [targets_fillOf]; exact ht)
      simp only [postTrade, ht, if_true, List.find?_cons, hp, hfill]
    · rw [Bool.not_eq_true] at ht
      simp only [postTrade, ht, Bool.false_eq_true, if_false, List.find?_cons]
      rw [ih]

theorem applyAll_concat (intents : List TradeIntent) (intent : TradeIntent) (positions : List PortfolioPosition) :
    applyAll (intents ++ [intent]) positions = postTrade intent (applyAll intents positions) := by
  simp [applyAll]

/-- A batch leaves what is held in the markets and symbols that it does not trade. -/
theorem heldBy_applyAll_of_notMem {intents : List TradeIntent} {key : Market × String}
    (h : key ∉ (intents.map TradeIntent.trade).map Trade.key) (positions : List PortfolioPosition) :
    heldBy key (applyAll intents positions) = heldBy key positions := by
  induction intents using List.reverseRecOn with
  | nil => rfl
  | append_singleton intents intent ih =>
    simp only [List.map_append, List.map_cons, List.map_nil, List.mem_append, List.mem_singleton, not_or] at h
    rw [applyAll_concat, heldBy_postTrade_of_ne (Ne.symm h.2), ih h.1]

/-- What a batch leaves in a market and symbol that it trades. -/
theorem heldBy_applyAll {intents : List TradeIntent} {key : Market × String}
    (h : key ∈ (intents.map TradeIntent.trade).map Trade.key) (positions : List PortfolioPosition) :
    ∃ p, heldBy key (applyAll intents positions) = some p ∧ p.market = key.1 ∧
      p.signedQuantity = signedAt key positions + netChange key (intents.map TradeIntent.trade) ∧
      p.markPrice = lastPrice key (intents.map TradeIntent.trade) := by
  induction intents using List.reverseRecOn with
  | nil => cases h
  | append_singleton intents intent ih =>
    rw [applyAll_concat]
    by_cases hkey : intent.trade.key = key
    · subst hkey
      -- the last trade: what was held before it is what the other trades left
      obtain ⟨p, hp, hs, hm⟩ := target_postTrade intent (applyAll intents positions)
      have hmarket : p.market = intent.market := market_of_targets intent (List.find?_some hp)
      have hbefore : currentSigned intent (applyAll intents positions) =
          signedAt intent.trade.key positions + netChange intent.trade.key (intents.map TradeIntent.trade) := by
        by_cases hmem : intent.trade.key ∈ (intents.map TradeIntent.trade).map Trade.key
        · obtain ⟨q, hq, -, hqs, -⟩ := ih hmem
          rw [currentSigned, ← heldBy_eq_target, hq]
          exact hqs
        · rw [currentSigned, ← heldBy_eq_target, heldBy_applyAll_of_notMem hmem, netChange_of_notMem hmem, add_zero]
          rfl
      refine ⟨p, hp, hmarket, ?_, ?_⟩
      · rw [hs, projectedSigned, hbefore, List.map_append, List.map_singleton, netChange_concat_self, add_assoc]
        rfl
      · rw [hm, List.map_append, List.map_singleton, lastPrice_concat_self]
        rfl
    · have hmem : key ∈ (intents.map TradeIntent.trade).map Trade.key := by
        simp only [List.map_append, List.map_cons, List.map_nil, List.mem_append, List.mem_singleton] at h
        exact h.resolve_right (Ne.symm hkey)
      obtain ⟨p, hp, hmarket, hs, hm⟩ := ih hmem
      rw [heldBy_postTrade_of_ne hkey, List.map_append, List.map_singleton, netChange_concat_of_ne hkey,
        lastPrice_concat_of_ne hkey]
      exact ⟨p, hp, hmarket, hs, hm⟩

/-! ### Figures -/

/-- A figure of a portfolio: what a position of a market, quantity and mark contributes. -/
abbrev Figure := Market → ℚ → ℚ → ℚ

/-- What a position contributes. -/
def figureOf (f : Figure) (p : PortfolioPosition) : ℚ := f p.market p.signedQuantity p.markPrice

/-- The figure of a portfolio. -/
def figureSum (f : Figure) (positions : List PortfolioPosition) : ℚ := (positions.map (figureOf f)).sum

/-- What the position in a market and symbol contributes. -/
def figureAt (f : Figure) (key : Market × String) (positions : List PortfolioPosition) : ℚ :=
  ((heldBy key positions).map (figureOf f)).getD 0

/-- What a batch adds to a figure in a market and symbol: what is held there at the end, at the price
of the last trade, less what was held before. -/
def growth (f : Figure) (key : Market × String) (trades : List Trade) (positions : List PortfolioPosition) : ℚ :=
  f key.1 (signedAt key positions + netChange key trades) (lastPrice key trades) - figureAt f key positions

/-- What a batch adds to a figure. -/
def batchGrowth (f : Figure) (trades : List Trade) (positions : List PortfolioPosition) : ℚ :=
  ∑ key ∈ (trades.map Trade.key).toFinset, growth f key trades positions

/-- One trade changes a figure by its own position only. -/
theorem figureSum_postTrade (f : Figure) (intent : TradeIntent) (positions : List PortfolioPosition) :
    figureSum f (postTrade intent positions) =
      figureSum f positions - figureAt f intent.trade.key positions +
        f intent.market (signedAt intent.trade.key positions + intent.delta) intent.referencePrice := by
  induction positions with
  | nil => simp [postTrade, figureSum, figureAt, heldBy, figureOf, signedAt, TradeIntent.opened]
  | cons p ps ih =>
    by_cases h : intent.targets p = true
    · have hheld : heldBy intent.trade.key (p :: ps) = some p := target_cons_of_targets intent h ps
      have hmarket := market_of_targets intent h
      simp only [postTrade, h, if_true, figureSum, List.map_cons, List.sum_cons, figureAt, signedAt, hheld,
        Option.map_some, Option.getD_some, figureOf, TradeIntent.fillOf, hmarket]
      ring
    · rw [Bool.not_eq_true] at h
      have hheld : heldBy intent.trade.key (p :: ps) = heldBy intent.trade.key ps := target_cons_of_not intent h ps
      simp only [postTrade, h, Bool.false_eq_true, if_false, figureSum, List.map_cons, List.sum_cons, figureAt,
        signedAt, hheld] at ih ⊢
      rw [ih]
      ring

/-- The growth in a market and symbol that the last trade is not in. -/
theorem growth_concat_of_ne {f : Figure} {key : Market × String} {trade : Trade} (h : trade.key ≠ key)
    (trades : List Trade) (positions : List PortfolioPosition) :
    growth f key (trades ++ [trade]) positions = growth f key trades positions := by
  unfold growth
  rw [netChange_concat_of_ne h, lastPrice_concat_of_ne h]

/-- **The figures after a batch** are those of the snapshot and the growth of the batch. -/
theorem figureSum_applyAll (f : Figure) (intents : List TradeIntent) (positions : List PortfolioPosition) :
    figureSum f (applyAll intents positions) =
      figureSum f positions + batchGrowth f (intents.map TradeIntent.trade) positions := by
  induction intents using List.reverseRecOn with
  | nil => simp [applyAll, batchGrowth]
  | append_singleton intents intent ih =>
    set trades := intents.map TradeIntent.trade with htrades
    set key := intent.trade.key with hkey
    have hlast : growth f key (trades ++ [intent.trade]) positions =
        f intent.market (signedAt key positions + (netChange key trades + intent.delta)) intent.referencePrice -
          figureAt f key positions := by
      unfold growth
      rw [hkey, netChange_concat_self, lastPrice_concat_self]
      rfl
    have hothers : ∀ S : Finset (Market × String), key ∉ S →
        ∑ k ∈ S, growth f k (trades ++ [intent.trade]) positions = ∑ k ∈ S, growth f k trades positions := by
      intro S hS
      refine Finset.sum_congr rfl fun k hk => growth_concat_of_ne ?_ trades positions
      rintro rfl
      exact hS hk
    rw [applyAll_concat, figureSum_postTrade, ih, List.map_append, List.map_singleton, ← htrades, ← hkey]
    unfold batchGrowth
    rw [List.map_append, List.map_singleton, List.toFinset_append, ← hkey]
    by_cases hmem : key ∈ trades.map Trade.key
    · -- the batch traded the key before: its last contribution is replaced
      obtain ⟨p, hp, hmarket, hs, hm⟩ := heldBy_applyAll (htrades ▸ hmem) positions
      have hfigure : figureAt f key (applyAll intents positions) = growth f key trades positions +
          figureAt f key positions := by
        simp only [figureAt, hp, Option.map_some, Option.getD_some, figureOf, hmarket, hs, hm, growth, ← htrades]
        ring
      have hsigned : signedAt key (applyAll intents positions) = signedAt key positions + netChange key trades := by
        simp only [signedAt, hp, Option.map_some, Option.getD_some, hs, htrades]
      have hunion : (trades.map Trade.key).toFinset ∪ [key].toFinset = (trades.map Trade.key).toFinset := by
        rw [Finset.union_eq_left]
        intro k hk
        rw [List.mem_toFinset, List.mem_singleton] at hk
        rw [hk, List.mem_toFinset]
        exact hmem
      have hin : key ∈ (trades.map Trade.key).toFinset := List.mem_toFinset.mpr hmem
      rw [hunion, ← Finset.add_sum_erase _ _ hin, ← Finset.add_sum_erase _ _ hin, hothers _ (Finset.notMem_erase _ _),
        hlast, hfigure, hsigned, add_assoc]
      ring
    · have hheld := heldBy_applyAll_of_notMem (htrades ▸ hmem) positions
      have hfigure : figureAt f key (applyAll intents positions) = figureAt f key positions := by
        unfold figureAt
        rw [hheld]
      have hsigned : signedAt key (applyAll intents positions) = signedAt key positions := by
        unfold signedAt
        rw [hheld]
      have hnew : key ∉ (trades.map Trade.key).toFinset := fun h => hmem (List.mem_toFinset.mp h)
      have hunion : (trades.map Trade.key).toFinset ∪ [key].toFinset =
          insert key (trades.map Trade.key).toFinset := by
        rw [Finset.union_comm]
        rfl
      rw [hunion, Finset.sum_insert hnew, hothers _ hnew, hlast, hfigure, hsigned, netChange_of_notMem hmem, zero_add]
      ring

/-! ### Limits -/

/-- Gross notional. -/
def grossFigure : Figure := fun _ quantity mark => |quantity * mark|

/-- Gross notional in one market. -/
def marketFigure (market : Market) : Figure := fun market' quantity mark =>
  if market' = market then |quantity * mark| else 0

/-- One for an open position. -/
def openFigure : Figure := fun _ quantity _ => if quantity ≠ 0 then 1 else 0

theorem figureSum_grossFigure (positions : List PortfolioPosition) :
    figureSum grossFigure positions = totalGross positions := rfl

theorem figureSum_marketFigure (market : Market) (positions : List PortfolioPosition) :
    figureSum (marketFigure market) positions = marketGross market positions := by
  induction positions with
  | nil => rfl
  | cons p ps ih =>
    have hcons : figureSum (marketFigure market) (p :: ps) =
        figureOf (marketFigure market) p + figureSum (marketFigure market) ps := by
      simp [figureSum]
    rw [hcons, ih]
    by_cases h : p.market = market
    · simp [marketGross, totalGross, figureOf, marketFigure, h, PortfolioPosition.grossNotional]
    · simp [marketGross, figureOf, marketFigure, h]

theorem figureSum_openFigure (positions : List PortfolioPosition) :
    figureSum openFigure positions = existingOpen positions := by
  induction positions with
  | nil => rfl
  | cons p ps ih =>
    have hcons : figureSum openFigure (p :: ps) = figureOf openFigure p + figureSum openFigure ps := by
      simp [figureSum]
    rw [hcons, ih, existingOpen_cons]
    simp [figureOf, openFigure, openBit]

/-- The limits of the risk engine on a portfolio as a whole. -/
structure Within (limits : RiskLimits) (positions : List PortfolioPosition) : Prop where
  /-- Total gross exposure. -/
  total : totalGross positions ≤ limits.maxTotalGrossExposure
  /-- Gross exposure of each market. -/
  market : ∀ market, marketGross market positions ≤ limits.maxMarketGrossExposure
  /-- Open positions. -/
  open_positions : existingOpen positions ≤ limits.maxOpenPositions

/-- The trades together fit into what the positions leave of the limits. -/
structure Fits (limits : RiskLimits) (trades : List Trade) (positions : List PortfolioPosition) : Prop where
  /-- Total gross exposure. -/
  total : batchGrowth grossFigure trades positions ≤ limits.maxTotalGrossExposure - totalGross positions
  /-- Gross exposure of each market. -/
  market : ∀ market, batchGrowth (marketFigure market) trades positions ≤
    limits.maxMarketGrossExposure - marketGross market positions
  /-- Open positions. -/
  open_positions : batchGrowth openFigure trades positions ≤ limits.maxOpenPositions - existingOpen positions

/-- **The portfolio after a batch is within the limits exactly if the batch fits.** -/
theorem within_applyAll_iff (limits : RiskLimits) (intents : List TradeIntent) (positions : List PortfolioPosition) :
    Within limits (applyAll intents positions) ↔ Fits limits (intents.map TradeIntent.trade) positions := by
  have htotal := figureSum_applyAll grossFigure intents positions
  have hmarket := fun market => figureSum_applyAll (marketFigure market) intents positions
  have hopen := figureSum_applyAll openFigure intents positions
  simp only [figureSum_grossFigure, figureSum_marketFigure, figureSum_openFigure] at htotal hmarket hopen
  constructor
  · rintro ⟨h₁, h₂, h₃⟩
    have h₃' : (existingOpen (applyAll intents positions) : ℚ) ≤ limits.maxOpenPositions := by exact_mod_cast h₃
    refine ⟨by linarith, fun market => ?_, by linarith⟩
    have := h₂ market
    rw [hmarket market] at this
    linarith
  · rintro ⟨h₁, h₂, h₃⟩
    have h₃' : (existingOpen (applyAll intents positions) : ℚ) ≤ limits.maxOpenPositions := by linarith
    refine ⟨by linarith, fun market => ?_, by exact_mod_cast h₃'⟩
    rw [hmarket market]
    linarith [h₂ market]

end NanoDelta.Risk
