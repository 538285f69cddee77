import Mathlib.Tactic.Linarith
import Mathlib.Tactic.Ring
import NanoDelta.Risk.Engine

/-!
# The portfolio after the trade

The risk engine does not build the portfolio an order would leave: it corrects
the totals of the snapshot by the notional that the order takes away and the
notional that it adds. This module builds that portfolio (`postTrade`) and
proves that the engine's incremental figures are its figures, for any list of
positions, both sides, reductions and reversals. The outcome is
`evaluate_approves_iff`: an entry is approved exactly when the portfolio it
would leave is within the limits and the approval, the account, the snapshot and
the day's losses allow an entry at all.
-/

namespace NanoDelta.Risk

open Strategies

/-! ### Building the portfolio -/

/-- The position an intent leaves in place of `p`: the new signed quantity, marked at the
reference price. -/
def TradeIntent.fillOf (intent : TradeIntent) (p : PortfolioPosition) : PortfolioPosition :=
  { p with signedQuantity := p.signedQuantity + intent.delta, markPrice := intent.referencePrice }

/-- The position an intent opens. -/
def TradeIntent.opened (intent : TradeIntent) : PortfolioPosition :=
  ⟨intent.market, intent.accountId, intent.symbol, intent.delta, intent.referencePrice⟩

/-- The positions after the trade: the target position replaced, or a new one opened, and every
other position unchanged. -/
def postTrade (intent : TradeIntent) : List PortfolioPosition → List PortfolioPosition
  | [] => [intent.opened]
  | p :: ps => if intent.targets p then intent.fillOf p :: ps else p :: postTrade intent ps

/-! ### Its figures -/

section Figures

variable (intent : TradeIntent)

@[simp] theorem target_nil : target intent [] = none := rfl

theorem target_cons_of_targets {p : PortfolioPosition} (h : intent.targets p = true)
    (ps : List PortfolioPosition) : target intent (p :: ps) = some p := by
  simp [target, h]

theorem target_cons_of_not {p : PortfolioPosition} (h : intent.targets p = false)
    (ps : List PortfolioPosition) : target intent (p :: ps) = target intent ps := by
  simp [target, h]

@[simp] theorem targets_fillOf (p : PortfolioPosition) : intent.targets (intent.fillOf p) = intent.targets p := rfl

@[simp] theorem targets_opened : intent.targets intent.opened = true := by
  simp [TradeIntent.targets, TradeIntent.opened]

theorem market_of_targets {p : PortfolioPosition} (h : intent.targets p = true) : p.market = intent.market := by
  simp only [TradeIntent.targets, Bool.and_eq_true, decide_eq_true_eq] at h
  exact h.1

/-- The target position after the trade has the projected quantity at the reference price. -/
theorem target_postTrade (positions : List PortfolioPosition) :
    ∃ p, target intent (postTrade intent positions) = some p ∧
      p.signedQuantity = projectedSigned intent positions ∧ p.markPrice = intent.referencePrice := by
  induction positions with
  | nil =>
    refine ⟨intent.opened, target_cons_of_targets intent (targets_opened intent) _, ?_, rfl⟩
    simp [projectedSigned, currentSigned, TradeIntent.opened]
  | cons p ps ih =>
    by_cases h : intent.targets p = true
    · refine ⟨intent.fillOf p, ?_, ?_, rfl⟩
      · simp only [postTrade, h, if_true]
        exact target_cons_of_targets intent (by rw [targets_fillOf, h]) ps
      · simp [projectedSigned, currentSigned, target_cons_of_targets intent h, TradeIntent.fillOf]
    · rw [Bool.not_eq_true] at h
      obtain ⟨q, hq, hs, hm⟩ := ih
      refine ⟨q, ?_, ?_, hm⟩
      · simp only [postTrade, h, Bool.false_eq_true, if_false]
        rw [target_cons_of_not intent h, hq]
      · rw [hs]
        simp [projectedSigned, currentSigned, target_cons_of_not intent h]

theorem grossNotional_of_projected {positions : List PortfolioPosition} {p : PortfolioPosition}
    (hs : p.signedQuantity = projectedSigned intent positions) (hm : p.markPrice = intent.referencePrice) :
    p.grossNotional = projectedNotional intent positions := by
  unfold PortfolioPosition.grossNotional projectedNotional
  rw [hs, hm]

theorem grossNotional_opened : intent.opened.grossNotional = projectedNotional intent [] := by
  simp [PortfolioPosition.grossNotional, TradeIntent.opened, projectedNotional, projectedSigned, currentSigned]

theorem totalGross_cons (p : PortfolioPosition) (ps : List PortfolioPosition) :
    totalGross (p :: ps) = p.grossNotional + totalGross ps := by
  simp [totalGross]

theorem projectedNotional_cons_of_not {p : PortfolioPosition} (h : intent.targets p = false)
    (ps : List PortfolioPosition) : projectedNotional intent (p :: ps) = projectedNotional intent ps := by
  simp [projectedNotional, projectedSigned, currentSigned, target_cons_of_not intent h]

theorem currentNotional_cons_of_not {p : PortfolioPosition} (h : intent.targets p = false)
    (ps : List PortfolioPosition) : currentNotional intent (p :: ps) = currentNotional intent ps := by
  simp [currentNotional, target_cons_of_not intent h]

/-- **Total gross exposure**: the engine's increment is the portfolio's. -/
theorem totalGross_postTrade (positions : List PortfolioPosition) :
    totalGross (postTrade intent positions) =
      totalGross positions - currentNotional intent positions + projectedNotional intent positions := by
  induction positions with
  | nil => simp [postTrade, totalGross, currentNotional, grossNotional_opened]
  | cons p ps ih =>
    by_cases h : intent.targets p = true
    · have hfill : (intent.fillOf p).grossNotional = projectedNotional intent (p :: ps) := by
        apply grossNotional_of_projected
        · simp [projectedSigned, currentSigned, target_cons_of_targets intent h, TradeIntent.fillOf]
        · rfl
      have hcur : currentNotional intent (p :: ps) = p.grossNotional := by
        simp [currentNotional, target_cons_of_targets intent h]
      simp only [postTrade, h, if_true, totalGross_cons, hfill, hcur]
      ring
    · rw [Bool.not_eq_true] at h
      simp only [postTrade, h, Bool.false_eq_true, if_false, totalGross_cons, ih,
        projectedNotional_cons_of_not intent h, currentNotional_cons_of_not intent h]
      ring

/-- The positions of a market after the trade: of the intent's market, the trade of its
positions; of another, the same as before. -/
theorem filter_market_postTrade (market : Market) (positions : List PortfolioPosition) :
    (postTrade intent positions).filter (fun p => p.market = market) =
      if market = intent.market then postTrade intent (positions.filter fun p => p.market = market)
      else positions.filter fun p => p.market = market := by
  induction positions with
  | nil =>
    by_cases hm : market = intent.market
    · simp [postTrade, TradeIntent.opened, hm]
    · simp [postTrade, TradeIntent.opened, hm, Ne.symm hm]
  | cons p ps ih =>
    by_cases h : intent.targets p = true
    · have hp := market_of_targets intent h
      have hfill : (intent.fillOf p).market = p.market := rfl
      by_cases hm : market = intent.market
      · simp [postTrade, h, hfill, hp, hm]
      · simp [postTrade, h, hfill, hp, hm, Ne.symm hm]
    · rw [Bool.not_eq_true] at h
      by_cases hpm : p.market = market
      · simp only [postTrade, h, Bool.false_eq_true, if_false, List.filter_cons, hpm, decide_true, if_true, ih]
        by_cases hm : market = intent.market
        · simp only [hm, if_true]
        · simp only [hm, if_false]
      · simp only [postTrade, h, Bool.false_eq_true, if_false, List.filter_cons, hpm, decide_false, ih]

/-- The target is in the intent's market, so it is the target among that market's positions. -/
theorem target_filter_market (positions : List PortfolioPosition) :
    target intent (positions.filter fun p => p.market = intent.market) = target intent positions := by
  induction positions with
  | nil => rfl
  | cons p ps ih =>
    by_cases h : intent.targets p = true
    · simp [market_of_targets intent h, target_cons_of_targets intent h]
    · rw [Bool.not_eq_true] at h
      rw [target_cons_of_not intent h, ← ih]
      by_cases hp : p.market = intent.market
      · simp only [List.filter_cons, hp, decide_true, if_true]
        exact target_cons_of_not intent h _
      · simp [hp]

/-- **Gross exposure of the intent's market**. -/
theorem marketGross_postTrade (positions : List PortfolioPosition) :
    marketGross intent.market (postTrade intent positions) =
      marketGross intent.market positions - currentNotional intent positions +
        projectedNotional intent positions := by
  unfold marketGross
  rw [filter_market_postTrade, if_pos rfl, totalGross_postTrade]
  simp only [currentNotional, projectedNotional, projectedSigned, currentSigned, target_filter_market]

/-- The gross exposure of any other market does not change. -/
theorem marketGross_postTrade_of_ne {market : Market} (h : market ≠ intent.market)
    (positions : List PortfolioPosition) :
    marketGross market (postTrade intent positions) = marketGross market positions := by
  unfold marketGross
  rw [filter_market_postTrade, if_neg h]

/-- One if the quantity is not zero. -/
def openBit (quantity : ℚ) : ℕ := if quantity ≠ 0 then 1 else 0

theorem existingOpen_cons (p : PortfolioPosition) (ps : List PortfolioPosition) :
    existingOpen (p :: ps) = openBit p.signedQuantity + existingOpen ps := by
  simp only [existingOpen, openBit, List.countP_cons, decide_eq_true_eq]
  omega

/-- **Open positions**: the trade changes the count by the target position only. -/
theorem existingOpen_postTrade (positions : List PortfolioPosition) :
    existingOpen (postTrade intent positions) + openBit (currentSigned intent positions) =
      existingOpen positions + openBit (projectedSigned intent positions) := by
  induction positions with
  | nil =>
    have h : existingOpen (postTrade intent []) = openBit intent.delta := by
      simp [postTrade, existingOpen, TradeIntent.opened, openBit]
    rw [h]
    simp [currentSigned, projectedSigned, existingOpen, openBit]
  | cons p ps ih =>
    by_cases h : intent.targets p = true
    · have hc : currentSigned intent (p :: ps) = p.signedQuantity := by
        simp [currentSigned, target_cons_of_targets intent h]
      have hf : (intent.fillOf p).signedQuantity = projectedSigned intent (p :: ps) := by
        simp [projectedSigned, hc, TradeIntent.fillOf]
      simp only [postTrade, h, if_true, existingOpen_cons, hc, hf]
      omega
    · rw [Bool.not_eq_true] at h
      have hc : currentSigned intent (p :: ps) = currentSigned intent ps := by
        simp [currentSigned, target_cons_of_not intent h]
      simp only [postTrade, h, Bool.false_eq_true, if_false, existingOpen_cons, projectedSigned, hc]
      simp only [projectedSigned] at ih
      omega

/-- An order that opens a position adds one to the count. -/
theorem existingOpen_of_opensNew {positions : List PortfolioPosition} (h : opensNew intent positions = true) :
    existingOpen (postTrade intent positions) = existingOpen positions + 1 := by
  simp only [opensNew, Bool.and_eq_true, decide_eq_true_eq] at h
  have := existingOpen_postTrade intent positions
  simp only [openBit, h.1, h.2, ne_eq, not_true_eq_false, not_false_eq_true, if_true, if_false] at this
  omega

end Figures

/-! ### Approval -/

/-- The notional of the target position of a portfolio. -/
def targetNotional (intent : TradeIntent) (positions : List PortfolioPosition) : ℚ :=
  ((target intent positions).map PortfolioPosition.grossNotional).getD 0

theorem targetNotional_postTrade (intent : TradeIntent) (positions : List PortfolioPosition) :
    targetNotional intent (postTrade intent positions) = projectedNotional intent positions := by
  obtain ⟨p, hp, hs, hm⟩ := target_postTrade intent positions
  simp [targetNotional, hp, grossNotional_of_projected intent hs hm]

/-- What an entry needs, said of the portfolio it would leave. -/
structure Admissible (limits : RiskLimits) (intent : TradeIntent) (approval : StrategyApproval)
    (portfolio : PortfolioSnapshot) (t : Instant) : Prop where
  /-- The approval is the intent's. -/
  approval_matches : approval.approvalId = intent.approvalId ∧ approval.identity = intent.identity
  /-- The approval is current. -/
  approval_current : approval.isCurrent t = true
  /-- The account is the snapshot's. -/
  account : portfolio.accountId = intent.accountId
  /-- The snapshot is neither of the future nor too old. -/
  fresh : 0 ≤ snapshotAge portfolio t ∧ snapshotAge portfolio t ≤ limits.maxSnapshotAgeSeconds
  /-- The day's loss is below its limit. -/
  daily_loss : -limits.maxDailyLoss < portfolio.realizedPnlToday
  /-- The order is within its notional limit. -/
  order_notional : intent.quantity * intent.referencePrice ≤ limits.maxOrderNotional
  /-- The target position left by the trade is within its notional limit. -/
  position_notional :
    targetNotional intent (postTrade intent portfolio.positions) ≤ limits.maxPositionNotional
  /-- The market is within its gross exposure limit after the trade. -/
  market_gross :
    marketGross intent.market (postTrade intent portfolio.positions) ≤ limits.maxMarketGrossExposure
  /-- The portfolio is within its gross exposure limit after the trade. -/
  total_gross : totalGross (postTrade intent portfolio.positions) ≤ limits.maxTotalGrossExposure
  /-- If the order opens a position, the open positions are within their limit after the trade. -/
  open_positions : opensNew intent portfolio.positions = true →
    existingOpen (postTrade intent portfolio.positions) ≤ limits.maxOpenPositions

theorem evaluateReasons_eq_nil_iff (limits : RiskLimits) (intent : TradeIntent) (approval : StrategyApproval)
    (portfolio : PortfolioSnapshot) (t : Instant) :
    evaluateReasons limits intent approval portfolio t = [] ↔ Admissible limits intent approval portfolio t := by
  have happroval : (if mismatched intent approval then ["STRATEGY_APPROVAL_MISMATCH"]
      else reasonIf (approval.isCurrent t = false) "STRATEGY_APPROVAL_NOT_CURRENT") = [] ↔
      (approval.approvalId = intent.approvalId ∧ approval.identity = intent.identity) ∧
        approval.isCurrent t = true := by
    by_cases h : mismatched intent approval
    · simp only [h, if_true, List.cons_ne_nil, false_iff, not_and]
      exact fun hm => absurd h (by simp [mismatched, hm.1, hm.2])
    · have hm : approval.approvalId = intent.approvalId ∧ approval.identity = intent.identity := by
        simpa [mismatched, not_or] using h
      simp [h, hm, reasonIf_eq_nil]
  have hopen : (¬(opensNew intent portfolio.positions = true ∧
      limits.maxOpenPositions ≤ existingOpen portfolio.positions)) ↔
      (opensNew intent portfolio.positions = true →
        existingOpen (postTrade intent portfolio.positions) ≤ limits.maxOpenPositions) := by
    rw [not_and]
    refine imp_congr_right fun h => ?_
    rw [existingOpen_of_opensNew intent h]
    omega
  have hstale : ¬ stale limits portfolio t ↔
      0 ≤ snapshotAge portfolio t ∧ snapshotAge portfolio t ≤ limits.maxSnapshotAgeSeconds := by
    simp only [stale, not_or, not_lt]
  simp only [evaluateReasons, List.append_eq_nil_iff, happroval, reasonIf_eq_nil, hopen, hstale, not_lt,
    not_le, not_not]
  rw [← totalGross_postTrade, ← marketGross_postTrade, ← targetNotional_postTrade]
  constructor
  · rintro ⟨⟨⟨⟨⟨⟨⟨⟨⟨h₁, h₂⟩, h₃⟩, h₄⟩, h₅⟩, h₆⟩, h₇⟩, h₈⟩, h₉⟩, h₁₀⟩
    exact ⟨h₁, h₂, h₃, h₄, h₅, h₆, h₇, h₉, h₈, h₁₀⟩
  · rintro ⟨h₁, h₂, h₃, h₄, h₅, h₆, h₇, h₉, h₈, h₁₀⟩
    exact ⟨⟨⟨⟨⟨⟨⟨⟨⟨h₁, h₂⟩, h₃⟩, h₄⟩, h₅⟩, h₆⟩, h₇⟩, h₈⟩, h₉⟩, h₁₀⟩

/-- **Approval is admission of the portfolio after the trade**: `evaluate` approves exactly the
entries that are `Admissible`. Of the per-market limits it checks the one of the intent's
market; the trade leaves the gross exposure of every other market as it was. -/
theorem evaluate_approves_iff (host : Host) (limits : RiskLimits) (intent : TradeIntent)
    (approval : StrategyApproval) (portfolio : PortfolioSnapshot) (evaluatedAt : DateTime) :
    ((∃ decision, evaluate host limits intent approval portfolio evaluatedAt = .ok decision ∧
        decision.approved = true) ↔
      ∃ t, evaluatedAt = .aware t ∧ Admissible limits intent approval portfolio t) ∧
    ∀ market, market ≠ intent.market →
      marketGross market (postTrade intent portfolio.positions) = marketGross market portfolio.positions := by
  refine ⟨?_, fun market h => marketGross_postTrade_of_ne intent h _⟩
  constructor
  · rintro ⟨decision, h, happroved⟩
    obtain ⟨t, rfl, -, hiff⟩ := evaluate_ok h
    exact ⟨t, rfl, (evaluateReasons_eq_nil_iff ..).mp (hiff.mp happroved)⟩
  · rintro ⟨t, rfl, hadm⟩
    refine ⟨_, rfl, ?_⟩
    exact decisionOf_approved.mpr ((evaluateReasons_eq_nil_iff ..).mpr hadm)

end NanoDelta.Risk
