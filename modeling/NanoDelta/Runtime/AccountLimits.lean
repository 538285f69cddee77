import Mathlib.Algebra.Order.BigOperators.Group.List
import NanoDelta.Risk.PostTrade
import NanoDelta.Runtime.PortfolioSnapshot

/-!
# Limits of the whole account

One account trades in all markets, and the limits on total exposure, on open positions and on
the loss of the day are limits of the account. The snapshot that an entry is judged against is
built from the tables of the entry's market alone.

* `approval_keeps_account_limits_iff`: an approved entry respects the limits of the account
  exactly if what the account holds and lost in the other markets fits into what the entry
  leaves of them.
* `other_market_is_omitted`: an entry is approved with the account over all three limits.
-/

namespace NanoDelta.Runtime

open Library Strategies Risk Paper

/-! ### The account -/

/-- The markets. -/
def allMarkets : List Market := [.nse, .forex, .crypto]

/-- The open positions of an account in all markets, at the latest marks. -/
def accountPositions (accountId : String) (marks : Market → Dict String ℚ) (db : Database) :
    Except PyError (List PortfolioPosition) := do
  let positions ← allMarkets.mapM fun market => loadOpenPositions market accountId (marks market) db
  return positions.flatten

/-- The profit and loss of an account on the day of a time, in some markets. -/
def pnlTodayIn (markets : List Market) (accountId : String) (now : Instant) (db : Database) : ℚ :=
  (markets.map fun market => loadRealizedPnlToday market accountId now db).sum

/-- The positions in a market. -/
def within (market : Market) (positions : List PortfolioPosition) : List PortfolioPosition :=
  positions.filter fun p => p.market = market

/-- The positions in the other markets. -/
def outside (market : Market) (positions : List PortfolioPosition) : List PortfolioPosition :=
  positions.filter fun p => p.market ≠ market

/-- The other markets. -/
def otherMarkets (market : Market) : List Market := allMarkets.filter fun other => other ≠ market

/-- The account is within its limits on exposure and open positions. -/
def AccountWithin (limits : RiskLimits) (positions : List PortfolioPosition) : Prop :=
  totalGross positions ≤ limits.maxTotalGrossExposure ∧ existingOpen positions ≤ limits.maxOpenPositions

instance (limits : RiskLimits) (positions : List PortfolioPosition) : Decidable (AccountWithin limits positions) := by
  unfold AccountWithin; infer_instance

/-- What an approved entry should mean for the account: it stays within its limits, and its loss of the day
is below the limit. -/
structure KeepsAccount (limits : RiskLimits) (intent : TradeIntent) (positions : List PortfolioPosition)
    (pnlToday : ℚ) : Prop where
  exposure : AccountWithin limits positions → AccountWithin limits (postTrade intent positions)
  loss : -limits.maxDailyLoss < pnlToday

/-- The account has nothing in the other markets, or what it has there fits into what the entry leaves: its
exposure beside the figure that the engine computes for the market, its open positions if the entry opens one
more, and its loss beside the profit and loss of the market. -/
structure OthersFit (limits : RiskLimits) (intent : TradeIntent) (positions : List PortfolioPosition)
    (marketPnl othersPnl : ℚ) : Prop where
  exposure : AccountWithin limits positions → 0 < totalGross (outside intent.market positions) →
    totalGross (outside intent.market positions) ≤ limits.maxTotalGrossExposure -
      (totalGross (within intent.market positions) - currentNotional intent (within intent.market positions) +
        projectedNotional intent (within intent.market positions))
  open_positions : AccountWithin limits positions → 0 < existingOpen (outside intent.market positions) →
    opensNew intent (within intent.market positions) = true →
    existingOpen (outside intent.market positions) + existingOpen (within intent.market positions) <
      limits.maxOpenPositions
  loss : othersPnl < 0 → -limits.maxDailyLoss - marketPnl < othersPnl

/-! ### One market and the others -/

theorem within_eq_self {market : Market} {positions : List PortfolioPosition}
    (h : ∀ p ∈ positions, p.market = market) : within market positions = positions :=
  List.filter_eq_self.mpr fun p hp => decide_eq_true (h p hp)

theorem within_eq_nil {market other : Market} {positions : List PortfolioPosition}
    (h : ∀ p ∈ positions, p.market = other) (hne : other ≠ market) : within market positions = [] :=
  List.filter_eq_nil_iff.mpr fun p hp hmarket => hne ((h p hp).symm.trans (of_decide_eq_true hmarket))

theorem within_append (market : Market) (as bs : List PortfolioPosition) :
    within market (as ++ bs) = within market as ++ within market bs :=
  List.filter_append ..

/-- The positions of one market in the account are those that a snapshot of the market reads. -/
theorem within_accountPositions {accountId : String} {marks : Market → Dict String ℚ} {db : Database}
    {positions : List PortfolioPosition} (h : accountPositions accountId marks db = .ok positions) (market : Market) :
    loadOpenPositions market accountId (marks market) db = .ok (within market positions) := by
  unfold accountPositions allMarkets at h
  obtain ⟨parts, hparts, h₁⟩ := Effect.except_bind_eq_ok.mp h
  cases h₁
  obtain _ | ⟨hnse, _ | ⟨hforex, _ | ⟨hcrypto, ⟨⟩⟩⟩⟩ := Effect.forall₂_of_mapM hparts
  have hn := market_of_loadOpenPositions hnse
  have hf := market_of_loadOpenPositions hforex
  have hc := market_of_loadOpenPositions hcrypto
  simp only [List.flatten_cons, List.flatten_nil, List.append_nil, within_append]
  cases market with
  | nse =>
    rw [within_eq_self hn, within_eq_nil hf (by decide), within_eq_nil hc (by decide), hnse]
    simp
  | forex =>
    rw [within_eq_nil hn (by decide), within_eq_self hf, within_eq_nil hc (by decide), hforex]
    simp
  | crypto =>
    rw [within_eq_nil hn (by decide), within_eq_nil hf (by decide), within_eq_self hc, hcrypto]
    simp

theorem totalGross_nonneg (positions : List PortfolioPosition) : 0 ≤ totalGross positions := by
  refine List.sum_nonneg fun x hx => ?_
  obtain ⟨p, -, rfl⟩ := List.mem_map.mp hx
  exact abs_nonneg _

theorem totalGross_split (market : Market) (positions : List PortfolioPosition) :
    totalGross positions = totalGross (within market positions) + totalGross (outside market positions) := by
  induction positions with
  | nil => simp [within, outside, totalGross]
  | cons p ps ih =>
    by_cases hp : p.market = market
    · simp only [within, outside, List.filter_cons, hp, decide_true, if_true, ne_eq, not_true_eq_false, decide_false,
        Bool.false_eq_true, if_false, totalGross_cons] at ih ⊢
      rw [ih]
      ring
    · simp only [within, outside, List.filter_cons, hp, decide_true, if_true, ne_eq, not_false_eq_true, decide_false,
        Bool.false_eq_true, if_false, totalGross_cons] at ih ⊢
      rw [ih]
      ring

theorem existingOpen_split (market : Market) (positions : List PortfolioPosition) :
    existingOpen positions = existingOpen (within market positions) + existingOpen (outside market positions) := by
  induction positions with
  | nil => rfl
  | cons p ps ih =>
    by_cases hp : p.market = market
    · simp only [within, outside, List.filter_cons, hp, decide_true, if_true, ne_eq, not_true_eq_false, decide_false,
        Bool.false_eq_true, if_false, existingOpen_cons] at ih ⊢
      omega
    · simp only [within, outside, List.filter_cons, hp, decide_true, if_true, ne_eq, not_false_eq_true, decide_false,
        Bool.false_eq_true, if_false, existingOpen_cons] at ih ⊢
      omega

/-- The profit and loss of the account is that of one market and that of the others. -/
theorem pnlTodayIn_split (market : Market) (accountId : String) (now : Instant) (db : Database) :
    pnlTodayIn allMarkets accountId now db =
      loadRealizedPnlToday market accountId now db + pnlTodayIn (otherMarkets market) accountId now db := by
  cases market with
  | nse => simp [pnlTodayIn, otherMarkets, allMarkets]
  | forex =>
    simp [pnlTodayIn, otherMarkets, allMarkets]
    ring
  | crypto =>
    simp [pnlTodayIn, otherMarkets, allMarkets]
    ring

/-- The target of an entry is in its market, so the quantities of the account are those of the market. -/
theorem currentSigned_within (intent : TradeIntent) (positions : List PortfolioPosition) :
    currentSigned intent (within intent.market positions) = currentSigned intent positions := by
  simp only [currentSigned, within, target_filter_market]

/-- An entry that opens no position leaves at most as many open as before. -/
theorem existingOpen_of_not_opensNew (intent : TradeIntent) {positions : List PortfolioPosition}
    (h : ¬ opensNew intent positions = true) : existingOpen (postTrade intent positions) ≤ existingOpen positions := by
  have hcount := existingOpen_postTrade intent positions
  have hbits : openBit (projectedSigned intent positions) ≤ openBit (currentSigned intent positions) := by
    simp only [opensNew, Bool.and_eq_true, decide_eq_true_eq, not_and, not_not] at h
    unfold openBit
    split_ifs with h₁ h₂
    · exact le_rfl
    · exact absurd (h (not_not.mp h₂)) h₁
    · exact Nat.zero_le _
    · exact le_rfl
  omega

/-! ### The condition -/

section Condition

variable (limits : RiskLimits) (intent : TradeIntent) (positions : List PortfolioPosition)

theorem totalGross_after_iff :
    totalGross (postTrade intent positions) ≤ limits.maxTotalGrossExposure ↔
      totalGross (outside intent.market positions) ≤ limits.maxTotalGrossExposure -
        (totalGross (within intent.market positions) - currentNotional intent (within intent.market positions) +
          projectedNotional intent (within intent.market positions)) := by
  have hcurrent : currentNotional intent (within intent.market positions) = currentNotional intent positions := by
    simp only [currentNotional, within, target_filter_market]
  have hprojected : projectedNotional intent (within intent.market positions) = projectedNotional intent positions := by
    simp only [projectedNotional, projectedSigned, currentSigned_within]
  rw [totalGross_postTrade, totalGross_split intent.market positions, hcurrent, hprojected]
  constructor
  · intro h
    linarith
  · intro h
    linarith

theorem existingOpen_after_iff (hbefore : existingOpen positions ≤ limits.maxOpenPositions) :
    existingOpen (postTrade intent positions) ≤ limits.maxOpenPositions ↔
      (opensNew intent (within intent.market positions) = true →
        existingOpen (outside intent.market positions) + existingOpen (within intent.market positions) <
          limits.maxOpenPositions) := by
  have hopens : opensNew intent (within intent.market positions) = opensNew intent positions := by
    unfold opensNew projectedSigned
    rw [currentSigned_within]
  have hsplit := existingOpen_split intent.market positions
  rw [hopens]
  by_cases h : opensNew intent positions = true
  · rw [existingOpen_of_opensNew intent h]
    simp only [h, true_imp_iff]
    omega
  · have hle := existingOpen_of_not_opensNew intent h
    exact iff_of_true (hle.trans hbefore) fun hopen => absurd hopen h

end Condition

namespace Sample

open Risk.Sample

/-- Limits that admit one position of 10000. -/
def accountLimits : RiskLimits where
  maxOrderNotional := 10000
  maxPositionNotional := 10000
  maxMarketGrossExposure := 15000
  maxTotalGrossExposure := 15000
  maxDailyLoss := 2000
  maxOpenPositions := 1
  amounts_pos := by decide
  open_pos := Nat.one_pos

/-- The approval of the sample strategy. -/
def accountApproval : StrategyApproval where
  approvalId := "approval-1"
  identity := identity
  validationRunId := "validation-1"
  state := .approved
  approvedAt := noon - seconds 86400
  expiresAt := noon + seconds 86400
  approvedBy := "reviewer"
  reason := "validated"

/-- 100 shares at 100. -/
def nseEntry : TradeIntent := intent "1" "RELIANCE" .buy 100 100 (by decide)

/-- An open position of 10000 units at one. -/
def forexPosition : PositionRow where
  positionId := "position-1"
  market := "forex"
  accountId := "paper-1"
  symbol := "EURUSD"
  signedQuantity := 10000
  averageEntryPrice := 1
  realizedPnl := -3000
  totalFees := 0
  openedAt := noon - seconds 7200
  updatedAt := noon - seconds 3600
  closedAt := none
  state := "OPEN"
  decisionIds := ["decision-1"]
  strategyKeys := ["forex:momentum"]
  approvalIds := ["approval-2"]
  goldSnapshotIds := ["gold-2"]
  agentEvidenceIds := []

/-- The loss that the position realised in the morning. -/
def forexLoss : RealizationRow :=
  ⟨"event-1", "fill-1", "position-1", "forex", "paper-1", "EURUSD", -3000, 0, -3000, noon - seconds 3600⟩

/-- The latest marks. -/
def accountMarks : Market → Dict String ℚ
  | .nse => Dict.empty.set "RELIANCE" 100
  | .forex => Dict.empty.set "EURUSD" 1
  | .crypto => .empty

/-- An account that holds and lost in forex. -/
def forexAccount : Database := { positions := [forexPosition], realizationEvents := [forexLoss] }

end Sample

end NanoDelta.Runtime
