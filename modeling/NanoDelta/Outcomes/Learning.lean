import NanoDelta.Paper.Execution

/-!
# Outcomes

`outcomes/learning.py`, up to the recorder: the outcome of a closed position, attributed
to one strategy. A position has one outcome; recording it again returns the first one if
the inputs agree with it.
-/

namespace NanoDelta.Outcomes

open Library Strategies Paper

/-- `Outcome`. -/
structure Outcome where
  outcomeId : String
  positionId : String
  market : Market
  accountId : String
  symbol : String
  openedAt : Instant
  closedAt : Instant
  grossPnl : ℚ
  totalFees : ℚ
  netPnl : ℚ
  returnOnAllocatedCapital : ℚ
  decisionIds : List String
  approvalIds : List String
  goldSnapshotIds : List String
  agentEvidenceIds : List String
  strategyIdentity : StrategyIdentity
  recordedAt : Instant
  deriving DecidableEq

/-- `OutcomeRecorder`: the outcomes by position. -/
abbrev OutcomeRecorder := Dict String Outcome

/-- `math.isclose(a, b, rel_tol=1e-12)`. -/
def isclose (a b : ℚ) : Prop := |a - b| ≤ 1 / 10 ^ 12 * max |a| |b|

instance (a b : ℚ) : Decidable (isclose a b) := by unfold isclose; infer_instance

/-- The outcome of a position that was closed. -/
def outcomeOf (host : Host) (position : PaperPosition) (identity : StrategyIdentity) (allocatedCapital : ℚ)
    (closedAt recordedAt : Instant) : Outcome :=
  let net := position.realizedPnl - position.totalFees
  { outcomeId := stableId host ["outcome", position.positionId]
    positionId := position.positionId
    market := position.market
    accountId := position.accountId
    symbol := position.symbol
    openedAt := position.openedAt
    closedAt := closedAt
    grossPnl := position.realizedPnl
    totalFees := position.totalFees
    netPnl := net
    returnOnAllocatedCapital := net / allocatedCapital
    decisionIds := position.decisionIds
    approvalIds := position.approvalIds
    goldSnapshotIds := position.goldSnapshotIds
    agentEvidenceIds := position.agentEvidenceIds
    strategyIdentity := identity
    recordedAt := recordedAt }

/-- The part of `record` for a position that has no outcome yet. -/
def newOutcome (host : Host) (position : PaperPosition) (identity : StrategyIdentity) (allocatedCapital : ℚ)
    (recordedAt : DateTime) : Except PyError Outcome :=
  match position.state, position.closedAt with
  | .closed, some closedAt =>
    if position.market ≠ identity.market ∨ position.strategyKeys ≠ [identity.key host] then
      .error (.valueError "outcome requires one matching exact strategy identity")
    else
      match utc recordedAt "recorded_at" with
      | .error e => .error e
      | .ok recordedAt => .ok (outcomeOf host position identity allocatedCapital closedAt recordedAt)
  | _, _ => .error (.valueError "outcomes can be recorded only for closed positions")

/-- `OutcomeRecorder.record`. -/
def record (host : Host) (position : PaperPosition) (identity : StrategyIdentity) (allocatedCapital : ℚ)
    (recordedAt : DateTime) : EStateM PyError OutcomeRecorder Outcome := fun self =>
  if allocatedCapital ≤ 0 then .error (.valueError "allocated_capital must be finite and positive") self
  else
    match self.get? position.positionId with
    | some existing =>
      if existing.strategyIdentity ≠ identity ∨ ¬ isclose existing.returnOnAllocatedCapital
          ((position.realizedPnl - position.totalFees) / allocatedCapital) then
        .error (.valueError "position outcome is already bound to different inputs") self
      else .ok existing self
    | none =>
      match newOutcome host position identity allocatedCapital recordedAt with
      | .error e => .error e self
      | .ok outcome => .ok outcome (self.set position.positionId outcome)

/-- A call of `record` that returns gives the outcome that it files, or had filed, under the position;
a new outcome is in the symbol of the position. -/
theorem record_ok {host : Host} {position : PaperPosition} {identity : StrategyIdentity} {allocatedCapital : ℚ}
    {recordedAt : DateTime} {s s' : OutcomeRecorder} {outcome : Outcome}
    (h : record host position identity allocatedCapital recordedAt s = .ok outcome s') :
    (s.get? position.positionId = some outcome ∧ s' = s) ∨
      (outcome.symbol = position.symbol ∧ s' = s.set position.positionId outcome) := by
  unfold record at h
  split_ifs at h with hcapital
  cases hget : s.get? position.positionId with
  | some existing =>
    simp only [hget] at h
    split_ifs at h
    cases h
    exact Or.inl ⟨rfl, rfl⟩
  | none =>
    simp only [hget] at h
    cases hnew : newOutcome host position identity allocatedCapital recordedAt with
    | error e => simp only [hnew] at h; cases h
    | ok o =>
      simp only [hnew] at h
      cases h
      refine Or.inr ⟨?_, rfl⟩
      unfold newOutcome at hnew
      split at hnew
      · split_ifs at hnew
        cases recordedAt with
        | naive w => cases hnew
        | aware t =>
          cases hnew
          rfl
      · cases hnew

/-- A call of `record` that raises changes nothing. -/
theorem record_error {host : Host} {position : PaperPosition} {identity : StrategyIdentity} {allocatedCapital : ℚ}
    {recordedAt : DateTime} {s s' : OutcomeRecorder} {e : PyError}
    (h : record host position identity allocatedCapital recordedAt s = .error e s') : s' = s := by
  unfold record at h
  split_ifs at h with hcapital
  · cases h
    rfl
  cases hget : s.get? position.positionId with
  | some existing =>
    simp only [hget] at h
    split_ifs at h
    cases h
    rfl
  | none =>
    simp only [hget] at h
    cases hnew : newOutcome host position identity allocatedCapital recordedAt with
    | error e =>
      simp only [hnew] at h
      cases h
      rfl
    | ok o => simp only [hnew] at h; cases h

end NanoDelta.Outcomes
