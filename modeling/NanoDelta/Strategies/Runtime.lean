import NanoDelta.Risk.Engine

/-!
# Strategy plugins

`strategies/runtime.py`: the context a strategy sees, the signal it may give, the
candidate made of the two, and the catalog of the plugins. A strategy is any pair
of functions on contexts; both may raise.

The records carry what their `__post_init__` checks. In particular a signal has a
positive reference price, and its stop and target lie on the two sides of it.
-/

namespace NanoDelta.Strategies

open Library

theorem ones_nonneg : (0 : ℚ) ≤ 1 ∧ (0 : ℚ) ≤ 1 ∧ (0 : ℚ) ≤ 1 ∧ (0 : ℚ) ≤ 1 := by decide

/-- `RegimeEvidence`. -/
structure RegimeEvidence where
  marketFit : ℚ := 1
  sectorFit : ℚ := 1
  symbolFit : ℚ := 1
  mtfAlignment : ℚ := 1
  symbolRegimeLabel : String := "UNKNOWN"
  /-- No term is negative. -/
  nonneg : 0 ≤ marketFit ∧ 0 ≤ sectorFit ∧ 0 ≤ symbolFit ∧ 0 ≤ mtfAlignment := by exact ones_nonneg
  deriving DecidableEq

/-- `StrategyContext`. -/
structure StrategyContext where
  market : Market
  symbol : String
  sector : Option String
  timeframe : String
  tradeHorizon : String
  featureSetVersion : ℕ
  eventTime : Instant
  goldSnapshotIds : List String
  features : Dict String ℚ
  settled : Bool := true
  complete : Bool := true
  adjusted : Bool := true
  fresh : Bool := true
  warm : Bool := true
  tradeable : Bool := true
  tradeabilityReason : String := "TRADEABLE"
  regime : RegimeEvidence := {}
  /-- The symbol, the timeframe and the horizon are given. -/
  texts : symbol ≠ "" ∧ timeframe ≠ "" ∧ tradeHorizon ≠ ""
  /-- The feature version is positive and there is Gold lineage. -/
  lineage : 1 ≤ featureSetVersion ∧ goldSnapshotIds ≠ []
  deriving DecidableEq

/-- The constructor of `StrategyContext`, with the checks of `__post_init__` in their order. -/
def StrategyContext.create (market : Market) (symbol : String) (sector : Option String)
    (timeframe tradeHorizon : String) (featureSetVersion : ℕ) (eventTime : DateTime)
    (goldSnapshotIds : List String) (features : Dict String ℚ) (fresh tradeable : Bool)
    (tradeabilityReason : String) (regime : RegimeEvidence) : Except PyError StrategyContext :=
  if h₁ : symbol = "" ∨ timeframe = "" ∨ tradeHorizon = "" then
    .error (.valueError "symbol, timeframe, and trade_horizon are required")
  else if h₂ : featureSetVersion < 1 ∨ goldSnapshotIds = [] then
    .error (.valueError "positive feature version and Gold lineage are required")
  else
    match utc eventTime "event_time" with
    | .error e => .error e
    | .ok eventTime => .ok
      { market, symbol, sector, timeframe, tradeHorizon, featureSetVersion, eventTime, goldSnapshotIds, features,
        fresh, tradeable, tradeabilityReason, regime
        texts := by simpa [not_or] using h₁
        lineage := by simpa [not_or, Nat.one_le_iff_ne_zero] using h₂ }

/-- The constructor of `RegimeEvidence`. -/
def RegimeEvidence.create (marketFit sectorFit symbolFit mtfAlignment : ℚ) (symbolRegimeLabel : String) :
    Except PyError RegimeEvidence :=
  if h : 0 ≤ marketFit ∧ 0 ≤ sectorFit ∧ 0 ≤ symbolFit ∧ 0 ≤ mtfAlignment then
    .ok ⟨marketFit, sectorFit, symbolFit, mtfAlignment, symbolRegimeLabel, h⟩
  else .error (.valueError "regime scoring terms must be finite and non-negative")

/-- The stop and the target are on the two sides of the price, as the action needs them. -/
def Geometry (action : AdvisoryAction) (stop price target : ℚ) : Prop :=
  match action with
  | .buy => stop < price ∧ price < target
  | .sell => target < price ∧ price < stop
  | .abstain => False

instance (action : AdvisoryAction) (stop price target : ℚ) : Decidable (Geometry action stop price target) := by
  unfold Geometry; cases action <;> infer_instance

/-- `StrategySignal`. -/
@[ext] structure StrategySignal where
  action : AdvisoryAction
  confidence : ℚ
  referencePrice : ℚ
  stopPrice : ℚ
  targetPrice : ℚ
  estimatedCostR : ℚ := 0
  historicalExpectancyR : ℚ := 0
  mlTiltR : ℚ := 0
  /-- The confidence is a probability. -/
  confidence_mem : 0 ≤ confidence ∧ confidence ≤ 1
  /-- The reference price is positive. -/
  referencePrice_pos : 0 < referencePrice
  /-- The cost is not negative. -/
  cost_nonneg : 0 ≤ estimatedCostR
  /-- The signal buys or sells, between its stop and its target. -/
  geometry : Geometry action stopPrice referencePrice targetPrice

instance : DecidableEq StrategySignal := fun _ _ => decidable_of_iff _ StrategySignal.ext_iff.symm

/-- The constructor of `StrategySignal`, with the checks of `__post_init__` in their order. -/
def StrategySignal.create (action : AdvisoryAction) (confidence referencePrice stopPrice targetPrice
    estimatedCostR historicalExpectancyR mlTiltR : ℚ) : Except PyError StrategySignal :=
  if action = .abstain then .error (.valueError "a strategy signal must be BUY or SELL")
  else if h₁ : ¬ (0 ≤ confidence ∧ confidence ≤ 1) ∨ referencePrice ≤ 0 then
    .error (.valueError "signal confidence or reference price is invalid")
  else if h₂ : estimatedCostR < 0 then .error (.valueError "estimated cost cannot be negative")
  else if h₃ : ¬ Geometry action stopPrice referencePrice targetPrice then
    .error (.valueError
      (if action = .buy then "BUY geometry requires stop < entry < target"
        else "SELL geometry requires target < entry < stop"))
  else .ok
    { action, confidence, referencePrice, stopPrice, targetPrice, estimatedCostR, historicalExpectancyR, mlTiltR
      confidence_mem := not_not.mp (not_or.mp h₁).1
      referencePrice_pos := not_le.mp (not_or.mp h₁).2
      cost_nonneg := nonneg_of_not_neg h₂
      geometry := not_not.mp h₃ }

/-- The stop is not at the reference price. -/
theorem StrategySignal.stop_ne (signal : StrategySignal) : signal.referencePrice ≠ signal.stopPrice := by
  have h := signal.geometry
  unfold Geometry at h
  cases ha : signal.action with
  | buy => rw [ha] at h; exact h.1.ne'
  | sell => rw [ha] at h; exact h.2.ne
  | abstain => rw [ha] at h; exact h.elim

/-- `DeterministicCandidate`. -/
structure DeterministicCandidate where
  candidateId : String
  identity : StrategyIdentity
  approvalId : String
  symbol : String
  sector : Option String
  eventTime : Instant
  goldSnapshotIds : List String
  signal : StrategySignal
  regime : RegimeEvidence
  deriving DecidableEq

/-- `DeterministicCandidate.create`. -/
def DeterministicCandidate.create (host : Host) (definition : StrategyDefinition) (approvalId : String)
    (context : StrategyContext) (signal : StrategySignal) : DeterministicCandidate where
  candidateId := stableId host
    ([definition.identity.key host, context.symbol, isoformat context.eventTime, signal.action.value] ++
      context.goldSnapshotIds)
  identity := definition.identity
  approvalId := approvalId
  symbol := context.symbol
  sector := context.sector
  eventTime := context.eventTime
  goldSnapshotIds := context.goldSnapshotIds
  signal := signal
  regime := context.regime

/-- `StrategyPlugin`. -/
structure StrategyPlugin where
  definition : StrategyDefinition
  compatibility : StrategyContext → Except PyError (Bool × String)
  generate : StrategyContext → Except PyError (Option StrategySignal)

/-- `StrategyRuntimeCatalog`: the plugins by identity. -/
abbrev StrategyRuntimeCatalog := Dict StrategyIdentity StrategyPlugin

/-- `StrategyRuntimeCatalog.require`. -/
def StrategyRuntimeCatalog.require (catalog : StrategyRuntimeCatalog) (identity : StrategyIdentity) :
    Except PyError StrategyPlugin :=
  match catalog.get? identity with
  | some plugin => .ok plugin
  | none => .error (.lookupError "approved strategy has no runtime plugin")

end NanoDelta.Strategies
