import Mathlib.Data.List.Sort
import NanoDelta.Contracts
import NanoDelta.Library.Dict

/-!
# The strategy registry

Strategies are admitted by exact identity and by a current approval
(`strategies/registry.py`). The module has the identities, definitions and
approvals, and the two questions the runtime asks of the registry:
`require_approval` and `eligible`.
-/

namespace NanoDelta.Strategies

open Library

/-- `StrategyIdentity`, with what `__post_init__` checks. -/
structure StrategyIdentity where
  market : Market
  strategyId : String
  strategyVersion : String
  timeframe : String
  tradeHorizon : String
  featureSetVersion : ℕ
  /-- No text is blank. -/
  texts : isBlank strategyId = false ∧ isBlank strategyVersion = false ∧ isBlank timeframe = false ∧
    isBlank tradeHorizon = false
  /-- The feature set version is positive. -/
  version_pos : 1 ≤ featureSetVersion
  deriving DecidableEq

/-- The constructor of `StrategyIdentity`, with the checks of `__post_init__` in their order. -/
def StrategyIdentity.create (market : Market) (strategyId strategyVersion timeframe tradeHorizon : String)
    (featureSetVersion : ℕ) : Except PyError StrategyIdentity :=
  if h₁ : isBlank strategyId then .error (.valueError "strategy_id cannot be empty")
  else if h₂ : isBlank strategyVersion then .error (.valueError "strategy_version cannot be empty")
  else if h₃ : isBlank timeframe then .error (.valueError "timeframe cannot be empty")
  else if h₄ : isBlank tradeHorizon then .error (.valueError "trade_horizon cannot be empty")
  else if h₅ : featureSetVersion < 1 then .error (.valueError "feature_set_version must be positive")
  else .ok
    { market, strategyId, strategyVersion, timeframe, tradeHorizon, featureSetVersion
      texts := ⟨by simpa using h₁, by simpa using h₂, by simpa using h₃, by simpa using h₄⟩
      version_pos := not_lt.mp h₅ }

/-- `StrategyIdentity.key`. -/
def StrategyIdentity.key (host : Host) (identity : StrategyIdentity) : String :=
  stableId host
    [identity.market.value, identity.strategyId, identity.strategyVersion, identity.timeframe,
     identity.tradeHorizon, toString identity.featureSetVersion]

/-- The texts by which identities are ordered, before the feature set version. -/
def StrategyIdentity.sortTexts (identity : StrategyIdentity) : List String :=
  [identity.market.value, identity.strategyId, identity.strategyVersion, identity.timeframe,
   identity.tradeHorizon]

/-- The order of the dataclass: field by field. -/
def StrategyIdentity.le (a b : StrategyIdentity) : Bool :=
  a.sortTexts < b.sortTexts || (a.sortTexts = b.sortTexts && a.featureSetVersion ≤ b.featureSetVersion)

/-- `StrategyDefinition`. -/
structure StrategyDefinition where
  identity : StrategyIdentity
  family : String
  parameters : List (String × String)
  implementationRef : String
  deriving DecidableEq

/-- `ApprovalState`. -/
inductive ApprovalState where
  | approved
  | revoked
  deriving DecidableEq

/-- `StrategyApproval`. -/
structure StrategyApproval where
  approvalId : String
  identity : StrategyIdentity
  validationRunId : String
  state : ApprovalState
  approvedAt : Instant
  expiresAt : Instant
  approvedBy : String
  reason : String
  deriving DecidableEq

/-- `StrategyApproval.is_current`. -/
def StrategyApproval.isCurrent (approval : StrategyApproval) (t : Instant) : Bool :=
  approval.state = .approved && approval.approvedAt ≤ t && t < approval.expiresAt

/-- `StrategyRegistry`: the definitions and approvals it holds. -/
structure StrategyRegistry where
  definitions : Dict StrategyIdentity StrategyDefinition
  approvals : Dict String StrategyApproval
  /-- `register` files a definition under its identity. -/
  keyed : ∀ e ∈ definitions.entries, e.2.identity = e.1

/-- `max(items, key=approved_at)`: the first of the latest. -/
def latestApproval : List StrategyApproval → Option StrategyApproval
  | [] => none
  | a :: as =>
    some (as.foldl (fun best a => if best.approvedAt < a.approvedAt then a else best) a)

/-- `StrategyRegistry.require_approval`. -/
def StrategyRegistry.requireApproval (registry : StrategyRegistry) (identity : StrategyIdentity)
    (t : Instant) : Except PyError StrategyApproval :=
  if (registry.definitions.get? identity).isNone then
    .error (.lookupError "strategy identity is not registered")
  else
    match latestApproval (registry.approvals.values.filter fun a => a.identity = identity && a.isCurrent t) with
    | none => .error (.permissionError "no current approval for exact strategy identity")
    | some approval => .ok approval

/-- `StrategyRegistry.eligible`. A definition in the registry is registered, so the only error
`require_approval` can raise on it is the one that is caught. -/
def StrategyRegistry.eligible (registry : StrategyRegistry) (market : Market) (timeframe tradeHorizon : String)
    (featureSetVersion : ℕ) (t : Instant) : List StrategyDefinition :=
  let matching := registry.definitions.entries.filter fun e =>
    e.1.market = market && e.1.timeframe = timeframe && e.1.tradeHorizon = tradeHorizon &&
      e.1.featureSetVersion = featureSetVersion &&
      match registry.requireApproval e.1 t with
      | .ok _ => true
      | .error _ => false
  (matching.map Prod.snd).insertionSort fun a b => a.identity.le b.identity

theorem latestApproval_mem {as : List StrategyApproval} {a : StrategyApproval} (h : latestApproval as = some a) :
    a ∈ as := by
  cases as with
  | nil => cases h
  | cons b bs =>
    simp only [latestApproval, Option.some.injEq] at h
    subst h
    have hfold : ∀ (l : List StrategyApproval) (best : StrategyApproval),
        l.foldl (fun best a => if best.approvedAt < a.approvedAt then a else best) best ∈ best :: l := by
      intro l
      induction l with
      | nil => intro best; exact List.mem_cons_self ..
      | cons c cs ih =>
        intro best
        simp only [List.foldl_cons]
        split
        · exact List.mem_cons_of_mem _ (ih c)
        · rcases List.mem_cons.mp (ih best) with h | h
          · rw [h]; exact List.mem_cons_self ..
          · exact List.mem_cons_of_mem _ (List.mem_cons_of_mem _ h)
    exact hfold bs b

/-- The approval that is required is of the identity asked for, and current. -/
theorem requireApproval_ok {registry : StrategyRegistry} {identity : StrategyIdentity} {t : Instant}
    {approval : StrategyApproval} (h : registry.requireApproval identity t = .ok approval) :
    approval.identity = identity ∧ approval.isCurrent t = true := by
  unfold StrategyRegistry.requireApproval at h
  split at h
  · cases h
  · split at h
    · cases h
    · rename_i a ha
      cases h
      have hm := (List.mem_filter.mp (latestApproval_mem ha)).2
      simpa using hm

end NanoDelta.Strategies
