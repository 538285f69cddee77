import Mathlib
import NanoDelta.Contracts
import NanoDelta.Library.Dict
import NanoDelta.Library.Effect
import NanoDelta.Library.Machine

/-!
# Spending on a language model

`finops/core.py`: a guard over an in-memory ledger. A call of the model is authorised before it is made, against the
limits of a day and of the subscription, and its reservation is then recorded with the usage, or cancelled. Amounts of
money are exact rationals.

* `authorize`, `record`, `cancel`, `setKillSwitch`: the methods of `FinOpsGuard`.
* `finops`: their calls as a machine.
-/

namespace NanoDelta.Finops

open Library

/-! ### Contracts -/

/-- A `Decimal`: its text and its value. -/
structure Decimal where
  text : String
  value : ℚ
  deriving DecidableEq

/-- `BillingMode`. -/
inductive BillingMode where
  | payg
  | subscription
  deriving DecidableEq

/-- `Attribution`. -/
structure Attribution where
  market : Option Market
  component : String
  reason : String
  /-- The component and the reason are required. -/
  given : isBlank component = false ∧ isBlank reason = false
  deriving DecidableEq

/-- `TokenUsage`. -/
structure TokenUsage where
  inputTokens : ℕ
  outputTokens : ℕ
  cachedInputTokens : ℕ := 0
  reasoningTokens : ℕ := 0
  /-- Cached input is part of the input. -/
  cached_le : cachedInputTokens ≤ inputTokens
  deriving DecidableEq

/-- `TokenUsage.total_tokens`. -/
def TokenUsage.totalTokens (usage : TokenUsage) : ℕ := usage.inputTokens + usage.outputTokens

/-- `PriceTier`. -/
structure PriceTier where
  model : String
  deploymentScope : String
  maximumInputTokens : ℕ
  inputUsdPerMillion : ℚ
  cachedInputUsdPerMillion : ℚ
  outputUsdPerMillion : ℚ
  catalogVersion : String
  ceiling_pos : 1 ≤ maximumInputTokens
  prices_nonneg : 0 ≤ inputUsdPerMillion ∧ 0 ≤ cachedInputUsdPerMillion ∧ 0 ≤ outputUsdPerMillion

/-- `PriceTier.cost`. -/
def PriceTier.cost (tier : PriceTier) (usage : TokenUsage) : ℚ :=
  let uncached := usage.inputTokens - usage.cachedInputTokens
  (uncached * tier.inputUsdPerMillion + usage.cachedInputTokens * tier.cachedInputUsdPerMillion +
    usage.outputTokens * tier.outputUsdPerMillion) / 1000000

/-- `PriceCatalog`. -/
abbrev PriceCatalog := List PriceTier

/-- `PriceCatalog.tier`. -/
def PriceCatalog.tier (tiers : PriceCatalog) (model deploymentScope : String) (inputTokens : ℕ) :
    Except PyError PriceTier :=
  let matching := tiers.filter fun tier =>
    tier.model = model ∧ tier.deploymentScope = deploymentScope ∧ inputTokens ≤ tier.maximumInputTokens
  match matching.insertionSort fun a b => a.maximumInputTokens ≤ b.maximumInputTokens with
  | [] => .error (.lookupError
      ("no price tier for " ++ model ++ "/" ++ deploymentScope ++ "/" ++ toString inputTokens ++ " input tokens"))
  | tier :: _ => .ok tier

/-- `SubscriptionPlan`. -/
structure SubscriptionPlan where
  planId : String
  monthlyFeeUsd : ℚ
  fiveHourRequestLimit : Option ℕ := none
  weeklyRequestLimit : Option ℕ := none
  monthlyRequestLimit : Option ℕ := none
  fee_nonneg : 0 ≤ monthlyFeeUsd
  limits_pos : ∀ limit ∈ [fiveHourRequestLimit, weeklyRequestLimit, monthlyRequestLimit], limit ≠ some 0

/-- The windows of a plan, with their limits and what they are called. -/
def SubscriptionPlan.checks (plan : SubscriptionPlan) : List (Instant × Option ℕ × String) :=
  [(seconds (5 * 3600), plan.fiveHourRequestLimit, "5-hour"), (seconds (7 * 86400), plan.weeklyRequestLimit, "weekly"),
    (seconds (31 * 86400), plan.monthlyRequestLimit, "monthly")]

/-- `BudgetPolicy`. -/
structure BudgetPolicy where
  dailyRequestLimit : ℕ
  dailyTokenLimit : ℕ
  dailyCostLimitUsd : ℚ
  alertThresholds : List Decimal := [⟨"0.50", 1 / 2⟩, ⟨"0.80", 4 / 5⟩, ⟨"1.00", 1⟩]
  limits_pos : 1 ≤ dailyRequestLimit ∧ 1 ≤ dailyTokenLimit
  cost_nonneg : 0 ≤ dailyCostLimitUsd
  thresholds_mem : ∀ threshold ∈ alertThresholds, 0 < threshold.value ∧ threshold.value ≤ 1

/-- `UsageRecord`. -/
structure UsageRecord where
  recordId : String
  providerRequestId : String
  model : String
  deploymentScope : String
  billingMode : BillingMode
  attribution : Attribution
  usage : TokenUsage
  marginalCostUsd : ℚ
  catalogVersion : Option String
  occurredAt : Instant
  deriving DecidableEq

/-- `FinOpsAlert`. -/
structure FinOpsAlert where
  alertId : String
  alertType : String
  threshold : Decimal
  observed : ℚ
  occurredAt : Instant

/-- `Reservation`. -/
structure Reservation where
  reservationId : String
  estimatedTokens : ℕ
  estimatedCostUsd : ℚ
  createdAt : Instant
  deriving DecidableEq

/-- `DailyUsage`. -/
structure DailyUsage where
  requests : ℕ
  tokens : ℕ
  marginalCostUsd : ℚ
  deriving DecidableEq

/-! ### The ledger -/

/-- `value.date()` of a time in UTC, as a number of days. -/
def dateOf (t : Instant) : ℤ := t / 86400000000

/-- `str` of a date. -/
def dateText (t : Instant) : String :=
  let (year, month, day) := civil (dateOf t)
  padded 4 year ++ "-" ++ padded 2 month ++ "-" ++ padded 2 day

example : dateText (seconds 1786795200) = "2026-08-15" := by decide +kernel

/-- `InMemoryFinOpsLedger`. -/
structure InMemoryFinOpsLedger where
  records : Dict String UsageRecord := .empty
  reservations : Dict String Reservation := .empty
  alerts : Dict String FinOpsAlert := .empty
  killSwitch : Bool := false
  killReason : Option String := none

namespace InMemoryFinOpsLedger

variable (ledger : InMemoryFinOpsLedger)

/-- `daily`. -/
def daily (day : ℤ) : DailyUsage :=
  let records := ledger.records.values.filter fun record => dateOf record.occurredAt = day
  ⟨records.length, (records.map fun record => record.usage.totalTokens).sum,
    (records.map UsageRecord.marginalCostUsd).sum⟩

/-- `requests_since`. -/
def requestsSince (since : Instant) : ℕ := ledger.records.values.countP fun record => since ≤ record.occurredAt

/-- `reserved`. -/
def reserved : DailyUsage :=
  ⟨ledger.reservations.values.length, (ledger.reservations.values.map Reservation.estimatedTokens).sum,
    (ledger.reservations.values.map Reservation.estimatedCostUsd).sum⟩

end InMemoryFinOpsLedger

/-! ### The guard -/

/-- `FinOpsGuard`, without its ledger. -/
structure FinOpsGuard where
  provider : String
  billingMode : BillingMode
  policy : BudgetPolicy
  priceCatalog : Option PriceCatalog := none
  subscription : Option SubscriptionPlan := none
  /-- To pay as you go requires a price catalog, a subscription requires a plan. -/
  required : (billingMode = .payg → priceCatalog ≠ none) ∧ (billingMode = .subscription → subscription ≠ none)

section Guard

variable (host : Host) (guard : FinOpsGuard)

/-- `_cost`. -/
def cost (model deploymentScope : String) (usage : TokenUsage) : Except PyError (ℚ × Option String) :=
  match guard.billingMode with
  | .subscription => .ok (0, none)
  | .payg => do
    let tier ← (guard.priceCatalog.getD []).tier model deploymentScope usage.inputTokens
    return (tier.cost usage, some tier.catalogVersion)

/-- `_add_alert`. -/
def addAlert (ledger : InMemoryFinOpsLedger) (alertType : String) (threshold : Decimal) (observed : ℚ) (now : Instant) :
    InMemoryFinOpsLedger :=
  let alert : FinOpsAlert :=
    ⟨stableId host [alertType, threshold.text, dateText now], alertType, threshold, observed, now⟩
  match ledger.alerts.get? alert.alertId with
  | some _ => ledger
  | none => { ledger with alerts := ledger.alerts.set alert.alertId alert }

/-- `_kill`. -/
def kill (reason : String) (now : Instant) (ledger : InMemoryFinOpsLedger) : InMemoryFinOpsLedger :=
  addAlert host { ledger with killSwitch := true, killReason := some reason } "KILL_SWITCH" ⟨"1", 1⟩ 1 now

/-- The reason for which `_enforce_subscription` refuses a request, if it does. -/
def subscriptionReason (ledger : InMemoryFinOpsLedger) (now : Instant) : Option String :=
  (guard.subscription.elim [] SubscriptionPlan.checks).findSome? fun (window, limit, label) =>
    let projected := ledger.requestsSince (now - window) + ledger.reservations.values.length + 1
    if limit.any (· < projected) then some ("Qwen subscription " ++ label ++ " request quota reached") else none

/-- `_budget_reason`. -/
def budgetReason (usage : DailyUsage) : Option String :=
  if guard.policy.dailyRequestLimit < usage.requests then some "daily LLM request budget exceeded"
  else if guard.policy.dailyTokenLimit < usage.tokens then some "daily LLM token budget exceeded"
  else if guard.policy.dailyCostLimitUsd < usage.marginalCostUsd then some "daily LLM marginal-cost budget exceeded"
  else none

/-- The ratios that `_alerts_and_postcheck` compares with the thresholds. -/
def ratios (daily : DailyUsage) : List (String × ℚ) :=
  [("REQUEST_BUDGET", daily.requests / guard.policy.dailyRequestLimit),
    ("TOKEN_BUDGET", daily.tokens / guard.policy.dailyTokenLimit),
    ("COST_BUDGET", if 0 < guard.policy.dailyCostLimitUsd then daily.marginalCostUsd / guard.policy.dailyCostLimitUsd
      else 0)]

/-- `_alerts_and_postcheck`. -/
def alertsAndPostcheck (now : Instant) (ledger : InMemoryFinOpsLedger) : InMemoryFinOpsLedger :=
  let daily := ledger.daily (dateOf now)
  let alerted := (ratios guard daily).foldl (fun ledger (alertType, ratio) =>
    guard.policy.alertThresholds.foldl (fun ledger threshold =>
      if threshold.value ≤ ratio then addAlert host ledger alertType threshold ratio now else ledger) ledger) ledger
  match budgetReason guard daily with
  | none => alerted
  | some reason => kill host reason now alerted

/-- A reason to refuse: the kill switch is set, and it is raised. -/
def refuse (reason : Option String) (now : Instant) : EStateM PyError InMemoryFinOpsLedger PUnit :=
  match reason with
  | none => return
  | some reason => do
    modify (kill host reason now)
    throw (.permissionError reason)

/-- The usage of the day that `authorize` projects. -/
def projectedUsage (ledger : InMemoryFinOpsLedger) (now : Instant) (tokens : ℕ) (cost : ℚ) : DailyUsage :=
  let daily := ledger.daily (dateOf now)
  let reserved := ledger.reserved
  ⟨daily.requests + reserved.requests + 1, daily.tokens + reserved.tokens + tokens,
    daily.marginalCostUsd + reserved.marginalCostUsd + cost⟩

theorem zero_le_toNat (n : ℤ) : 0 ≤ n.toNat := Nat.zero_le _

/-- `authorize`. -/
def authorize (model deploymentScope : String) (estimatedInputTokens maximumOutputTokens : ℤ) (now : DateTime) :
    EStateM PyError InMemoryFinOpsLedger Reservation := do
  let now ← Effect.ofExcept (utc now "now")
  if min estimatedInputTokens maximumOutputTokens < 0 then
    throw (.valueError "estimated token counts cannot be negative")
  else do
    let ledger ← get
    if ledger.killSwitch then
      throw (.permissionError ("LLM spend kill-switch active: " ++ ledger.killReason.getD "None"))
    else do
      let usage : TokenUsage := ⟨estimatedInputTokens.toNat, maximumOutputTokens.toNat, 0, 0, zero_le_toNat estimatedInputTokens⟩
      let (estimatedCost, _) ← Effect.ofExcept (cost guard model deploymentScope usage)
      let projected := projectedUsage ledger now usage.totalTokens estimatedCost
      refuse host (subscriptionReason guard ledger now) now
      refuse host (budgetReason guard projected) now
      let reservation : Reservation :=
        ⟨stableId host [model, deploymentScope, isoformat now, toString projected.requests], usage.totalTokens,
          estimatedCost, now⟩
      modify fun ledger =>
        { ledger with reservations := ledger.reservations.set reservation.reservationId reservation }
      return reservation

/-- `record`. -/
def record (reservation : Reservation) (providerRequestId model deploymentScope : String) (attribution : Attribution)
    (usage : TokenUsage) (occurredAt : DateTime) : EStateM PyError InMemoryFinOpsLedger UsageRecord := do
  let occurredAt ← Effect.ofExcept (utc occurredAt "occurred_at")
  let ledger ← get
  if ledger.reservations.get? reservation.reservationId = none then
    throw (.valueError "unknown or already completed FinOps reservation")
  else do
    modify fun ledger => { ledger with reservations := ledger.reservations.erase reservation.reservationId }
    let (cost, catalogVersion) ← Effect.ofExcept (cost guard model deploymentScope usage)
    let record : UsageRecord :=
      ⟨stableId host [guard.provider, providerRequestId], providerRequestId, model, deploymentScope, guard.billingMode,
        attribution, usage, cost, catalogVersion, occurredAt⟩
    match ledger.records.get? record.recordId with
    | some existing =>
      if existing ≠ record then throw (.valueError "provider request ID is bound to different usage") else return existing
    | none => do
      modify fun ledger => { ledger with records := ledger.records.set record.recordId record }
      modify (alertsAndPostcheck host guard occurredAt)
      return record

/-- `cancel`. -/
def cancel (reservation : Reservation) : EStateM PyError InMemoryFinOpsLedger PUnit :=
  modify fun ledger => { ledger with reservations := ledger.reservations.erase reservation.reservationId }

/-- `set_kill_switch`. -/
def setKillSwitch (active : Bool) (reason : String) (now : DateTime) : EStateM PyError InMemoryFinOpsLedger PUnit := do
  modify fun ledger => { ledger with killSwitch := active, killReason := if active then some reason else none }
  if active then do
    let now ← Effect.ofExcept (utc now "now")
    modify fun ledger => addAlert host ledger "MANUAL_KILL_SWITCH" ⟨"1", 1⟩ 1 now

end Guard

/-! ### Calls -/

/-- A call of a method of the guard. -/
inductive Call where
  | authorize (model deploymentScope : String) (estimatedInputTokens maximumOutputTokens : ℤ) (now : DateTime)
  | record (reservation : Reservation) (providerRequestId model deploymentScope : String) (attribution : Attribution)
    (usage : TokenUsage) (occurredAt : DateTime)
  | cancel (reservation : Reservation)
  | setKillSwitch (active : Bool) (reason : String) (now : DateTime)

/-- The timestamp with which a request is authorised or recorded. -/
def Call.time : Call → Option Instant
  | .authorize _ _ _ _ (.aware t) => some t
  | .record _ _ _ _ _ _ (.aware t) => some t
  | _ => none

/-- The ledger after a call. -/
def Call.after (host : Host) (guard : FinOpsGuard) (ledger : InMemoryFinOpsLedger) : Call → InMemoryFinOpsLedger
  | .authorize model scope input output now =>
    Effect.final (Finops.authorize host guard model scope input output now ledger)
  | .record reservation requestId model scope attribution usage occurredAt =>
    Effect.final (Finops.record host guard reservation requestId model scope attribution usage occurredAt ledger)
  | .cancel reservation => Effect.final (Finops.cancel reservation ledger)
  | .setKillSwitch active reason now => Effect.final (Finops.setKillSwitch host active reason now ledger)

/-- The reservation that a call returns, if it does. -/
def Call.reserves (host : Host) (guard : FinOpsGuard) (ledger : InMemoryFinOpsLedger) : Call → Option Reservation
  | .authorize model scope input output now =>
    Effect.returned (Finops.authorize host guard model scope input output now ledger)
  | _ => none

/-- The calls of a guard's methods as a machine. -/
def finops (host : Host) (guard : FinOpsGuard) : Machine InMemoryFinOpsLedger Call (Option Reservation) where
  step ledger call := (call.after host guard ledger, call.reserves host guard ledger)

end NanoDelta.Finops
