import NanoDelta.Library.Effect
import NanoDelta.Library.Table
import NanoDelta.Strategies.Validation

/-!
# The strategy registry in PostgreSQL

`PostgresStrategyRegistry` (`strategies/postgres.py`): definitions, validations and approvals as rows of the schema
`research`, and as artifacts that a process keeps in the dictionaries of `StrategyRegistry`. A call first reads what the
process has not seen, then checks its own dictionaries, then writes. The columns of a definition, and the metrics, the
policy and the reasons of a validation, are kept as the values that they are read back as.

* `Artifacts`: the checks in memory. `Research`: the tables with their keys and constraints.
* `upsertApproval_cases`: everything that the write of an approval can do.
-/

namespace NanoDelta.Strategies

open Library

/-! ### In memory -/

/-- `StrategyApproval.revoke`. -/
def StrategyApproval.revoke (approval : StrategyApproval) (reason : String) : Except PyError StrategyApproval :=
  if isBlank reason then .error (.valueError "revocation reason cannot be empty")
  else .ok { approval with state := .revoked, reason }

/-- The dictionaries of `StrategyRegistry`. -/
structure Artifacts where
  definitions : Dict StrategyIdentity StrategyDefinition := .empty
  validations : Dict String ValidationResult := .empty
  approvals : Dict String StrategyApproval := .empty

/-- `StrategyRegistry.register`. -/
def Artifacts.register (self : Artifacts) (definition : StrategyDefinition) : Except PyError Artifacts :=
  if (self.definitions.get? definition.identity).any (· ≠ definition) then
    .error (.valueError "strategy identity is immutable; publish a new version")
  else .ok { self with definitions := self.definitions.set definition.identity definition }

/-- `StrategyRegistry.record_validation`. -/
def Artifacts.recordValidation (self : Artifacts) (result : ValidationResult) : Except PyError Artifacts :=
  if (self.definitions.get? result.identity).isNone then
    .error (.valueError "cannot validate an unregistered strategy")
  else if (self.validations.get? result.validationRunId).any (· ≠ result) then
    .error (.valueError "validation artifacts are immutable")
  else .ok { self with validations := self.validations.set result.validationRunId result }

/-- `StrategyRegistry.record_approval`. -/
def Artifacts.recordApproval (self : Artifacts) (approval : StrategyApproval) : Except PyError Artifacts :=
  if (self.definitions.get? approval.identity).isNone then
    .error (.valueError "cannot approve an unregistered strategy")
  else
    match (self.validations.get? approval.validationRunId).filter fun v => v.identity = approval.identity with
    | none => .error (.valueError "approval requires its exact-identity validation artifact")
    | some validation =>
      if validation.passed = false then .error (.permissionError "a failed validation cannot be approved")
      else if (self.approvals.get? approval.approvalId).any (· ≠ approval) then
        .error (.valueError "approval artifacts are immutable")
      else .ok { self with approvals := self.approvals.set approval.approvalId approval }

/-- `StrategyRegistry.revoke`: the revoked approval as well. -/
def Artifacts.revoke (self : Artifacts) (approvalId reason : String) : Except PyError (StrategyApproval × Artifacts) :=
  match self.approvals.get? approvalId with
  | none => .error (.keyError approvalId)
  | some approval => do
    let revoked ← approval.revoke reason
    return (revoked, { self with approvals := self.approvals.set approvalId revoked })

/-! ### Tables -/

/-- A row of `research.strategy_definitions`, its other columns as the definition that they make. -/
structure DefinitionRow where
  strategyKey : String
  definition : StrategyDefinition
  deriving DecidableEq

/-- A row of `research.validation_runs`. -/
structure ValidationRow where
  validationRunId : String
  strategyKey : String
  evaluatedAt : Instant
  passed : Bool
  metrics : ValidationMetrics
  policy : ValidationPolicy
  rejectionReasons : List String
  deriving DecidableEq

/-- A row of `research.strategy_approvals`. -/
structure ApprovalRow where
  approvalId : String
  strategyKey : String
  validationRunId : String
  state : ApprovalState
  approvedAt : Instant
  expiresAt : Instant
  approvedBy : String
  reason : String
  deriving DecidableEq

/-- A row of `research.nse_strategy_evidence`, what the trigger on approvals reads of it. -/
structure NseEvidenceRow where
  strategyKey : String
  validationRunId : String
  /-- `research_state = 'RESEARCH'`. -/
  isResearch : Bool

/-- The tables, with their primary keys. -/
structure Research where
  definitions : List DefinitionRow := []
  validations : List ValidationRow := []
  approvals : List ApprovalRow := []
  nseEvidence : List NseEvidenceRow := []
  definition_keys : (definitions.map DefinitionRow.strategyKey).Nodup := by simp
  validation_keys : (validations.map ValidationRow.validationRunId).Nodup := by simp
  approval_keys : (approvals.map ApprovalRow.approvalId).Nodup := by simp

/-- A row that breaks a constraint. -/
def constraintError (constraint : String) : PyError :=
  .databaseError ("new row violates constraint " ++ constraint)

namespace Research

variable (host : Host) (db : Research)

/-! ### Reads -/

/-- The definition with a key. -/
def definitionOf (strategyKey : String) : Option StrategyDefinition :=
  (db.definitions.find? fun row => row.strategyKey = strategyKey).map DefinitionRow.definition

/-- `_load_definition`. -/
def loadDefinition (identity : StrategyIdentity) : Except PyError StrategyDefinition :=
  match db.definitionOf (identity.key host) with
  | none => .error (.runtimeError "strategy definition insert did not persist")
  | some definition => .ok definition

/-- `_validation_from_row`, of a run joined with its definition. -/
def validationOf (validationRunId : String) : Option ValidationResult := do
  let row ← db.validations.find? fun row => row.validationRunId = validationRunId
  let definition ← db.definitionOf row.strategyKey
  return { validationRunId := row.validationRunId, identity := definition.identity, evaluatedAt := row.evaluatedAt,
           passed := row.passed, rejectionReasons := row.rejectionReasons, metrics := row.metrics, policy := row.policy }

/-- `_approval_from_row`, of an approval joined with its definition. -/
def approvalFromRow (row : ApprovalRow) : Option StrategyApproval :=
  (db.definitionOf row.strategyKey).map fun definition =>
    { approvalId := row.approvalId, identity := definition.identity, validationRunId := row.validationRunId,
      state := row.state, approvedAt := row.approvedAt, expiresAt := row.expiresAt, approvedBy := row.approvedBy,
      reason := row.reason }

/-- `_load_approval`. -/
def loadApproval (approvalId : String) : Except PyError StrategyApproval :=
  match (db.approvals.find? fun row => row.approvalId = approvalId).bind db.approvalFromRow with
  | none => .error (.lookupError "approval is not registered")
  | some approval => .ok approval

/-- A row is approved and in force. -/
def InForce (t : Instant) (row : ApprovalRow) : Prop := row.state = .approved ∧ row.approvedAt ≤ t ∧ t < row.expiresAt

instance (t : Instant) : DecidablePred (InForce t) := fun _ => inferInstanceAs (Decidable (_ ∧ _ ∧ _))

/-- `require_approval`. -/
def requireApproval (identity : StrategyIdentity) (t : Instant) : Except PyError StrategyApproval :=
  if (db.definitionOf (identity.key host)).isNone then
    .error (.lookupError "strategy identity is not registered")
  else
    let current := db.approvals.filter fun row => row.strategyKey = identity.key host ∧ InForce t row
    match latestApproval (current.filterMap db.approvalFromRow) with
    | none => .error (.permissionError "no current approval for exact strategy identity")
    | some approval => .ok approval

/-- `eligible`. -/
def eligible (market : Market) (timeframe tradeHorizon : String) (featureSetVersion : ℕ) (t : Instant) :
    List StrategyDefinition :=
  let matching := db.definitions.filter fun row =>
    row.definition.identity.market = market ∧ row.definition.identity.timeframe = timeframe ∧
      row.definition.identity.tradeHorizon = tradeHorizon ∧
      row.definition.identity.featureSetVersion = featureSetVersion ∧
      ∃ a ∈ db.approvals, a.strategyKey = row.strategyKey ∧ InForce t a
  (matching.map DefinitionRow.definition).insertionSort fun a b => a.identity.le b.identity

/-! ### Writes -/

/-- `INSERT INTO research.strategy_definitions … ON CONFLICT (strategy_key) DO NOTHING`. -/
def insertDefinition (definition : StrategyDefinition) : Except PyError Research :=
  if hkey : ∃ row ∈ db.definitions, row.strategyKey = definition.identity.key host then .ok db
  else if ∃ row ∈ db.definitions, row.definition.identity = definition.identity then
    .error (constraintError "strategy_definitions")
  else .ok
    { db with
      definitions := db.definitions ++ [⟨definition.identity.key host, definition⟩]
      definition_keys := Table.nodup_concat db.definition_keys fun row hrow heq => hkey ⟨row, hrow, heq⟩ }

/-- `INSERT INTO research.validation_runs … ON CONFLICT (validation_run_id) DO NOTHING`. -/
def insertValidation (result : ValidationResult) : Except PyError Research :=
  if hkey : ∃ row ∈ db.validations, row.validationRunId = result.validationRunId then .ok db
  else if ¬ ∃ row ∈ db.definitions, row.strategyKey = result.identity.key host then
    .error (constraintError "validation_runs_strategy_key_fkey")
  else .ok
    { db with
      validations := db.validations ++ [⟨result.validationRunId, result.identity.key host, result.evaluatedAt,
        result.passed, result.metrics, result.policy, result.rejectionReasons⟩]
      validation_keys := Table.nodup_concat db.validation_keys fun row hrow heq => hkey ⟨row, hrow, heq⟩ }

/-- The strategies whose approvals need evidence. -/
def evidencedStrategies : List String := ["vwap_pullback", "ema_rsi_continuation", "supertrend_adx"]

/-- `research.require_nse_technical_validation_evidence` refuses the row. -/
def Refuses (row : ApprovalRow) : Prop :=
  row.state = .approved ∧
    (∃ d ∈ db.definitions, d.strategyKey = row.strategyKey ∧ d.definition.identity.market = .nse ∧
      d.definition.identity.strategyId ∈ evidencedStrategies) ∧
    ¬ ∃ e ∈ db.nseEvidence, e.strategyKey = row.strategyKey ∧ e.validationRunId = row.validationRunId ∧
      e.isResearch = true ∧ ∃ v ∈ db.validations, v.validationRunId = e.validationRunId ∧ v.passed = true

instance : DecidablePred db.Refuses := fun _ => inferInstanceAs (Decidable (_ ∧ _ ∧ _))

/-- The row of an approval. -/
def approvalRow (approval : StrategyApproval) : ApprovalRow :=
  ⟨approval.approvalId, approval.identity.key host, approval.validationRunId, approval.state, approval.approvedAt,
    approval.expiresAt, approval.approvedBy, approval.reason⟩

/-- The tables with an approval appended. -/
def addApproval (row : ApprovalRow) (hkey : ∀ r ∈ db.approvals, r.approvalId ≠ row.approvalId) : Research :=
  { db with approvals := db.approvals ++ [row], approval_keys := Table.nodup_concat db.approval_keys hkey }

/-- The tables with the state and the reason of an approval changed. -/
def setApproval (approvalId : String) (state : ApprovalState) (reason : String) : Research :=
  { db with
    approvals := db.approvals.map fun r => if r.approvalId = approvalId then { r with state, reason } else r
    approval_keys := by
      have hkeys : (db.approvals.map fun r => if r.approvalId = approvalId then { r with state, reason } else r).map
          ApprovalRow.approvalId = db.approvals.map ApprovalRow.approvalId := by
        rw [List.map_map]
        refine List.map_congr_left fun r _ => ?_
        dsimp only [Function.comp]
        split_ifs <;> rfl
      rw [hkeys]
      exact db.approval_keys }

/-- `_upsert_approval`. -/
def upsertApproval (approval : StrategyApproval) : Except PyError Research :=
  let row := approvalRow host approval
  if db.Refuses row then .error (.databaseError "passing NSE validation evidence is required for paper approval")
  else if ¬ row.approvedAt < row.expiresAt then .error (constraintError "strategy_approvals_check")
  else
    match hfind : db.approvals.find? fun r => r.approvalId = row.approvalId with
    | none =>
      if ¬ ((∃ d ∈ db.definitions, d.strategyKey = row.strategyKey) ∧
          ∃ v ∈ db.validations, v.validationRunId = row.validationRunId) then
        .error (constraintError "strategy_approvals_fkey")
      else .ok (db.addApproval row fun r hr heq => absurd (List.find?_eq_none.mp hfind r hr) (by simpa using heq))
    | some old =>
      if old.state = .revoked ∧ row.state ≠ .revoked then .ok db
      else if db.Refuses { old with state := row.state, reason := row.reason } then
        .error (.databaseError "passing NSE validation evidence is required for paper approval")
      else .ok (db.setApproval row.approvalId row.state row.reason)

/-! ### What a write does -/

section Writes

variable {host} {db} {db' : Research}

/-- The definitions and the runs are kept, and so are the ids of the approvals. -/
structure Grows (db db' : Research) : Prop where
  definitions : ∀ row ∈ db.definitions, row ∈ db'.definitions
  validations : ∀ row ∈ db.validations, row ∈ db'.validations
  approvals : ∀ row ∈ db.approvals, ∃ row' ∈ db'.approvals, row'.approvalId = row.approvalId

theorem Grows.refl (db : Research) : db.Grows db :=
  ⟨fun _ h => h, fun _ h => h, fun row h => ⟨row, h, rfl⟩⟩

/-- Definitions are only added. -/
theorem insertDefinition_ok {definition : StrategyDefinition} (h : db.insertDefinition host definition = .ok db') :
    db'.validations = db.validations ∧ db'.approvals = db.approvals ∧ db.Grows db' := by
  unfold insertDefinition at h
  split_ifs at h
  · cases h
    exact ⟨rfl, rfl, .refl db⟩
  · cases h
    exact ⟨rfl, rfl, fun _ => List.mem_append_left _, fun _ h => h, fun row h => ⟨row, h, rfl⟩⟩

/-- Runs are only added. -/
theorem insertValidation_ok {result : ValidationResult} (h : db.insertValidation host result = .ok db') :
    db'.definitions = db.definitions ∧ db'.approvals = db.approvals ∧ db.Grows db' := by
  unfold insertValidation at h
  split_ifs at h
  · cases h
    exact ⟨rfl, rfl, .refl db⟩
  · cases h
    exact ⟨rfl, rfl, fun _ h => h, fun _ => List.mem_append_left _, fun row h => ⟨row, h, rfl⟩⟩

/-- **The write of an approval** adds a row with a stored definition and a stored run, or changes the state and the
reason of the row, unless that is revoked and the approval is not. -/
theorem upsertApproval_cases {approval : StrategyApproval} (h : db.upsertApproval host approval = .ok db') :
    (∃ hkey, db' = db.addApproval (approvalRow host approval) hkey ∧
      (∃ d ∈ db.definitions, d.strategyKey = approval.identity.key host) ∧
      ∃ v ∈ db.validations, v.validationRunId = approval.validationRunId) ∨
    (∃ old ∈ db.approvals, old.approvalId = approval.approvalId ∧
      (old.state = .revoked ∧ approval.state ≠ .revoked ∧ db' = db ∨
        (old.state = .revoked → approval.state = .revoked) ∧
          db' = db.setApproval approval.approvalId approval.state approval.reason)) := by
  unfold upsertApproval at h
  dsimp only at h
  by_cases hrefuses : db.Refuses (approvalRow host approval)
  · rw [if_pos hrefuses] at h
    cases h
  rw [if_neg hrefuses] at h
  by_cases hexpires : (approvalRow host approval).approvedAt < (approvalRow host approval).expiresAt
  · rw [if_neg (not_not.mpr hexpires)] at h
    split at h
    · split_ifs at h with hrefers
      cases h
      exact Or.inl ⟨_, rfl, hrefers.1, hrefers.2⟩
    · rename_i old hold
      have hmem := List.mem_of_find?_eq_some hold
      have hid : old.approvalId = (approvalRow host approval).approvalId := by simpa using List.find?_some hold
      refine Or.inr ⟨old, hmem, hid, ?_⟩
      split_ifs at h with hkept
      · cases h
        exact Or.inl ⟨hkept.1, hkept.2, rfl⟩
      · cases h
        exact Or.inr ⟨fun hrevoked => not_not.mp (not_and.mp hkept hrevoked), rfl⟩
  · rw [if_pos hexpires] at h
    cases h

theorem mem_setApproval {approvalId : String} {state : ApprovalState} {reason : String} {row : ApprovalRow} :
    row ∈ (db.setApproval approvalId state reason).approvals ↔ ∃ old ∈ db.approvals,
      (if old.approvalId = approvalId then { old with state, reason } else old) = row := List.mem_map

theorem upsertApproval_grows {approval : StrategyApproval} (h : db.upsertApproval host approval = .ok db') :
    db.Grows db' := by
  rcases upsertApproval_cases h with ⟨hkey, rfl, -⟩ | ⟨old, -, -, ⟨-, -, rfl⟩ | ⟨-, rfl⟩⟩
  · exact ⟨fun _ h => h, fun _ h => h, fun row h => ⟨row, List.mem_append_left _ h, rfl⟩⟩
  · exact .refl _
  · refine ⟨fun _ h => h, fun _ h => h, fun row h => ⟨_, mem_setApproval.mpr ⟨row, h, rfl⟩, ?_⟩⟩
    split_ifs <;> rfl

/-- The write of an approval does not change the definitions. -/
theorem definitions_of_upsertApproval {approval : StrategyApproval} (h : db.upsertApproval host approval = .ok db') :
    db'.definitions = db.definitions := by
  rcases upsertApproval_cases h with ⟨hkey, rfl, -⟩ | ⟨old, -, -, ⟨-, -, rfl⟩ | ⟨-, rfl⟩⟩
  · rfl
  · rfl
  · rfl

end Writes

/-! ### What a read returns -/

section Reads

variable {host} {db} {t : Instant}

/-- **`require_approval`** returns an approval in force with the key of the identity, as it is read with its
definition. -/
theorem of_requireApproval {identity : StrategyIdentity} {approval : StrategyApproval}
    (h : db.requireApproval host identity t = .ok approval) :
    ∃ row ∈ db.approvals, row.strategyKey = identity.key host ∧ InForce t row ∧
      db.approvalFromRow row = some approval := by
  unfold requireApproval at h
  split_ifs at h
  dsimp only at h
  cases hlatest : latestApproval ((db.approvals.filter fun row =>
      row.strategyKey = identity.key host ∧ InForce t row).filterMap db.approvalFromRow) with
  | none =>
    rw [hlatest] at h
    cases h
  | some latest =>
    rw [hlatest] at h
    cases h
    obtain ⟨row, hrow, hread⟩ := List.mem_filterMap.mp (latestApproval_mem hlatest)
    obtain ⟨hmem, hcurrent⟩ := List.mem_filter.mp hrow
    obtain ⟨hkey, hforce⟩ := of_decide_eq_true hcurrent
    exact ⟨row, hmem, hkey, hforce, hread⟩

/-- **What is `eligible`**: the definitions with these fields that have an approval in force. -/
theorem mem_eligible {market : Market} {timeframe tradeHorizon : String} {featureSetVersion : ℕ}
    {definition : StrategyDefinition} :
    definition ∈ db.eligible market timeframe tradeHorizon featureSetVersion t ↔
      ∃ d ∈ db.definitions, d.definition = definition ∧
        (definition.identity.market = market ∧ definition.identity.timeframe = timeframe ∧
          definition.identity.tradeHorizon = tradeHorizon ∧
          definition.identity.featureSetVersion = featureSetVersion) ∧
        ∃ a ∈ db.approvals, a.strategyKey = d.strategyKey ∧ InForce t a := by
  unfold eligible
  rw [List.mem_insertionSort, List.mem_map]
  constructor
  · rintro ⟨d, hd, rfl⟩
    obtain ⟨hmem, hmatches⟩ := List.mem_filter.mp hd
    obtain ⟨hmarket, htimeframe, hhorizon, hversion, hforce⟩ := of_decide_eq_true hmatches
    exact ⟨d, hmem, rfl, ⟨hmarket, htimeframe, hhorizon, hversion⟩, hforce⟩
  · rintro ⟨d, hmem, rfl, ⟨hmarket, htimeframe, hhorizon, hversion⟩, hforce⟩
    refine ⟨d, List.mem_filter.mpr ⟨hmem, ?_⟩, rfl⟩
    exact decide_eq_true ⟨hmarket, htimeframe, hhorizon, hversion, hforce⟩

end Reads

end Research

end NanoDelta.Strategies
