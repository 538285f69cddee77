import Mathlib
import NanoDelta.Strategies.Admission
import NanoDelta.Validation.Nse

/-!
# Reviewed admission

`NseValidationService` (`validation/service.py`) over `PostgresNseValidationStore` (`validation/postgres.py`): campaigns
and evidence are recorded, and a reviewer promotes evidence. A promotion reads its target, has the registry approve it,
and records the link between the two: three transactions, between which the other processes run, and any of which may
fail. Times are in UTC, as the commands pass them.

* `promotionTarget`, `recordStrategyEvidence`, `recordPromotion`: the transactions of the store.
* `desk`: the processes of the registry with the promotions of the service as a machine.
* `promotions_linked`: every promotion links passing evidence to an approval of its strategy and its run, for good.
* `paper_approved_is_admitted`: what the view shows as admitted, the registry admits.
-/

namespace NanoDelta.Validation

open Library Strategies

/-! ### Tables -/

/-- A row of `research.nse_validation_campaigns`, what is read of it. -/
structure CampaignRow where
  campaignId : String
  evaluatedAt : Instant
  requestedStart : Instant
  requestedEnd : Instant
  minimumHistoryDays : ℕ
  deriving DecidableEq

/-- A row of `research.nse_strategy_evidence`, what is read of it. -/
structure StrategyEvidenceRow where
  evidenceId : String
  campaignId : String
  validationRunId : String
  strategyKey : String
  state : ResearchState
  dataFingerprint : String
  deriving DecidableEq

/-- The row as the trigger on approvals sees it. -/
def StrategyEvidenceRow.seen (row : StrategyEvidenceRow) : NseEvidenceRow :=
  ⟨row.strategyKey, row.validationRunId, row.state = .research⟩

/-- A row of `research.nse_strategy_promotions`. -/
structure PromotionRow where
  promotionId : String
  evidenceId : String
  approvalId : String
  reviewedBy : String
  reviewReason : String
  promotedAt : Instant
  deriving DecidableEq

/-- `PromotionTarget`. -/
structure PromotionTarget where
  evidenceId : String
  validationRunId : String
  identity : StrategyIdentity
  state : ResearchState
  passed : Bool

/-- The arguments of `promote`. -/
structure PromoteCall where
  evidenceId : String
  reviewedBy : String
  reason : String
  approvedAt : Instant
  expiresAt : Instant
  deriving DecidableEq

/-- `StrategyApproval.create`. -/
def createApproval (host : Host) (identity : StrategyIdentity) (validationRunId : String) (approvedAt expiresAt : Instant)
    (approvedBy reason : String) : Except PyError StrategyApproval :=
  if expiresAt ≤ approvedAt then .error (.valueError "approval must expire after it is approved")
  else if validationRunId = "" ∨ approvedBy = "" ∨ reason = "" then
    .error (.valueError "validation_run_id, approved_by, and reason are required")
  else .ok
    { approvalId := stableId host [identity.key host, validationRunId, isoformat approvedAt]
      identity, validationRunId, state := .approved, approvedAt, expiresAt, approvedBy, reason }

/-! ### Transactions -/

section Store

variable (host : Host)

/-- `record_campaign`. -/
def recordCampaign (campaigns : List CampaignRow) (campaign : NseValidationCampaign) : Except PyError (List CampaignRow) := do
  let row : CampaignRow := ⟨campaign.campaignId, campaign.evaluatedAt, campaign.requestedStart, campaign.requestedEnd,
    campaign.config.minimumHistoryDays⟩
  let campaigns ← Table.insertOrSkip (730 ≤ row.minimumHistoryDays ∧ row.requestedStart < row.requestedEnd)
    (fun r : CampaignRow => r.campaignId = row.campaignId) True (constraintError "nse_validation_campaigns") row campaigns
  if campaigns.find? (fun r => r.campaignId = row.campaignId) ≠ some row then
    .error (.valueError "NSE validation campaigns are immutable")
  else return campaigns

/-- The row of some evidence. -/
def evidenceRow (evidence : NseStrategyEvidence) : StrategyEvidenceRow :=
  ⟨evidence.evidenceId, evidence.campaignId, evidence.validation.validationRunId, evidence.validation.identity.key host,
    evidence.state, evidence.dataFingerprint⟩

/-- What the constraints ask of a new row of evidence: what it refers to, and one for a campaign and a strategy. -/
def StrategyEvidenceRow.Allowed (row : StrategyEvidenceRow) (db : Research) (campaigns : List CampaignRow)
    (rows : List StrategyEvidenceRow) : Prop :=
  (∃ c ∈ campaigns, c.campaignId = row.campaignId) ∧
    (∃ v ∈ db.validations, v.validationRunId = row.validationRunId) ∧
      (∃ d ∈ db.definitions, d.strategyKey = row.strategyKey) ∧
        ∀ r ∈ rows, ¬ (r.campaignId = row.campaignId ∧ r.strategyKey = row.strategyKey)

instance (row : StrategyEvidenceRow) (db : Research) (campaigns : List CampaignRow) (rows : List StrategyEvidenceRow) :
    Decidable (row.Allowed db campaigns rows) := inferInstanceAs (Decidable (_ ∧ _ ∧ _ ∧ _))

/-- `record_strategy_evidence`. -/
def recordStrategyEvidence (db : Research) (campaigns : List CampaignRow) (rows : List StrategyEvidenceRow)
    (row : StrategyEvidenceRow) : Except PyError (List StrategyEvidenceRow) := do
  let rows ← Table.insertOrSkip True (fun r : StrategyEvidenceRow => r.evidenceId = row.evidenceId)
    (row.Allowed db campaigns rows) (constraintError "nse_strategy_evidence") row rows
  if rows.find? (fun r => r.evidenceId = row.evidenceId) ≠ some row then
    .error (.valueError "NSE strategy evidence is immutable")
  else return rows

/-- `promotion_target`. -/
def promotionTarget (db : Research) (rows : List StrategyEvidenceRow) (evidenceId : String) :
    Except PyError PromotionTarget :=
  let target : Option PromotionTarget := do
    let row ← rows.find? fun r => r.evidenceId = evidenceId
    let run ← db.validations.find? fun v => v.validationRunId = row.validationRunId
    let definition ← db.definitionOf row.strategyKey
    return ⟨row.evidenceId, row.validationRunId, definition.identity, row.state, run.passed⟩
  match target with
  | none => .error (.lookupError "NSE strategy evidence does not exist")
  | some target => .ok target

/-- What `record_promotion` selects: evidence for paper with its run, passed, and an approval of both. -/
def Linkable (db : Research) (rows : List StrategyEvidenceRow) (evidenceId approvalId : String) : Prop :=
  ∃ e ∈ rows, e.evidenceId = evidenceId ∧ e.state = .research ∧
    (∃ v ∈ db.validations, v.validationRunId = e.validationRunId ∧ v.passed = true) ∧
      ∃ a ∈ db.approvals, a.approvalId = approvalId ∧ a.validationRunId = e.validationRunId ∧
        a.strategyKey = e.strategyKey ∧ a.state = .approved

instance (db : Research) (rows : List StrategyEvidenceRow) (evidenceId approvalId : String) :
    Decidable (Linkable db rows evidenceId approvalId) := inferInstanceAs (Decidable (∃ e ∈ rows, _))

/-- The row of a promotion. -/
def promotionRow (call : PromoteCall) (approvalId : String) : PromotionRow :=
  ⟨stableId host [call.evidenceId, approvalId, call.reviewedBy, isoformat call.approvedAt], call.evidenceId, approvalId,
    call.reviewedBy, call.reason, call.approvedAt⟩

/-- `INSERT INTO research.nse_strategy_promotions … SELECT … ON CONFLICT (promotion_id) DO NOTHING`. -/
def insertPromotion (db : Research) (rows : List StrategyEvidenceRow) (promotions : List PromotionRow)
    (row : PromotionRow) : Except PyError (List PromotionRow) :=
  if Linkable db rows row.evidenceId row.approvalId then
    Table.insertOrSkip True (fun r : PromotionRow => r.promotionId = row.promotionId)
      (∀ r ∈ promotions, r.evidenceId ≠ row.evidenceId ∧ r.approvalId ≠ row.approvalId)
      (constraintError "nse_strategy_promotions") row promotions
  else .ok promotions

/-- `record_promotion`. -/
def recordPromotion (db : Research) (rows : List StrategyEvidenceRow) (promotions : List PromotionRow)
    (row : PromotionRow) : Except PyError (List PromotionRow) := do
  let promotions ← insertPromotion db rows promotions row
  if promotions.find? (fun r => r.promotionId = row.promotionId) ≠ some row then
    .error (.permissionError "promotion linkage is missing or immutable")
  else return promotions

/-- The approval that `promote` asks the registry for. -/
def approvalFor (db : Research) (rows : List StrategyEvidenceRow) (call : PromoteCall) : Except PyError StrategyApproval := do
  let target ← promotionTarget db rows call.evidenceId
  if target.state ≠ .research ∨ target.passed = false then
    .error (.permissionError "only passing RESEARCH evidence can be paper-approved")
  else createApproval host target.identity target.validationRunId call.approvedAt call.expiresAt call.reviewedBy call.reason

end Store

/-! ### The machine -/

/-- Where a promotion stands, before its next transaction. -/
inductive PromoteStage where
  | target (call : PromoteCall)
  | approve (call : PromoteCall) (approval : StrategyApproval)
  | record (call : PromoteCall) (approval : StrategyApproval)

/-- The tables, the processes of the registry, and the promotions that are under way in them. -/
structure Desk where
  registry : Cluster := {}
  campaigns : List CampaignRow := []
  evidence : List StrategyEvidenceRow := []
  promotions : List PromotionRow := []
  pending : ℕ → Option PromoteStage := fun _ => none

/-- What can happen. -/
inductive DeskInput where
  /-- An idle process calls the registry. -/
  | call (i : ℕ) (call : RegistryCall)
  /-- An idle process promotes. -/
  | promote (i : ℕ) (call : PromoteCall)
  /-- The next statement of a process. -/
  | advance (i : ℕ) (fault : Option DatabaseFault)
  /-- A process is started anew. -/
  | restart (i : ℕ)
  | recordCampaign (campaign : NseValidationCampaign)
  | recordEvidence (evidence : NseStrategyEvidence)

/-- What a call returns or raises: `promote` returns its approval. -/
abbrev DeskOutput := Option (Except PyError (Option StrategyApproval))

section Machine

variable (host : Host)

/-- The tables with evidence: the registry sees a row that is new. -/
def Desk.addEvidence (s : Desk) (row : StrategyEvidenceRow) (rows : List StrategyEvidenceRow) : Desk :=
  { s with
    evidence := rows
    registry := if ∃ r ∈ s.evidence, r.evidenceId = row.evidenceId then s.registry
      else ((cluster host).step s.registry (.evidence row.seen)).1 }

/-- A process with a promotion at another stage, or with none. -/
def Desk.set (s : Desk) (i : ℕ) (stage : Option PromoteStage) : Desk :=
  { s with pending := Function.update s.pending i stage }

/-- The next statement of a promotion. -/
def Desk.advance (s : Desk) (i : ℕ) (fault : Option DatabaseFault) : PromoteStage → Desk × DeskOutput
  | .target call =>
    if fault.isSome then (s.set i none, some (.error connectionLost))
    else
      match approvalFor host s.registry.db s.evidence call with
      | .error e => (s.set i none, some (.error e))
      | .ok approval =>
        ({ s with registry := ((cluster host).step s.registry (.call i (.recordApproval approval))).1 }.set i
          (some (.approve call approval)), none)
  | .approve call approval =>
    let s' : Desk := { s with registry := ((cluster host).step s.registry (.advance i fault)).1 }
    match ((cluster host).step s.registry (.advance i fault)).2 with
    | none => (s', none)
    | some (.ok ()) => (s'.set i (some (.record call approval)), none)
    | some (.error e) => (s'.set i none, some (.error e))
  | .record call approval =>
    if fault.isSome then (s.set i none, some (.error connectionLost))
    else
      match recordPromotion s.registry.db s.evidence s.promotions (promotionRow host call approval.approvalId) with
      | .error e => (s.set i none, some (.error e))
      | .ok promotions => ({ s with promotions }.set i none, some (.ok (some approval)))

/-- The processes over one database. -/
def desk : Machine Desk DeskInput DeskOutput where
  step s
    | .call i call =>
      if (s.pending i).isSome then (s, none)
      else ({ s with registry := ((cluster host).step s.registry (.call i call)).1 }, none)
    | .promote i call =>
      if (s.pending i).isSome ∨ (s.registry.replicas i).rest ≠ [] then (s, none)
      else if isBlank call.reviewedBy ∨ isBlank call.reason then
        (s, some (.error (.valueError "reviewed_by and reason are required")))
      else (s.set i (some (.target call)), none)
    | .advance i fault =>
      match s.pending i with
      | none =>
        ({ s with registry := ((cluster host).step s.registry (.advance i fault)).1 },
          ((cluster host).step s.registry (.advance i fault)).2.map fun result => result.map fun _ => none)
      | some stage => s.advance host i fault stage
    | .restart i => ({ s with registry := ((cluster host).step s.registry (.restart i)).1 }.set i none, none)
    | .recordCampaign campaign =>
      match recordCampaign s.campaigns campaign with
      | .ok campaigns => ({ s with campaigns }, some (.ok none))
      | .error e => (s, some (.error e))
    | .recordEvidence evidence =>
      match recordStrategyEvidence s.registry.db s.campaigns s.evidence (evidenceRow host evidence) with
      | .ok rows => (s.addEvidence host (evidenceRow host evidence) rows, some (.ok none))
      | .error e => (s, some (.error e))

end Machine

/-! ### What a step does -/

section Steps

variable {host : Host} {db db' : Research} {campaigns : List CampaignRow} {rows rows' : List StrategyEvidenceRow}
  {promotions promotions' : List PromotionRow}

/-- **Evidence that was recorded** was there, or is appended. -/
theorem of_recordStrategyEvidence {row : StrategyEvidenceRow}
    (h : recordStrategyEvidence db campaigns rows row = .ok rows') :
    (∃ r ∈ rows, r.evidenceId = row.evidenceId) ∧ rows' = rows ∨
      (∀ r ∈ rows, r.evidenceId ≠ row.evidenceId) ∧ rows' = rows ++ [row] := by
  obtain ⟨inserted, hinsert, h⟩ := Effect.except_bind_eq_ok.mp h
  split_ifs at h
  cases h
  rcases (Table.insertOrSkip_eq_ok.mp hinsert).2 with ⟨htaken, rfl⟩ | ⟨hfree, -, rfl⟩
  · exact Or.inl ⟨htaken, rfl⟩
  · exact Or.inr ⟨hfree, rfl⟩

/-- **A promotion that was recorded** is there: it was, or what it links is, and it is appended. -/
theorem of_recordPromotion {row : PromotionRow} (h : recordPromotion db rows promotions row = .ok promotions') :
    row ∈ promotions' ∧
      (promotions' = promotions ∨
        Linkable db rows row.evidenceId row.approvalId ∧
          (∀ r ∈ promotions, r.evidenceId ≠ row.evidenceId ∧ r.approvalId ≠ row.approvalId) ∧
            promotions' = promotions ++ [row]) := by
  obtain ⟨inserted, hinsert, h⟩ := Effect.except_bind_eq_ok.mp h
  split_ifs at h with hfind
  cases h
  refine ⟨List.mem_of_find?_eq_some (not_not.mp hfind), ?_⟩
  unfold insertPromotion at hinsert
  split_ifs at hinsert with hlinkable
  · rcases (Table.insertOrSkip_eq_ok.mp hinsert).2 with ⟨-, rfl⟩ | ⟨-, hfree, rfl⟩
    · exact Or.inl rfl
    · exact Or.inr ⟨hlinkable, hfree, rfl⟩
  · cases hinsert
    exact Or.inl rfl

variable (host) in
/-- What a step of the desk does to the tables. -/
inductive Moves (s : Desk) : Desk → Prop where
  | registry {s' : Desk} (input : ClusterInput) (hinput : ∀ row, input ≠ .evidence row)
      (hregistry : s'.registry = ((cluster host).step s.registry input).1) (hevidence : s'.evidence = s.evidence)
      (hpromotions : s'.promotions = s.promotions) : Moves s s'
  | same {s' : Desk} (hregistry : s'.registry = s.registry) (hevidence : s'.evidence = s.evidence)
      (hpromotions : s'.promotions = s.promotions) : Moves s s'
  | evidence (row : StrategyEvidenceRow) (rows : List StrategyEvidenceRow)
      (hrecord : recordStrategyEvidence s.registry.db s.campaigns s.evidence row = .ok rows) :
      Moves s (s.addEvidence host row rows)
  | promotion {s' : Desk} (i : ℕ) (call : PromoteCall) (approval : StrategyApproval)
      (hpending : s.pending i = some (.record call approval)) (hregistry : s'.registry = s.registry)
      (hevidence : s'.evidence = s.evidence)
      (hrecord : recordPromotion s.registry.db s.evidence s.promotions (promotionRow host call approval.approvalId) =
        .ok s'.promotions) : Moves s s'

theorem advance_moves (s : Desk) (i : ℕ) (fault : Option DatabaseFault) {stage : PromoteStage}
    (hpending : s.pending i = some stage) : Moves host s (s.advance host i fault stage).1 := by
  cases stage with
  | target call =>
    simp only [Desk.advance]
    split_ifs
    · exact .same rfl rfl rfl
    · cases approvalFor host s.registry.db s.evidence call with
      | error e => exact .same rfl rfl rfl
      | ok approval => exact .registry (.call i (.recordApproval approval)) (by simp) rfl rfl rfl
  | approve call approval =>
    simp only [Desk.advance]
    cases ((cluster host).step s.registry (.advance i fault)).2 with
    | none => exact .registry (.advance i fault) (by simp) rfl rfl rfl
    | some result =>
      cases result with
      | error e => exact .registry (.advance i fault) (by simp) rfl rfl rfl
      | ok done => exact .registry (.advance i fault) (by simp) rfl rfl rfl
  | record call approval =>
    simp only [Desk.advance]
    split_ifs
    · exact .same rfl rfl rfl
    · cases hrecord : recordPromotion s.registry.db s.evidence s.promotions
          (promotionRow host call approval.approvalId) with
      | error e => exact .same rfl rfl rfl
      | ok promotions => exact .promotion i call approval hpending rfl rfl hrecord

/-- **Every step** moves the tables so. -/
theorem desk_moves (s : Desk) (input : DeskInput) : Moves host s ((desk host).step s input).1 := by
  cases input with
  | call i call =>
    simp only [desk]
    split_ifs
    · exact .same rfl rfl rfl
    · exact .registry (.call i call) (by simp) rfl rfl rfl
  | promote i call =>
    simp only [desk]
    split_ifs <;> exact .same rfl rfl rfl
  | advance i fault =>
    simp only [desk]
    cases hpending : s.pending i with
    | none => exact .registry (.advance i fault) (by simp) rfl rfl rfl
    | some stage => exact advance_moves s i fault hpending
  | restart i => exact .registry (.restart i) (by simp) rfl rfl rfl
  | recordCampaign campaign =>
    simp only [desk]
    cases recordCampaign s.campaigns campaign <;> exact .same rfl rfl rfl
  | recordEvidence evidence =>
    simp only [desk]
    cases hrecord : recordStrategyEvidence s.registry.db s.campaigns s.evidence (evidenceRow host evidence) with
    | error e => exact .same rfl rfl rfl
    | ok rows => exact .evidence _ rows hrecord

end Steps

/-! ### Every run -/

section Runs

variable {host : Host} {s s' : Desk}

/-- A reviewer and a reason are given. -/
def PromoteCall.Reviewed (call : PromoteCall) : Prop := isBlank call.reviewedBy = false ∧ isBlank call.reason = false

/-- The approval is the reviewer's. -/
def PromoteCall.Gives (call : PromoteCall) (approval : StrategyApproval) : Prop :=
  approval.approvedAt = call.approvedAt ∧ approval.approvedBy = call.reviewedBy

theorem of_approvalFor {db : Research} {rows : List StrategyEvidenceRow} {call : PromoteCall} {approval : StrategyApproval}
    (h : approvalFor host db rows call = .ok approval) : call.Gives approval := by
  obtain ⟨target, -, h⟩ := Effect.except_bind_eq_ok.mp h
  unfold createApproval at h
  split_ifs at h
  cases h
  exact ⟨rfl, rfl⟩

/-- What holds of a process while its promotion is under way. -/
def PromoteStage.Holds (db : Research) (replica : Replica) : PromoteStage → Prop
  | .target call => call.Reviewed ∧ replica.rest = []
  | .approve call approval =>
    call.Reviewed ∧ call.Gives approval ∧ replica.rest <:+ (RegistryCall.recordApproval approval).statements
  | .record call approval => call.Reviewed ∧ call.Gives approval ∧ StoredAs db approval

theorem PromoteStage.Holds.mono {db db' : Research} {replica : Replica} {stage : PromoteStage} (h : stage.Holds db replica)
    (hkept : db.Kept db') : stage.Holds db' replica := by
  cases stage with
  | target call => exact h
  | approve call approval => exact h
  | record call approval => exact ⟨h.1, h.2.1, h.2.2.mono hkept⟩

/-- The promotions that are under way. -/
def Underway (s : Desk) : Prop :=
  ∀ i stage, s.pending i = some stage → stage.Holds s.registry.db (s.registry.replicas i)

/-- A step of one process. -/
theorem Underway.of_others (h : Underway s) (i : ℕ) (hkept : s.registry.db.Kept s'.registry.db)
    (hothers : ∀ j, j ≠ i → s'.pending j = s.pending j ∧ s'.registry.replicas j = s.registry.replicas j)
    (hi : ∀ stage, s'.pending i = some stage → stage.Holds s'.registry.db (s'.registry.replicas i)) : Underway s' := by
  intro j stage hstage
  by_cases hj : j = i
  · subst hj
    exact hi stage hstage
  · rw [(hothers j hj).1] at hstage
    rw [(hothers j hj).2]
    exact (h j stage hstage).mono hkept

/-- A call, a statement or a restart of one process leaves the others alone. -/
theorem cluster_others (s : Cluster) {i j : ℕ} (hj : j ≠ i) :
    (∀ call, ((cluster host).step s (.call i call)).1.replicas j = s.replicas j) ∧
      (∀ fault, ((cluster host).step s (.advance i fault)).1.replicas j = s.replicas j) ∧
        ((cluster host).step s (.restart i)).1.replicas j = s.replicas j := by
  refine ⟨fun call => ?_, fun fault => Function.update_of_ne hj _ _, Function.update_of_ne hj _ _⟩
  simp only [cluster]
  split
  · exact Function.update_of_ne hj _ _
  · rfl

theorem Underway.advance (h : Underway s) (i : ℕ) (fault : Option DatabaseFault) {stage : PromoteStage}
    (hpending : s.pending i = some stage) : Underway (s.advance host i fault stage).1 := by
  have hholds := h i stage hpending
  have hended : Underway (s.set i none) :=
    h.of_others i (.refl _) (fun j hj => ⟨Function.update_of_ne hj _ _, rfl⟩) (by simp [Desk.set])
  cases stage with
  | target call =>
    simp only [Desk.advance]
    split_ifs
    · exact hended
    · cases happroval : approvalFor host s.registry.db s.evidence call with
      | error e => exact hended
      | ok approval =>
        refine h.of_others i (cluster_kept s.registry _)
          (fun j hj => ⟨Function.update_of_ne hj _ _, (cluster_others s.registry hj).1 _⟩) fun stage hstage => ?_
        simp only [Desk.set, Function.update_self, Option.some.injEq] at hstage
        subst hstage
        refine ⟨hholds.1, of_approvalFor happroval, ?_⟩
        simp [Desk.set, cluster, hholds.2]
  | approve call approval =>
    have hothers : ∀ j, j ≠ i → ((cluster host).step s.registry (.advance i fault)).1.replicas j = s.registry.replicas j :=
      fun j hj => (cluster_others s.registry hj).2.1 fault
    have hkept : s.registry.db.Kept ((cluster host).step s.registry (.advance i fault)).1.db := cluster_kept ..
    have hreplica : ((cluster host).step s.registry (.advance i fault)).1.replicas i =
        ((s.registry.replicas i).advance host s.registry.db fault).1 := Function.update_self ..
    have hresult : ((cluster host).step s.registry (.advance i fault)).2 =
        ((s.registry.replicas i).advance host s.registry.db fault).2.2 := rfl
    simp only [Desk.advance]
    rcases advance_recordApproval hholds.2.2 s.registry.db fault with ⟨hnone, hrest⟩ | ⟨e, herror⟩ | ⟨hok, hstored⟩
    · rw [hresult, hnone]
      refine h.of_others i hkept (fun j hj => ⟨rfl, hothers j hj⟩) fun stage hstage => ?_
      rw [hpending] at hstage
      cases hstage
      refine ⟨hholds.1, hholds.2.1, ?_⟩
      rw [hreplica]
      exact hrest
    · rw [hresult, herror]
      exact h.of_others i hkept (fun j hj => ⟨Function.update_of_ne hj _ _, hothers j hj⟩) (by simp [Desk.set])
    · rw [hresult, hok]
      refine h.of_others i hkept (fun j hj => ⟨Function.update_of_ne hj _ _, hothers j hj⟩) fun stage hstage => ?_
      simp only [Desk.set, Function.update_self, Option.some.injEq] at hstage
      subst hstage
      exact ⟨hholds.1, hholds.2.1, hstored⟩
  | record call approval =>
    simp only [Desk.advance]
    split_ifs
    · exact hended
    · cases recordPromotion s.registry.db s.evidence s.promotions (promotionRow host call approval.approvalId) with
      | error e => exact hended
      | ok promotions =>
        exact h.of_others i (.refl _) (fun j hj => ⟨Function.update_of_ne hj _ _, rfl⟩) (by simp [Desk.set])

/-- **Every step** leaves the promotions under way as they should be. -/
theorem Underway.step (h : Underway s) (input : DeskInput) : Underway ((desk host).step s input).1 := by
  cases input with
  | call i call =>
    simp only [desk]
    split_ifs with hpending
    · exact h
    · refine h.of_others i (cluster_kept s.registry _) (fun j hj => ⟨rfl, (cluster_others s.registry hj).1 call⟩) ?_
      intro stage hstage
      exact absurd (Option.isSome_iff_exists.mpr ⟨stage, hstage⟩) hpending
  | promote i call =>
    simp only [desk]
    split_ifs with hbusy hblank
    · exact h
    · exact h
    · refine h.of_others i (.refl _) (fun j hj => ⟨Function.update_of_ne hj _ _, rfl⟩) fun stage hstage => ?_
      simp only [Desk.set, Function.update_self, Option.some.injEq] at hstage
      subst hstage
      push Not at hbusy hblank
      exact ⟨by simpa [PromoteCall.Reviewed] using hblank, hbusy.2⟩
  | advance i fault =>
    simp only [desk]
    cases hpending : s.pending i with
    | none =>
      refine h.of_others i (cluster_kept s.registry _) (fun j hj => ⟨rfl, (cluster_others s.registry hj).2.1 fault⟩) ?_
      simp [hpending]
    | some stage => exact h.advance i fault hpending
  | restart i =>
    have hothers : ∀ j, j ≠ i → ((cluster host).step s.registry (.restart i)).1.replicas j = s.registry.replicas j :=
      fun j hj => (cluster_others s.registry hj).2.2
    have hkept : s.registry.db.Kept ((cluster host).step s.registry (.restart i)).1.db := cluster_kept ..
    exact h.of_others i hkept (fun j hj => ⟨Function.update_of_ne hj _ _, hothers j hj⟩)
      (by simp [desk, Desk.set])
  | recordCampaign campaign =>
    simp only [desk]
    cases recordCampaign s.campaigns campaign <;> exact h
  | recordEvidence evidence =>
    simp only [desk]
    cases recordStrategyEvidence s.registry.db s.campaigns s.evidence (evidenceRow host evidence) with
    | error e => exact h
    | ok rows =>
      intro i stage hstage
      simp only [Desk.addEvidence]
      split_ifs
      · exact h i stage hstage
      · exact (h i stage hstage).mono (cluster_kept s.registry _)

/-- The evidence of a promotion is for paper and its run is stored as passed. Its approval is of the same strategy and the
same run, given by the reviewer at that time, who gave a reason. -/
def Links (db : Research) (rows : List StrategyEvidenceRow) (p : PromotionRow) : Prop :=
  (isBlank p.reviewedBy = false ∧ isBlank p.reviewReason = false) ∧
    ∃ e ∈ rows, e.evidenceId = p.evidenceId ∧ e.state = .research ∧
      (∃ v ∈ db.validations, v.validationRunId = e.validationRunId ∧ v.passed = true) ∧
        ∃ a ∈ db.approvals, a.approvalId = p.approvalId ∧ a.validationRunId = e.validationRunId ∧
          a.strategyKey = e.strategyKey ∧ a.approvedBy = p.reviewedBy ∧ a.approvedAt = p.promotedAt

theorem Linkable.links {db : Research} {rows : List StrategyEvidenceRow} {call : PromoteCall} {approval : StrategyApproval}
    (h : Linkable db rows call.evidenceId approval.approvalId) (hreviewed : call.Reviewed) (hgives : call.Gives approval)
    (hstored : StoredAs db approval) : Links db rows (promotionRow host call approval.approvalId) := by
  obtain ⟨e, he, hid, hstate, hrun, a, ha, haid, hvalidation, hkey, -⟩ := h
  obtain ⟨row, hrow, hrowId, hat, hby⟩ := hstored
  obtain rfl := Table.eq_of_key_eq db.approval_keys hrow ha (hrowId.trans haid.symm)
  exact ⟨hreviewed, e, he, hid, hstate, hrun, row, ha, haid, hvalidation, hkey, hby.trans hgives.2, hat.trans hgives.1⟩

theorem Links.mono {db db' : Research} {rows rows' : List StrategyEvidenceRow} {p : PromotionRow} (h : Links db rows p)
    (hkept : db.Kept db') (hrows : ∀ row ∈ rows, row ∈ rows') : Links db' rows' p := by
  obtain ⟨hreviewed, e, he, hid, hstate, ⟨v, hv, hvid, hpassed⟩, a, ha, hsame⟩ := h
  obtain ⟨state, reason, ha'⟩ := hkept.approvals a ha
  exact ⟨hreviewed, e, hrows e he, hid, hstate, ⟨v, hkept.validations v hv, hvid, hpassed⟩, _, ha', hsame⟩

/-- **The invariant**: the registry sees the evidence, its approvals are admitted, and the promotions link what they say,
each evidence and each approval once. -/
structure Linked (host : Host) (s : Desk) : Prop where
  seen : s.registry.db.nseEvidence = s.evidence.map StrategyEvidenceRow.seen
  admitted : s.registry.db.Admitted
  keyed : Keyed host s.registry.db
  links : ∀ p ∈ s.promotions, Links s.registry.db s.evidence p
  evidenceOnce : (s.promotions.map PromotionRow.evidenceId).Nodup
  approvalOnce : (s.promotions.map PromotionRow.approvalId).Nodup

theorem Linked.congr (h : Linked host s) (hregistry : s'.registry = s.registry) (hevidence : s'.evidence = s.evidence)
    (hpromotions : s'.promotions = s.promotions) : Linked host s' := by
  constructor
  · rw [hregistry, hevidence, h.seen]
  · rw [hregistry]
    exact h.admitted
  · rw [hregistry]
    exact h.keyed
  · rw [hregistry, hevidence, hpromotions]
    exact h.links
  · rw [hpromotions]
    exact h.evidenceOnce
  · rw [hpromotions]
    exact h.approvalOnce

theorem Linked.moves (h : Linked host s) (hunderway : Underway s) (hmoves : Moves host s s') : Linked host s' := by
  cases hmoves with
  | registry input hinput hregistry hevidence hpromotions =>
    constructor
    · rw [hregistry, hevidence, cluster_nseEvidence s.registry hinput, h.seen]
    · rw [hregistry]
      exact cluster_admitted s.registry input h.admitted
    · rw [hregistry]
      exact cluster_keyed s.registry input h.keyed
    · rw [hregistry, hevidence, hpromotions]
      exact fun p hp => (h.links p hp).mono (cluster_kept s.registry input) fun _ hrow => hrow
    · rw [hpromotions]
      exact h.evidenceOnce
    · rw [hpromotions]
      exact h.approvalOnce
  | same hregistry hevidence hpromotions => exact h.congr hregistry hevidence hpromotions
  | evidence row rows hrecord =>
    rcases of_recordStrategyEvidence hrecord with ⟨htaken, rfl⟩ | ⟨hfree, rfl⟩
    · simp only [Desk.addEvidence, if_pos htaken]
      exact h
    · have hnew : ¬ ∃ r ∈ s.evidence, r.evidenceId = row.evidenceId := by simpa using hfree
      simp only [Desk.addEvidence, if_neg hnew]
      constructor
      · simp [cluster, h.seen]
      · exact cluster_admitted s.registry _ h.admitted
      · exact cluster_keyed s.registry _ h.keyed
      · exact fun p hp => (h.links p hp).mono (cluster_kept s.registry _) fun _ => List.mem_append_left _
      · exact h.evidenceOnce
      · exact h.approvalOnce
  | promotion i call approval hpending hregistry hevidence hrecord =>
    rcases (of_recordPromotion hrecord).2 with hsame | ⟨hlinkable, hfree, hnew⟩
    · exact h.congr hregistry hevidence hsame
    · obtain ⟨hreviewed, hgives, hstored⟩ := hunderway i _ hpending
      constructor
      · rw [hregistry, hevidence, h.seen]
      · rw [hregistry]
        exact h.admitted
      · rw [hregistry]
        exact h.keyed
      · rw [hregistry, hevidence, hnew]
        refine List.forall_mem_append.mpr ⟨h.links, ?_⟩
        simpa using hlinkable.links hreviewed hgives hstored
      · rw [hnew]
        exact Table.nodup_concat h.evidenceOnce fun r hr => (hfree r hr).1
      · rw [hnew]
        exact Table.nodup_concat h.approvalOnce fun r hr => (hfree r hr).2

theorem exec_linked (inputs : List DeskInput) :
    Linked host ((desk host).exec {} inputs) ∧ Underway ((desk host).exec {} inputs) := by
  refine Machine.exec_invariant (P := fun s : Desk => Linked host s ∧ Underway s)
    (fun s input h => ⟨h.1.moves h.2 (desk_moves s input), h.2.step input⟩) ⟨?_, ?_⟩ inputs
  · exact ⟨rfl, ⟨fun _ hrow => absurd hrow List.not_mem_nil, fun _ hrow => absurd hrow List.not_mem_nil⟩,
      fun _ hd => absurd hd List.not_mem_nil, fun _ hp => absurd hp List.not_mem_nil, List.nodup_nil, List.nodup_nil⟩
  · rintro i stage hstage
    cases hstage

theorem Moves.promotions (hmoves : Moves host s s') {p : PromotionRow} (h : p ∈ s.promotions) : p ∈ s'.promotions := by
  cases hmoves with
  | registry _ _ _ _ hpromotions => rwa [hpromotions]
  | same _ _ hpromotions => rwa [hpromotions]
  | evidence => exact h
  | promotion _ _ _ _ _ _ hrecord =>
    rcases (of_recordPromotion hrecord).2 with hsame | ⟨-, -, hnew⟩
    · rwa [hsame]
    · rw [hnew]
      exact List.mem_append_left _ h

/-- **Promotions are linked**: after every run of the processes, a promotion that was recorded on the way is there, with
evidence for paper whose run is stored as passed, and with an approval of the same strategy and the same run that its
reviewer gave; no other promotion has its evidence or its approval. -/
theorem promotions_linked (before after : List DeskInput) {p : PromotionRow}
    (h : p ∈ ((desk host).exec {} before).promotions) :
    p ∈ ((desk host).exec {} (before ++ after)).promotions ∧
      Links ((desk host).exec {} (before ++ after)).registry.db ((desk host).exec {} (before ++ after)).evidence p ∧
        ∀ q ∈ ((desk host).exec {} (before ++ after)).promotions,
          q.evidenceId = p.evidenceId ∨ q.approvalId = p.approvalId → q = p := by
  obtain ⟨hlinked, -⟩ : Linked host ((desk host).exec {} (before ++ after)) ∧ _ := exec_linked (before ++ after)
  have hstays : p ∈ ((desk host).exec {} (before ++ after)).promotions := by
    rw [Machine.exec_append]
    exact Machine.exec_invariant (P := fun s : Desk => p ∈ s.promotions)
      (fun s input hp => (desk_moves s input).promotions hp) h after
  refine ⟨hstays, hlinked.links p hstays, fun q hq hsame => ?_⟩
  rcases hsame with hsame | hsame
  · exact Table.eq_of_key_eq hlinked.evidenceOnce hq hstays hsame
  · exact Table.eq_of_key_eq hlinked.approvalOnce hq hstays hsame

namespace Reviewed

/-- A runtime in which a text is its own digest. -/
def runtime : Host := { Host.cpython with sha256 := fun text => text }

/-- A campaign over one symbol. -/
def campaign : NseValidationCampaign where
  campaignId := "campaign"
  evaluatedAt := 1767225600000000
  requestedStart := 1704067200000000
  requestedEnd := 1767225600000000
  symbols := ["INFY"]
  config := {}

/-- Its evidence on a strategy that passed. -/
def evidence : NseStrategyEvidence where
  evidenceId := "evidence"
  campaignId := "campaign"
  validation := Evidenced.passedRun
  state := .research
  dataFingerprint := "data"
  windows := []
  costModel := campaign.config.costModel
  stressedNetExpectancy := 1 / 100

/-- The review. -/
def call : PromoteCall := ⟨"evidence", "reviewer", "paper", 1767225600000000, 1798761600000000⟩

/-- A process records the research and promotes it. -/
def inputs : List DeskInput :=
  .call 0 (.register Evidenced.definition) :: List.replicate 2 (DeskInput.advance 0 none) ++
    .call 0 (.recordValidation Evidenced.passedRun) :: List.replicate 3 (DeskInput.advance 0 none) ++
      .recordCampaign campaign :: .recordEvidence evidence :: .promote 0 call :: List.replicate 6 (DeskInput.advance 0 none)

/-- The promotion. -/
def promotion : PromotionRow :=
  promotionRow runtime call
    (stableId runtime [Evidenced.identity.key runtime, "run", isoformat 1767225600000000])

/-- Another process revokes the approval. -/
def revocation : List DeskInput :=
  .call 1 (.revoke promotion.approvalId "drift") :: List.replicate 2 (.advance 1 none)

end Reviewed

/-- The promotion is there, and linked, also after its approval is revoked. -/
theorem promotions_linked_revoked :
    Reviewed.promotion ∈ ((desk Reviewed.runtime).exec {} (Reviewed.inputs ++ Reviewed.revocation)).promotions ∧
      Links ((desk Reviewed.runtime).exec {} (Reviewed.inputs ++ Reviewed.revocation)).registry.db
        ((desk Reviewed.runtime).exec {} (Reviewed.inputs ++ Reviewed.revocation)).evidence Reviewed.promotion :=
  have hlinked := promotions_linked Reviewed.inputs Reviewed.revocation (p := Reviewed.promotion) (by decide +kernel)
  ⟨hlinked.1, hlinked.2.1⟩

end Runs

/-! ### The view -/

/-- `lifecycle_state` of `research.nse_strategy_validation_read`. -/
inductive LifecycleState where
  | paperApproved
  | failed
  | research
  deriving DecidableEq

/-- The order of the approvals in the view: those in force first, and then the latest. -/
def shownBefore (now : Instant) (a b : ApprovalRow) : Bool :=
  (Research.InForce now a ∧ ¬ Research.InForce now b) ∨
    ((Research.InForce now a ↔ Research.InForce now b) ∧ b.approvedAt ≤ a.approvedAt)

/-- The approval that the view shows for a strategy: one that a promotion links. -/
def Desk.shownApproval (s : Desk) (now : Instant) (strategyKey : String) : Option ApprovalRow :=
  ((s.registry.db.approvals.filter fun a =>
      a.strategyKey = strategyKey ∧ ∃ p ∈ s.promotions, p.approvalId = a.approvalId).insertionSort
    fun a b => shownBefore now a b).head?

/-- The evidence that the view shows: the latest. -/
def Desk.shownEvidence (s : Desk) (strategyKey : String) : Option StrategyEvidenceRow :=
  (s.evidence.filter fun e => e.strategyKey = strategyKey).getLast?

/-- `lifecycle_state`. -/
def Desk.lifecycleState (s : Desk) (now : Instant) (strategyKey : String) : LifecycleState :=
  if (s.shownApproval now strategyKey).any fun a => Research.InForce now a then .paperApproved
  else if (s.shownEvidence strategyKey).any fun e => e.state = .failed then .failed
  else .research

section View

variable {host : Host} {s : Desk} {now : Instant}

variable (now) in
/-- What the view sorts by: not in force, and the time backwards. -/
theorem shownBefore_iff (a b : ApprovalRow) :
    shownBefore now a b = true ↔
      toLex (decide ¬ Research.InForce now a, -a.approvedAt) ≤ toLex (decide ¬ Research.InForce now b, -b.approvedAt) := by
  rw [Prod.Lex.toLex_le_toLex]
  by_cases ha : Research.InForce now a <;> by_cases hb : Research.InForce now b <;> simp [shownBefore, ha, hb]

/-- **What is shown as admitted**: a strategy with an approval in force that a promotion links. -/
theorem lifecycleState_paperApproved_iff {strategyKey : String} :
    s.lifecycleState now strategyKey = .paperApproved ↔
      ∃ a ∈ s.registry.db.approvals, a.strategyKey = strategyKey ∧ Research.InForce now a ∧
        ∃ p ∈ s.promotions, p.approvalId = a.approvalId := by
  have hshown : s.lifecycleState now strategyKey = .paperApproved ↔
      (s.shownApproval now strategyKey).any (fun a => Research.InForce now a) = true := by
    unfold Desk.lifecycleState
    split_ifs with h <;> simp [h]
  have hmem : ∀ a, a ∈ (s.registry.db.approvals.filter fun a =>
      a.strategyKey = strategyKey ∧ ∃ p ∈ s.promotions, p.approvalId = a.approvalId).insertionSort
        (fun a b => shownBefore now a b) ↔
      a ∈ s.registry.db.approvals ∧ a.strategyKey = strategyKey ∧ ∃ p ∈ s.promotions, p.approvalId = a.approvalId := by
    intro a
    rw [List.mem_insertionSort, List.mem_filter, decide_eq_true_eq]
  have hsorted := pairwise_insertionSort_key (fun a b => shownBefore_iff now a b)
    (s.registry.db.approvals.filter fun a =>
      a.strategyKey = strategyKey ∧ ∃ p ∈ s.promotions, p.approvalId = a.approvalId)
  rw [hshown, Desk.shownApproval]
  cases hlist : (s.registry.db.approvals.filter fun a =>
      a.strategyKey = strategyKey ∧ ∃ p ∈ s.promotions, p.approvalId = a.approvalId).insertionSort
        fun a b => shownBefore now a b with
  | nil =>
    rw [hlist] at hmem
    constructor
    · intro h
      cases h
    · rintro ⟨a, ha, hkey, -, hpromoted⟩
      exact absurd ((hmem a).mpr ⟨ha, hkey, hpromoted⟩) List.not_mem_nil
  | cons first rest =>
    rw [hlist] at hmem hsorted
    rw [List.head?_cons, Option.any_some, decide_eq_true_eq]
    constructor
    · intro hforce
      obtain ⟨ha, hkey, hpromoted⟩ := (hmem first).mp (List.mem_cons_self ..)
      exact ⟨first, ha, hkey, hforce, hpromoted⟩
    · rintro ⟨a, ha, hkey, hforce, hpromoted⟩
      rcases List.mem_cons.mp ((hmem a).mpr ⟨ha, hkey, hpromoted⟩) with rfl | hrest
      · exact hforce
      · -- the first is not sorted after one in force unless it is in force itself
        have hle := (List.pairwise_cons.mp hsorted).1 a hrest
        rw [Prod.Lex.toLex_le_toLex] at hle
        by_contra hfirst
        have hlt : true < false := by simpa [hforce, hfirst] using hle
        exact absurd hlt (by decide)

/-- An approval in force is enough for `require_approval`. -/
theorem requireApproval_of_inForce {db : Research} {d : DefinitionRow} (hd : d ∈ db.definitions)
    (hkeyed : d.strategyKey = d.definition.identity.key host) {a : ApprovalRow} (ha : a ∈ db.approvals)
    (hkey : a.strategyKey = d.strategyKey) (hforce : Research.InForce now a) :
    ∃ approval, db.requireApproval host d.definition.identity now = .ok approval := by
  have hdefinition : db.definitionOf d.strategyKey = some d.definition := by
    rw [Research.definitionOf, Table.find?_eq_some_of_mem db.definition_keys hd, Option.map_some]
  have hread : db.approvalFromRow a ≠ none := by simp [Research.approvalFromRow, hkey, hdefinition]
  obtain ⟨approval, happroval⟩ := Option.ne_none_iff_exists'.mp hread
  have hmem : approval ∈ (db.approvals.filter fun row =>
      row.strategyKey = d.strategyKey ∧ Research.InForce now row).filterMap db.approvalFromRow :=
    List.mem_filterMap.mpr ⟨a, List.mem_filter.mpr ⟨ha, by simpa using ⟨hkey, hforce⟩⟩, happroval⟩
  unfold Research.requireApproval
  rw [← hkeyed, hdefinition, Option.isNone_some, if_neg Bool.false_ne_true]
  dsimp only
  cases hcurrent : (db.approvals.filter fun row =>
      row.strategyKey = d.strategyKey ∧ Research.InForce now row).filterMap db.approvalFromRow with
  | nil =>
    rw [hcurrent] at hmem
    exact absurd hmem List.not_mem_nil
  | cons first rest => exact ⟨_, rfl⟩

/-- **What is shown as admitted is admitted**: after every run, if the view shows a strategy as approved for paper, then
`require_approval` returns an approval of it and it is `eligible`. -/
theorem paper_approved_is_admitted (inputs : List DeskInput) (now : Instant) {d : DefinitionRow}
    (hd : d ∈ ((desk host).exec {} inputs).registry.db.definitions)
    (h : ((desk host).exec {} inputs).lifecycleState now d.strategyKey = .paperApproved) :
    (∃ approval, ((desk host).exec {} inputs).registry.db.requireApproval host d.definition.identity now = .ok approval) ∧
      d.definition ∈ ((desk host).exec {} inputs).registry.db.eligible d.definition.identity.market
        d.definition.identity.timeframe d.definition.identity.tradeHorizon d.definition.identity.featureSetVersion now := by
  obtain ⟨hlinked, -⟩ : Linked host ((desk host).exec {} inputs) ∧ _ := exec_linked inputs
  obtain ⟨a, ha, hkey, hforce, -⟩ := lifecycleState_paperApproved_iff.mp h
  have hkeyed := hlinked.keyed
  generalize ((desk host).exec {} inputs).registry.db = db at hkeyed hd ha ⊢
  refine ⟨requireApproval_of_inForce hd (hkeyed d hd) ha hkey hforce, Research.mem_eligible.mpr ?_⟩
  exact ⟨d, hd, rfl, ⟨rfl, rfl, rfl, rfl⟩, a, ha, hkey, hforce⟩

/-- The strategy that was promoted, at the instant its approval begins. -/
theorem paper_approved_is_admitted_reviewed :
    ∃ approval, ((desk Reviewed.runtime).exec {} Reviewed.inputs).registry.db.requireApproval Reviewed.runtime
      Evidenced.identity 1767225600000000 = .ok approval :=
  (paper_approved_is_admitted (d := ⟨Evidenced.identity.key Reviewed.runtime, Evidenced.definition⟩) Reviewed.inputs
    1767225600000000 (by decide +kernel) (by decide +kernel)).1

end View

end NanoDelta.Validation
