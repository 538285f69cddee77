import NanoDelta.Strategies.Approvals

/-!
# Evidence for admission

The trigger on `research.strategy_approvals` refuses an approval of one of the technical strategies of NSE that has no
passing evidence. What it looks at is read when the approval is written; here it is shown to hold of the stored
approvals ever after, whatever the processes do and wherever they fail.

* `Research.Kept`: what a step of the cluster keeps of the tables.
* `Research.Admitted`: the invariant. `exec_admitted`: it holds after every run.
* `required_has_evidence`: what `require_approval` returns rests on passing evidence.
-/

namespace NanoDelta.Strategies

open Library

namespace Research

variable {host : Host} {db db' : Research}

/-! ### What is kept -/

/-- Definitions, runs and evidence are only added, and of an approval only the state and the reason change. -/
structure Kept (db db' : Research) : Prop where
  definitions : ∀ row ∈ db.definitions, row ∈ db'.definitions
  validations : ∀ row ∈ db.validations, row ∈ db'.validations
  approvals : ∀ row ∈ db.approvals, ∃ state reason, { row with state, reason } ∈ db'.approvals
  nseEvidence : ∀ row ∈ db.nseEvidence, row ∈ db'.nseEvidence

theorem Kept.refl (db : Research) : db.Kept db :=
  ⟨fun _ h => h, fun _ h => h, fun row h => ⟨row.state, row.reason, h⟩, fun _ h => h⟩

theorem insertDefinition_kept {definition : StrategyDefinition} (h : db.insertDefinition host definition = .ok db') :
    db.Kept db' := by
  unfold insertDefinition at h
  split_ifs at h
  · cases h
    exact .refl db
  · cases h
    exact ⟨fun _ => List.mem_append_left _, fun _ h => h, fun row h => ⟨row.state, row.reason, h⟩, fun _ h => h⟩

theorem insertValidation_kept {result : ValidationResult} (h : db.insertValidation host result = .ok db') :
    db.Kept db' := by
  unfold insertValidation at h
  split_ifs at h
  · cases h
    exact .refl db
  · cases h
    exact ⟨fun _ h => h, fun _ => List.mem_append_left _, fun row h => ⟨row.state, row.reason, h⟩, fun _ h => h⟩

theorem setApproval_kept (db : Research) (approvalId : String) (state : ApprovalState) (reason : String) :
    db.Kept (db.setApproval approvalId state reason) := by
  refine ⟨fun _ h => h, fun _ h => h, fun row h => ?_, fun _ h => h⟩
  by_cases hid : row.approvalId = approvalId
  · exact ⟨state, reason, mem_setApproval.mpr ⟨row, h, if_pos hid⟩⟩
  · exact ⟨row.state, row.reason, mem_setApproval.mpr ⟨row, h, if_neg hid⟩⟩

theorem upsertApproval_kept {approval : StrategyApproval} (h : db.upsertApproval host approval = .ok db') :
    db.Kept db' := by
  rcases upsertApproval_cases h with ⟨hkey, rfl, -⟩ | ⟨old, -, -, ⟨-, -, rfl⟩ | ⟨-, rfl⟩⟩
  · exact ⟨fun _ h => h, fun _ h => h, fun row h => ⟨row.state, row.reason, List.mem_append_left _ h⟩, fun _ h => h⟩
  · exact .refl _
  · exact setApproval_kept db _ _ _

/-! ### Evidence -/

/-- What an approval of one of the technical strategies of NSE rests on: evidence of the strategy with its run, and that
run, passed. -/
def HasEvidence (db : Research) (row : ApprovalRow) : Prop :=
  ∃ e ∈ db.nseEvidence, e.strategyKey = row.strategyKey ∧ e.validationRunId = row.validationRunId ∧
    e.isResearch = true ∧ ∃ v ∈ db.validations, v.validationRunId = e.validationRunId ∧ v.passed = true

/-- The definition of an approval is one of the technical strategies of NSE. -/
def Evidenced (db : Research) (row : ApprovalRow) : Prop :=
  ∃ d ∈ db.definitions, d.strategyKey = row.strategyKey ∧ d.definition.identity.market = .nse ∧
    d.definition.identity.strategyId ∈ evidencedStrategies

/-- **The invariant**: approvals have a definition, and those that the trigger looks at have evidence. -/
structure Admitted (db : Research) : Prop where
  defined : ∀ row ∈ db.approvals, ∃ d ∈ db.definitions, d.strategyKey = row.strategyKey
  evidence : ∀ row ∈ db.approvals, row.state = .approved → db.Evidenced row → db.HasEvidence row

theorem HasEvidence.mono {row : ApprovalRow} (h : db.HasEvidence row) (hkept : db.Kept db') : db'.HasEvidence row := by
  obtain ⟨e, he, hkey, hrun, hresearch, v, hv, hid, hpassed⟩ := h
  exact ⟨e, hkept.nseEvidence e he, hkey, hrun, hresearch, v, hkept.validations v hv, hid, hpassed⟩

theorem hasEvidence_of_not_refuses {row : ApprovalRow} (h : ¬ db.Refuses row) (hstate : row.state = .approved)
    (hevidenced : db.Evidenced row) : db.HasEvidence row := by
  by_contra hnone
  exact h ⟨hstate, hevidenced, hnone⟩

/-- A definition is added. -/
theorem Admitted.insertDefinition {definition : StrategyDefinition} (h : db.Admitted)
    (hinsert : db.insertDefinition host definition = .ok db') : db'.Admitted := by
  have hkept := insertDefinition_kept hinsert
  unfold Research.insertDefinition at hinsert
  split_ifs at hinsert with htaken
  · cases hinsert
    exact h
  · cases hinsert
    refine ⟨fun row hrow => ?_, fun row hrow hstate hevidenced => ?_⟩
    · obtain ⟨d, hd, hkey⟩ := h.defined row hrow
      exact ⟨d, List.mem_append_left _ hd, hkey⟩
    · obtain ⟨d, hd, hkey, hnse⟩ := hevidenced
      rcases List.mem_append.mp hd with hd | hd
      · exact (h.evidence row hrow hstate ⟨d, hd, hkey, hnse⟩).mono hkept
      · -- the key of an approval has a definition, so it is not the new one
        obtain rfl := List.mem_singleton.mp hd
        obtain ⟨other, hother, hsame⟩ := h.defined row hrow
        exact absurd ⟨other, hother, hsame.trans hkey.symm⟩ htaken

/-- A run is added. -/
theorem Admitted.insertValidation {result : ValidationResult} (h : db.Admitted)
    (hinsert : db.insertValidation host result = .ok db') : db'.Admitted := by
  have hkept := insertValidation_kept hinsert
  obtain ⟨hdefinitions, happrovals, -⟩ := insertValidation_ok hinsert
  refine ⟨fun row hrow => ?_, fun row hrow hstate hevidenced => ?_⟩
  · rw [hdefinitions]
    exact h.defined row (happrovals ▸ hrow)
  · refine (h.evidence row (happrovals ▸ hrow) hstate ?_).mono hkept
    unfold Evidenced at hevidenced ⊢
    rwa [hdefinitions] at hevidenced

/-- Evidence is added. -/
theorem Admitted.addEvidence (h : db.Admitted) (row : NseEvidenceRow) :
    Admitted { db with nseEvidence := db.nseEvidence ++ [row] } := by
  refine ⟨h.defined, fun a ha hstate hevidenced => (h.evidence a ha hstate hevidenced).mono ?_⟩
  exact ⟨fun _ h => h, fun _ h => h, fun row h => ⟨row.state, row.reason, h⟩, fun _ => List.mem_append_left _⟩

/-- An approval is written: the trigger has looked at it. -/
theorem Admitted.upsertApproval {approval : StrategyApproval} (h : db.Admitted)
    (hupsert : db.upsertApproval host approval = .ok db') : db'.Admitted := by
  unfold Research.upsertApproval at hupsert
  dsimp only at hupsert
  by_cases hrefuses : db.Refuses (approvalRow host approval)
  · rw [if_pos hrefuses] at hupsert
    cases hupsert
  rw [if_neg hrefuses] at hupsert
  by_cases hexpires : (approvalRow host approval).approvedAt < (approvalRow host approval).expiresAt
  · rw [if_neg (not_not.mpr hexpires)] at hupsert
    split at hupsert
    · split_ifs at hupsert with hrefers
      cases hupsert
      refine ⟨List.forall_mem_append.mpr ⟨h.defined, ?_⟩, List.forall_mem_append.mpr ⟨h.evidence, ?_⟩⟩
      · simp only [List.mem_singleton, forall_eq]
        exact hrefers.1
      · simp only [List.mem_singleton, forall_eq]
        exact hasEvidence_of_not_refuses hrefuses
    · rename_i old hold
      have hmem := List.mem_of_find?_eq_some hold
      have hid : old.approvalId = (approvalRow host approval).approvalId := by simpa using List.find?_some hold
      split_ifs at hupsert with hkept hrefusesOld
      · cases hupsert
        exact h
      · cases hupsert
        constructor
        · rintro row hrow
          obtain ⟨before, hbefore, rfl⟩ := mem_setApproval.mp hrow
          split_ifs <;> exact h.defined before hbefore
        · intro row hrow
          obtain ⟨before, hbefore, rfl⟩ := mem_setApproval.mp hrow
          split_ifs with hsame
          · rw [Table.eq_of_key_eq db.approval_keys hbefore hmem (hsame.trans hid.symm)]
            exact hasEvidence_of_not_refuses hrefusesOld
          · exact h.evidence before hbefore
  · rw [if_pos hexpires] at hupsert
    cases hupsert

end Research

/-! ### Every run -/

section Runs

variable {host : Host}

/-- What a write keeps. -/
theorem kept_of_written {call : RegistryCall} {db db' : Research} {artifacts : Artifacts}
    (h : call.Written host db db' artifacts) : db.Kept db' := by
  cases call with
  | register definition => exact Research.insertDefinition_kept h
  | recordValidation result => exact Research.insertValidation_kept h
  | recordApproval approval => exact Research.upsertApproval_kept h.1
  | revoke approvalId reason =>
    obtain ⟨approval, -, hupsert⟩ := h
    exact Research.upsertApproval_kept hupsert

/-- No call of the registry writes evidence. -/
theorem nseEvidence_of_written {call : RegistryCall} {db db' : Research} {artifacts : Artifacts}
    (h : call.Written host db db' artifacts) : db'.nseEvidence = db.nseEvidence := by
  have hupserted : ∀ approval, db.upsertApproval host approval = .ok db' → db'.nseEvidence = db.nseEvidence := by
    intro approval hupsert
    rcases Research.upsertApproval_cases hupsert with ⟨hkey, rfl, -⟩ | ⟨old, -, -, ⟨-, -, rfl⟩ | ⟨-, rfl⟩⟩
    · rfl
    · rfl
    · rfl
  cases call with
  | register definition =>
    simp only [RegistryCall.Written, Research.insertDefinition] at h
    split_ifs at h <;> cases h <;> rfl
  | recordValidation result =>
    simp only [RegistryCall.Written, Research.insertValidation] at h
    split_ifs at h <;> cases h <;> rfl
  | recordApproval approval => exact hupserted approval h.1
  | revoke approvalId reason =>
    obtain ⟨approval, -, hupsert⟩ := h
    exact hupserted _ hupsert

/-- Definitions have the keys of their identities. -/
def Keyed (host : Host) (db : Research) : Prop := ∀ d ∈ db.definitions, d.strategyKey = d.definition.identity.key host

theorem Keyed.of_written {call : RegistryCall} {db db' : Research} {artifacts : Artifacts} (hkeyed : Keyed host db)
    (h : call.Written host db db' artifacts) : Keyed host db' := by
  cases call with
  | register definition =>
    simp only [RegistryCall.Written, Research.insertDefinition] at h
    split_ifs at h
    · cases h
      exact hkeyed
    · cases h
      exact List.forall_mem_append.mpr ⟨hkeyed, by simp⟩
  | recordValidation result =>
    unfold Keyed
    rw [(Research.insertValidation_ok h).1]
    exact hkeyed
  | recordApproval approval =>
    unfold Keyed
    rw [Research.definitions_of_upsertApproval h.1]
    exact hkeyed
  | revoke approvalId reason =>
    obtain ⟨approval, -, hupsert⟩ := h
    unfold Keyed
    rw [Research.definitions_of_upsertApproval hupsert]
    exact hkeyed

/-- **A step** of the cluster keeps the tables but for what it adds, and the state and the reason of approvals. -/
theorem cluster_kept (s : Cluster) (input : ClusterInput) : s.db.Kept ((cluster host).step s input).1.db := by
  cases input with
  | call i call =>
    simp only [cluster]
    split <;> exact .refl _
  | restart i => exact .refl _
  | evidence row =>
    exact ⟨fun _ h => h, fun _ h => h, fun row h => ⟨row.state, row.reason, h⟩, fun _ => List.mem_append_left _⟩
  | advance i fault =>
    simp only [cluster]
    rcases advance_cases host (s.replicas i) s.db fault with hsame | ⟨call, rest, _, -, -, hwrite, -⟩
    · rw [hsame]
      exact .refl _
    exact kept_of_written (write_ok hwrite)

/-- Only the validation service stores evidence. -/
theorem cluster_nseEvidence (s : Cluster) {input : ClusterInput} (h : ∀ row, input ≠ .evidence row) :
    ((cluster host).step s input).1.db.nseEvidence = s.db.nseEvidence := by
  cases input with
  | call i call =>
    simp only [cluster]
    split <;> rfl
  | restart i => rfl
  | evidence row => exact absurd rfl (h row)
  | advance i fault =>
    simp only [cluster]
    rcases advance_cases host (s.replicas i) s.db fault with hsame | ⟨call, rest, _, -, -, hwrite, -⟩
    · rw [hsame]
    exact nseEvidence_of_written (write_ok hwrite)

theorem cluster_keyed (s : Cluster) (input : ClusterInput) (h : Keyed host s.db) :
    Keyed host ((cluster host).step s input).1.db := by
  cases input with
  | call i call =>
    simp only [cluster]
    split <;> exact h
  | restart i => exact h
  | evidence row => exact h
  | advance i fault =>
    simp only [cluster]
    rcases advance_cases host (s.replicas i) s.db fault with hsame | ⟨call, rest, _, -, -, hwrite, -⟩
    · rwa [hsame]
    exact h.of_written (write_ok hwrite)

theorem cluster_admitted (s : Cluster) (input : ClusterInput) (h : s.db.Admitted) :
    ((cluster host).step s input).1.db.Admitted := by
  cases input with
  | call i call =>
    simp only [cluster]
    split <;> exact h
  | restart i => exact h
  | evidence row => exact h.addEvidence row
  | advance i fault =>
    simp only [cluster]
    rcases advance_cases host (s.replicas i) s.db fault with hsame | ⟨call, rest, _, -, -, hwrite, -⟩
    · rwa [hsame]
    have hwritten := write_ok hwrite
    cases call with
    | register definition => exact h.insertDefinition hwritten
    | recordValidation result => exact h.insertValidation hwritten
    | recordApproval approval => exact h.upsertApproval hwritten.1
    | revoke approvalId reason =>
      obtain ⟨approval, -, hupsert⟩ := hwritten
      exact h.upsertApproval hupsert

theorem exec_admitted (inputs : List ClusterInput) : ((cluster host).exec {} inputs).db.Admitted :=
  Machine.exec_invariant cluster_admitted
    ⟨fun _ hrow => absurd hrow List.not_mem_nil, fun _ hrow => absurd hrow List.not_mem_nil⟩ inputs

/-- **What `require_approval` returns**, after every run of the processes, of one of the technical strategies of NSE
rests on stored evidence of that strategy with the run of the approval, and that run is stored as passed. -/
theorem required_has_evidence (inputs : List ClusterInput) (identity : StrategyIdentity) (t : Instant)
    (approval : StrategyApproval) (h : ((cluster host).exec {} inputs).db.requireApproval host identity t = .ok approval)
    (hnse : approval.identity.market = .nse) (hid : approval.identity.strategyId ∈ Research.evidencedStrategies) :
    ∃ e ∈ ((cluster host).exec {} inputs).db.nseEvidence, e.strategyKey = identity.key host ∧
      e.validationRunId = approval.validationRunId ∧ e.isResearch = true ∧
        ∃ v ∈ ((cluster host).exec {} inputs).db.validations,
          v.validationRunId = approval.validationRunId ∧ v.passed = true := by
  obtain ⟨row, hrow, hkey, hforce, hread⟩ := Research.of_requireApproval h
  obtain ⟨definition, hfind, rfl⟩ := Option.map_eq_some_iff.mp hread
  obtain ⟨d, hd, rfl⟩ := Option.map_eq_some_iff.mp hfind
  have hevidenced : ((cluster host).exec {} inputs).db.Evidenced row :=
    ⟨d, List.mem_of_find?_eq_some hd, by simpa using List.find?_some hd, hnse, hid⟩
  obtain ⟨e, he, hstrategy, hrun, hresearch, v, hv, hvid, hpassed⟩ :=
    (exec_admitted inputs).evidence row hrow hforce.1 hevidenced
  exact ⟨e, he, hstrategy.trans hkey, hrun, hresearch, v, hv, hvid.trans hrun, hpassed⟩

/-- An approval is stored with its time and its author. -/
def StoredAs (db : Research) (approval : StrategyApproval) : Prop :=
  ∃ row ∈ db.approvals, row.approvalId = approval.approvalId ∧ row.approvedAt = approval.approvedAt ∧
    row.approvedBy = approval.approvedBy

theorem StoredAs.mono {db db' : Research} {approval : StrategyApproval} (h : StoredAs db approval) (hkept : db.Kept db') :
    StoredAs db' approval := by
  obtain ⟨row, hrow, hsame⟩ := h
  obtain ⟨state, reason, hrow'⟩ := hkept.approvals row hrow
  exact ⟨_, hrow', hsame⟩

/-- What `record_approval` reads back. -/
theorem storedAs_of_write {db db' : Research} {artifacts artifacts' : Artifacts} {approval : StrategyApproval}
    (h : (RegistryCall.recordApproval approval).write host db artifacts = .ok db' artifacts') : StoredAs db' approval := by
  obtain ⟨_, _, -, h₁⟩ := Effect.bind_eq_ok.mp h
  obtain ⟨_, _, -, h₂⟩ := Effect.bind_eq_ok.mp h₁
  obtain ⟨_, _, -, h₃⟩ := Effect.bind_eq_ok.mp h₂
  obtain ⟨stored, _, -, h₄⟩ := Effect.bind_eq_ok.mp h₃
  obtain ⟨persisted, _, hload, h₅⟩ := Effect.bind_eq_ok.mp h₄
  have hload' := (Effect.ofExcept_eq_ok.mp hload).1
  by_cases hsame : persisted ≠ approval
  · rw [if_pos hsame] at h₅
    cases h₅
  rw [if_neg hsame] at h₅
  rw [not_not.mp hsame] at hload'
  obtain ⟨_, _, -, h₆⟩ := Effect.bind_eq_ok.mp h₅
  cases h₆
  unfold Research.loadApproval at hload'
  cases hread : (db'.approvals.find? fun row => row.approvalId = approval.approvalId).bind db'.approvalFromRow with
  | none =>
    rw [hread] at hload'
    cases hload'
  | some loaded =>
    rw [hread] at hload'
    cases hload'
    obtain ⟨row, hfind, hfrom⟩ := Option.bind_eq_some_iff.mp hread
    obtain ⟨definition, -, hrow⟩ := Option.map_eq_some_iff.mp hfrom
    refine ⟨row, List.mem_of_find?_eq_some hfind, ?_⟩
    rw [← hrow]
    exact ⟨rfl, rfl, rfl⟩

/-- **A step of a process that records an approval**: the call goes on, or it raises, or the approval is stored. -/
theorem advance_recordApproval {replica : Replica} {approval : StrategyApproval}
    (h : replica.rest <:+ (RegistryCall.recordApproval approval).statements) (db : Research) (fault : Option DatabaseFault) :
    (replica.advance host db fault).2.2 = none ∧
        (replica.advance host db fault).1.rest <:+ (RegistryCall.recordApproval approval).statements ∨
      (∃ e, (replica.advance host db fault).2.2 = some (.error e)) ∨
        (replica.advance host db fault).2.2 = some (.ok ()) ∧ StoredAs (replica.advance host db fault).2.1 approval := by
  unfold Replica.advance
  split
  · exact Or.inl ⟨rfl, h⟩
  · rename_i call rest hrest
    rw [hrest] at h
    have hcall : call = .recordApproval approval := by
      simpa [RegistryCall.statements, List.suffix_cons_iff] using h.subset (List.mem_cons_self ..)
    subst hcall
    split
    · split <;> exact Or.inr (Or.inl ⟨_, rfl⟩)
    · split <;> exact Or.inr (Or.inl ⟨_, rfl⟩)
    · split
      · rename_i hwrite
        exact Or.inr (Or.inr ⟨rfl, storedAs_of_write hwrite⟩)
      · exact Or.inr (Or.inl ⟨_, rfl⟩)
  · rename_i hrest
    rw [hrest] at h
    split
    · exact Or.inr (Or.inl ⟨_, rfl⟩)
    · exact Or.inl ⟨rfl, (List.suffix_cons _ _).trans h⟩
  · rename_i hrest
    rw [hrest] at h
    split
    · exact Or.inr (Or.inl ⟨_, rfl⟩)
    · exact Or.inl ⟨rfl, (List.suffix_cons _ _).trans h⟩
  · rename_i hrest
    rw [hrest] at h
    split
    · exact Or.inr (Or.inl ⟨_, rfl⟩)
    · exact Or.inl ⟨rfl, (List.suffix_cons _ _).trans h⟩

namespace Evidenced

theorem texts : isBlank "vwap_pullback" = false ∧ isBlank "1" = false ∧ isBlank "1h" = false ∧
    isBlank "INTRADAY" = false := by
  decide +kernel

/-- One of the technical strategies of NSE. -/
def identity : StrategyIdentity := { CachedRun.identity with market := .nse, strategyId := "vwap_pullback", texts }

/-- Its definition, a run that passed and an approval of that run. -/
def definition : StrategyDefinition := { CachedRun.definition with identity }

def passedRun : ValidationResult := { CachedRun.passedRun with identity }

def approval : StrategyApproval := { CachedRun.approval with identity }

/-- The strategy is registered and its run and its evidence are stored. Then it is approved. -/
def inputs : List ClusterInput :=
  ([.call 0 (.register definition), .advance 0 none, .advance 0 none] : List ClusterInput) ++
    CachedRun.validated 0 passedRun none ++ ([.evidence ⟨identity.key (.recorded []), "run", true⟩] : List ClusterInput) ++
    ([.call 0 (.recordApproval approval), .advance 0 none, .advance 0 none, .advance 0 none, .advance 0 none] :
      List ClusterInput)

end Evidenced

/-- The approval is returned at the instant it begins. -/
theorem required_has_evidence_of_vwap :
    ∃ e ∈ ((cluster (.recorded [])).exec {} Evidenced.inputs).db.nseEvidence,
      e.strategyKey = Evidenced.identity.key (.recorded []) ∧ e.validationRunId = Evidenced.approval.validationRunId ∧
        e.isResearch = true ∧ ∃ v ∈ ((cluster (.recorded [])).exec {} Evidenced.inputs).db.validations,
          v.validationRunId = Evidenced.approval.validationRunId ∧ v.passed = true :=
  required_has_evidence Evidenced.inputs Evidenced.identity 1767225600000000 Evidenced.approval (by decide +kernel) rfl
    (by decide +kernel)

end Runs

end NanoDelta.Strategies
