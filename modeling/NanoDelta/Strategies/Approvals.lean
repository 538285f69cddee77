import NanoDelta.Strategies.Replicas

/-!
# What is stored of approvals

Runs of the processes over one database, from empty tables.

* `references_hold`: while an approval is written only when the stored run is of its strategy and passed, as the one in
  the dictionary, every approval references a passed run of its strategy.
* `cached_run_is_not_the_stored_one`: a write that fails leaves a passed run in a dictionary, and an approval of a
  failed one gets into the database.
* `revoked_for_good`: a committed revocation is never undone, whatever the processes have in their dictionaries.
-/

namespace NanoDelta.Strategies

open Library

variable {host : Host}

/-! ### The runs that approvals reference -/

/-- Every approval references a stored definition, and a stored run of the same strategy that passed. -/
def Research.Referenced (db : Research) : Prop :=
  ∀ a ∈ db.approvals, (∃ d ∈ db.definitions, d.strategyKey = a.strategyKey) ∧
    ∃ v ∈ db.validations, v.validationRunId = a.validationRunId ∧ v.strategyKey = a.strategyKey ∧ v.passed = true

/-- A passed run of the strategy in the dictionary is one in the table as well. -/
def Artifacts.RestsOnStored (host : Host) (self : Artifacts) (db : Research) (approval : StrategyApproval) : Prop :=
  ∀ result ∈ self.validations.get? approval.validationRunId, result.identity = approval.identity ∧ result.passed = true →
    ∀ v ∈ db.validations, v.validationRunId = approval.validationRunId →
      v.strategyKey = approval.identity.key host ∧ v.passed = true

/-- The approval that the next statement writes. -/
def nextApproval : List RegistryStatement → Option StrategyApproval
  | .write (.recordApproval approval) :: _ => some approval
  | _ => none

/-- If the next statement of a process writes an approval, then it rests on the stored run. -/
def RestsOnStored (host : Host) (s : Cluster) : ClusterInput → Prop
  | .advance i none =>
    ∀ approval ∈ nextApproval (s.replicas i).rest, (s.replicas i).artifacts.RestsOnStored host s.db approval
  | _ => True

instance (artifacts : Artifacts) (db : Research) (approval : StrategyApproval) :
    Decidable (artifacts.RestsOnStored host db approval) := inferInstanceAs (Decidable (∀ result ∈ _, _ → ∀ v ∈ _, _))

instance : ∀ s input, Decidable (RestsOnStored host s input)
  | _, .advance _ none => inferInstanceAs (Decidable (∀ approval ∈ _, _))
  | _, .advance _ (some _) => isTrue trivial
  | _, .call .. => isTrue trivial
  | _, .restart _ => isTrue trivial
  | _, .evidence _ => isTrue trivial

section Referenced

variable {db db' : Research}

/-- Rows that are added do not matter to the approvals that are there. -/
theorem Research.Referenced.grows (h : db.Referenced) (hgrows : db.Grows db') (heq : db'.approvals = db.approvals) :
    db'.Referenced := by
  intro a ha
  rw [heq] at ha
  obtain ⟨⟨d, hd, hkey⟩, v, hv, hrun⟩ := h a ha
  exact ⟨⟨d, hgrows.definitions d hd, hkey⟩, v, hgrows.validations v hv, hrun⟩

/-- Nor do the state and the reason of an approval. -/
theorem Research.Referenced.setApproval (h : db.Referenced) (approvalId : String) (state : ApprovalState)
    (reason : String) : (db.setApproval approvalId state reason).Referenced := by
  intro a ha
  obtain ⟨old, hold, rfl⟩ := Research.mem_setApproval.mp ha
  have hreferenced := h old hold
  split_ifs
  · exact hreferenced
  · exact hreferenced

/-- A new approval must reference such a run itself. -/
theorem Research.Referenced.upsertApproval {approval : StrategyApproval} (h : db.Referenced)
    (hrun : (∀ r ∈ db.approvals, r.approvalId ≠ approval.approvalId) →
      ∀ v ∈ db.validations, v.validationRunId = approval.validationRunId →
        v.strategyKey = approval.identity.key host ∧ v.passed = true)
    (hupsert : db.upsertApproval host approval = .ok db') : db'.Referenced := by
  rcases Research.upsertApproval_cases hupsert with
    ⟨hkey, rfl, hdefinition, v, hv, hid⟩ | ⟨old, -, -, ⟨-, -, rfl⟩ | ⟨-, rfl⟩⟩
  · intro a ha
    rcases List.mem_append.mp ha with ha | ha
    · exact h a ha
    · obtain rfl := List.mem_singleton.mp ha
      obtain ⟨hstrategy, hpassed⟩ := hrun hkey v hv hid
      exact ⟨hdefinition, v, hv, hid, hstrategy, hpassed⟩
  · exact h
  · exact Research.Referenced.setApproval h _ _ _

/-- **A step** of a process that writes only such approvals. -/
theorem Research.Referenced.step {s : Cluster} {input : ClusterInput} (hready : ∀ i, Ready s.db (s.replicas i))
    (h : s.db.Referenced) (hrests : RestsOnStored host s input) : ((cluster host).step s input).1.db.Referenced := by
  cases input with
  | call i call =>
    simp only [cluster]
    split <;> exact h
  | restart i => exact h
  | evidence row => exact h
  | advance i fault =>
    simp only [cluster]
    rcases advance_cases host (s.replicas i) s.db fault with hsame | ⟨call, rest, _, hrest, rfl, hwrite, -⟩
    · rwa [hsame]
    have hgrows := write_grows hwrite
    have hwritten := write_ok hwrite
    cases call with
    | register definition => exact h.grows hgrows (Research.insertDefinition_ok hwritten).2.1
    | recordValidation result => exact h.grows hgrows (Research.insertValidation_ok hwritten).2.1
    | recordApproval approval =>
      obtain ⟨hupsert, result, hget, hidentity, hpassed⟩ := hwritten
      have hnext : nextApproval (s.replicas i).rest = some approval := by rw [hrest]; rfl
      exact h.upsertApproval (fun _ => hrests approval hnext result hget ⟨hidentity, hpassed⟩) hupsert
    | revoke approvalId reason =>
      obtain ⟨approval, hget, hupsert⟩ := hwritten
      obtain ⟨hid, row, hrow, hrowId⟩ := (hready i).loaded approvalId reason rest hrest approval hget
      refine h.upsertApproval (fun hnew => ?_) hupsert
      exact absurd (hrowId.trans hid.symm) (hnew row hrow)

end Referenced

/-- **Every approval references a passed run of its strategy**, in every run of the processes in which no approval is
written on a run that is stored as another. -/
theorem references_hold (inputs : List ClusterInput) (h : (cluster host).Along (RestsOnStored host) {} inputs) :
    ((cluster host).exec {} inputs).db.Referenced := by
  have hstep : ∀ (s : Cluster) input, ((∀ i, Ready s.db (s.replicas i)) ∧ s.db.Referenced) → RestsOnStored host s input →
      (∀ i, Ready ((cluster host).step s input).1.db (((cluster host).step s input).1.replicas i)) ∧
        ((cluster host).step s input).1.db.Referenced :=
    fun s input hs hrests => ⟨cluster_ready s input hs.1, hs.2.step hs.1 hrests⟩
  exact (Machine.exec_invariant_along hstep ⟨fun _ => Ready.idle _, fun _ ha => absurd ha List.not_mem_nil⟩ h).2

/-! ### A run that is not stored -/

namespace CachedRun

/-- A strategy that needs no evidence. -/
def identity : StrategyIdentity where
  market := .crypto
  strategyId := "momentum"
  strategyVersion := "1"
  timeframe := "1h"
  tradeHorizon := "INTRADAY"
  featureSetVersion := 1
  texts := by decide +kernel
  version_pos := Nat.one_pos

/-- Its definition. -/
def definition : StrategyDefinition := ⟨identity, "trend", [], "nanodelta.strategies.momentum"⟩

/-- A run that passed. -/
def passedRun : ValidationResult where
  validationRunId := "run"
  identity := identity
  evaluatedAt := 1767225600000000
  passed := true
  rejectionReasons := []
  metrics := ⟨40, 4, 3, 2, 1, 1 / 10, 1 / 100, 1⟩
  policy := ⟨30, 3, 6 / 10, 0, 25 / 100, 5 / 100, ValidationPolicy.samples_ge,
    ValidationPolicy.six_tenths_mem, ValidationPolicy.five_hundredths_mem⟩

/-- A run with the same id that failed. -/
def failedRun : ValidationResult :=
  { passedRun with passed := false, rejectionReasons := ["DATA_NOT_READY"] }

/-- An approval of the run. -/
def approval : StrategyApproval :=
  ⟨"approval", identity, "run", .approved, 1767225600000000, 1798761600000000, "reviewer", "paper"⟩

/-- The first process registers the strategy. -/
def registered : List ClusterInput := [.call 0 (.register definition), .advance 0 none, .advance 0 none]

/-- The first process approves the strategy. -/
def approved : List ClusterInput :=
  [.call 0 (.recordApproval approval), .advance 0 none, .advance 0 none, .advance 0 none, .advance 0 none]

/-- A process stores a run, or loses its connection as it commits it. -/
def validated (i : ℕ) (result : ValidationResult) (fault : Option DatabaseFault) : List ClusterInput :=
  [.call i (.recordValidation result), .advance i none, .advance i none, .advance i fault]

/-- The first process loses its connection as it commits the run that passed. The second stores the one that failed.
Then the first approves the strategy. -/
def inputs : List ClusterInput :=
  registered ++ validated 0 passedRun (some .commit) ++ validated 1 failedRun none ++ approved

/-- The run that passed is stored. -/
def stored : List ClusterInput := registered ++ validated 0 passedRun none ++ approved

/-- The second process has read the stored approval, and is to write its revocation. -/
def revoking : List ClusterInput := stored ++ [.call 1 (.revoke "approval" "drift"), .advance 1 none]

end CachedRun

instance : DecidablePred Research.Referenced := fun _ => inferInstanceAs (Decidable (∀ a ∈ _, _))

theorem references_hold_stored :
    ((cluster .cpython).exec {} CachedRun.stored).db.Referenced ∧
      ((cluster .cpython).exec {} CachedRun.stored).db.approvals ≠ [] := by
  obtain ⟨hrests, happrovals⟩ : (cluster .cpython).Along (RestsOnStored .cpython) {} CachedRun.stored ∧
      ((cluster .cpython).exec {} CachedRun.stored).db.approvals ≠ [] := by
    rw [← Host.evaluated_eq]
    decide +kernel
  exact ⟨references_hold CachedRun.stored hrests, happrovals⟩

/-- **A run that is not stored**: the approval that is stored references a run that failed. -/
theorem cached_run_is_not_the_stored_one : ¬ ((cluster .cpython).exec {} CachedRun.inputs).db.Referenced := by
  rw [← Host.evaluated_eq]
  decide +kernel

/-! ### Revocation -/

/-- The approval is stored, and is revoked. -/
def Research.Revoked (db : Research) (approvalId : String) : Prop :=
  (∃ row ∈ db.approvals, row.approvalId = approvalId) ∧
    ∀ row ∈ db.approvals, row.approvalId = approvalId → row.state = .revoked

section Revoked

variable {db db' : Research} {approvalId : String}

theorem Research.Revoked.of_eq (h : db.Revoked approvalId) (heq : db'.approvals = db.approvals) :
    db'.Revoked approvalId := by
  unfold Research.Revoked
  rw [heq]
  exact h

/-- The state of a revoked approval is set only to revoked. -/
theorem Research.Revoked.setApproval (h : db.Revoked approvalId) {id reason : String} {state : ApprovalState}
    (hstate : approvalId = id → state = .revoked) : (db.setApproval id state reason).Revoked approvalId := by
  obtain ⟨⟨row, hrow, hid⟩, hall⟩ := h
  refine ⟨⟨_, Research.mem_setApproval.mpr ⟨row, hrow, rfl⟩, ?_⟩, ?_⟩
  · split_ifs
    · exact hid
    · exact hid
  · intro row' hrow' hid'
    obtain ⟨old, hold, rfl⟩ := Research.mem_setApproval.mp hrow'
    split_ifs at hid' ⊢ with hset
    · exact hstate (hid'.symm.trans hset)
    · exact hall old hold hid'

/-- **The write of an approval** leaves a revoked one revoked. -/
theorem Research.Revoked.upsertApproval {approval : StrategyApproval} (h : db.Revoked approvalId)
    (hupsert : db.upsertApproval host approval = .ok db') : db'.Revoked approvalId := by
  rcases Research.upsertApproval_cases hupsert with
    ⟨hkey, rfl, -⟩ | ⟨old, hold, hid, ⟨-, -, rfl⟩ | ⟨hstate, rfl⟩⟩
  · obtain ⟨⟨row, hrow, hid⟩, hall⟩ := h
    refine ⟨⟨row, List.mem_append_left _ hrow, hid⟩, ?_⟩
    intro row' hrow' hid'
    rcases List.mem_append.mp hrow' with hrow' | hrow'
    · exact hall row' hrow' hid'
    · obtain rfl := List.mem_singleton.mp hrow'
      exact absurd (hid.trans hid'.symm) (hkey row hrow)
  · exact h
  · exact h.setApproval fun heq => hstate (h.2 old hold (hid.trans heq.symm))

/-- **A step** of any process. -/
theorem Research.Revoked.step {s : Cluster} (h : s.db.Revoked approvalId) (input : ClusterInput) :
    ((cluster host).step s input).1.db.Revoked approvalId := by
  cases input with
  | call i call =>
    simp only [cluster]
    split <;> exact h
  | restart i => exact h
  | evidence row => exact h.of_eq rfl
  | advance i fault =>
    simp only [cluster]
    rcases advance_cases host (s.replicas i) s.db fault with hsame | ⟨call, rest, _, hrest, rfl, hwrite, -⟩
    · rwa [hsame]
    have hwritten := write_ok hwrite
    cases call with
    | register definition => exact h.of_eq (Research.insertDefinition_ok hwritten).2.1
    | recordValidation result => exact h.of_eq (Research.insertValidation_ok hwritten).2.1
    | recordApproval approval => exact h.upsertApproval hwritten.1
    | revoke id reason =>
      obtain ⟨approval, -, hupsert⟩ := hwritten
      exact h.upsertApproval hupsert

/-- **A revocation that is written** is stored. -/
theorem revoked_of_upsertApproval {approval : StrategyApproval} (hstate : approval.state = .revoked)
    (hstored : ∃ row ∈ db.approvals, row.approvalId = approval.approvalId)
    (hupsert : db.upsertApproval host approval = .ok db') : db'.Revoked approval.approvalId := by
  rcases Research.upsertApproval_cases hupsert with
    ⟨hkey, -⟩ | ⟨old, hold, hid, ⟨-, hkept, -⟩ | ⟨-, rfl⟩⟩
  · obtain ⟨row, hrow, hid⟩ := hstored
    exact absurd hid (hkey row hrow)
  · exact absurd hstate hkept
  · refine ⟨⟨_, Research.mem_setApproval.mpr ⟨old, hold, rfl⟩, ?_⟩, ?_⟩
    · rw [if_pos hid]
      exact hid
    · intro row hrow hrowId
      obtain ⟨row', -, rfl⟩ := Research.mem_setApproval.mp hrow
      split_ifs at hrowId ⊢ with hset
      · exact hstate
      · exact absurd hrowId hset

/-- `require_approval` answers with another approval. -/
theorem Research.Revoked.requireApproval (h : db.Revoked approvalId) {identity : StrategyIdentity} {t : Instant}
    {approval : StrategyApproval} (hrequire : db.requireApproval host identity t = .ok approval) :
    approval.approvalId ≠ approvalId := by
  obtain ⟨row, hmem, -, hforce, hread⟩ := Research.of_requireApproval hrequire
  obtain ⟨definition, -, rfl⟩ := Option.map_eq_some_iff.mp hread
  intro hid
  have hrevoked := h.2 row hmem hid
  rw [hforce.1] at hrevoked
  cases hrevoked

/-- A definition is `eligible` by another approval. -/
theorem Research.Revoked.eligible (h : db.Revoked approvalId) {market : Market} {timeframe tradeHorizon : String}
    {featureSetVersion : ℕ} {t : Instant} {definition : StrategyDefinition}
    (heligible : definition ∈ db.eligible market timeframe tradeHorizon featureSetVersion t) :
    ∃ d ∈ db.definitions, d.definition = definition ∧
      ∃ a ∈ db.approvals, a.strategyKey = d.strategyKey ∧ Research.InForce t a ∧ a.approvalId ≠ approvalId := by
  obtain ⟨d, hmem, rfl, -, a, ha, hkey, hforce⟩ := Research.mem_eligible.mp heligible
  refine ⟨d, hmem, rfl, a, ha, hkey, hforce, ?_⟩
  intro hid
  have hrevoked := h.2 a ha hid
  rw [hforce.1] at hrevoked
  cases hrevoked

end Revoked

/-- **A revocation that has committed is never undone**: whatever the processes did before and do after it, the approval
stays revoked, `require_approval` does not return it, and no strategy is eligible by it. -/
theorem revoked_for_good (before after : List ClusterInput) (i : ℕ) (approvalId reason : String)
    (hcalled : (((cluster host).exec {} before).replicas i).rest = [.write (.revoke approvalId reason)])
    (hcommitted : ((cluster host).step ((cluster host).exec {} before) (.advance i none)).2 = some (.ok ())) :
    let db := ((cluster host).exec {} (before ++ .advance i none :: after)).db
    db.Revoked approvalId ∧
      (∀ identity t approval, db.requireApproval host identity t = .ok approval → approval.approvalId ≠ approvalId) ∧
      ∀ market timeframe tradeHorizon featureSetVersion t,
        ∀ definition ∈ db.eligible market timeframe tradeHorizon featureSetVersion t,
          ∃ d ∈ db.definitions, d.definition = definition ∧
            ∃ a ∈ db.approvals, a.strategyKey = d.strategyKey ∧ Research.InForce t a ∧ a.approvalId ≠ approvalId := by
  intro db
  have hrevoked : db.Revoked approvalId := by
    show ((cluster host).exec {} (before ++ .advance i none :: after)).db.Revoked approvalId
    rw [Machine.exec_append, Machine.exec_cons]
    refine Machine.exec_invariant (P := fun s : Cluster => s.db.Revoked approvalId) (fun s input hs => hs.step input) ?_ after
    have hready := exec_ready host before i
    generalize (cluster host).exec {} before = s at hcalled hcommitted hready ⊢
    simp only [cluster] at hcommitted ⊢
    unfold Replica.advance at hcommitted ⊢
    rw [hcalled] at hcommitted ⊢
    dsimp only at hcommitted ⊢
    cases hwrite : RegistryCall.write host s.db (.revoke approvalId reason) (s.replicas i).artifacts with
    | error e artifacts =>
      rw [hwrite] at hcommitted
      cases hcommitted
    | ok db' artifacts =>
      show db'.Revoked approvalId
      obtain ⟨approval, hget, hupsert⟩ := write_ok hwrite
      obtain ⟨rfl, hstored⟩ := hready.loaded approvalId reason [] hcalled approval hget
      have hrevoked := revoked_of_upsertApproval rfl (by exact hstored) hupsert
      exact hrevoked
  exact ⟨hrevoked, fun _ _ _ => hrevoked.requireApproval, fun _ _ _ _ _ _ => hrevoked.eligible⟩

/-- The second process revokes the approval, and the first submits it again. -/
theorem revoked_for_good_resubmitted :
    ((cluster .cpython).exec {} (CachedRun.revoking ++ .advance 1 none :: CachedRun.approved)).db.Revoked "approval" := by
  obtain ⟨hcalled, hcommitted⟩ : (((cluster .cpython).exec {} CachedRun.revoking).replicas 1).rest =
        [.write (.revoke "approval" "drift")] ∧
      ((cluster .cpython).step ((cluster .cpython).exec {} CachedRun.revoking) (.advance 1 none)).2 =
        some (.ok ()) := by
    rw [← Host.evaluated_eq]
    decide +kernel
  exact (revoked_for_good CachedRun.revoking CachedRun.approved 1 "approval" "drift" hcalled hcommitted).1

end NanoDelta.Strategies
