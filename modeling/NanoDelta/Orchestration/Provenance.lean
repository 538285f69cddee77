import NanoDelta.Library.Series
import NanoDelta.Orchestration.Allocation
import NanoDelta.Orchestration.PaperBatch

/-!
# Where allocations come from

Every allocation of a run is of a candidate that a registered strategy proposed on one of
the contexts of the run, in the market of the strategy, and in a symbol that was not held.
And the pipeline and the batch executor leave alone whatever their ledger leaves alone.

* `run_provenance`: the candidates behind the allocations of a run.
* `keeps_run`, `keeps_judge`, `keeps_recordOrders`: what the ledger does not touch.
-/

namespace NanoDelta.Orchestration

open Library Strategies Decisions

variable {host : Host} {Λ : Type} {self : StagedDecisionPipeline Λ} {cycleId : String} {t : Instant}

/-! ### Candidates -/

/-- A registered strategy proposed the candidate on the context. -/
def ProposedOn (host : Host) (registry : StrategyRegistry) (context : StrategyContext)
    (candidate : DeterministicCandidate) : Prop :=
  ∃ definition ∈ registry.definitions.values, definition.identity.market = context.market ∧
    ∃ approvalId signal, candidate = .create host definition approvalId context signal

/-- An eligible strategy is registered, in the market asked for. -/
theorem mem_eligible {registry : StrategyRegistry} {market : Market} {timeframe tradeHorizon : String}
    {version : ℕ} {definition : StrategyDefinition}
    (h : definition ∈ registry.eligible market timeframe tradeHorizon version t) :
    definition ∈ registry.definitions.values ∧ definition.identity.market = market := by
  unfold StrategyRegistry.eligible at h
  rw [List.mem_insertionSort, List.mem_map] at h
  obtain ⟨e, he, rfl⟩ := h
  rw [List.mem_filter] at he
  obtain ⟨hmem, hmatch⟩ := he
  simp only [Bool.and_eq_true, decide_eq_true_eq] at hmatch
  refine ⟨List.mem_map.mpr ⟨e, hmem, rfl⟩, ?_⟩
  rw [registry.keyed e hmem]
  exact hmatch.1.1.1.1

theorem generateFrom_some {context : StrategyContext} {definition : StrategyDefinition} {c c' : Cycle Λ}
    {candidate : DeterministicCandidate}
    (h : generateFrom host self cycleId t context definition c = .ok (some candidate) c') :
    ∃ approvalId signal, candidate = .create host definition approvalId context signal := by
  unfold generateFrom at h
  obtain ⟨plugin, _, -, h₁⟩ := Effect.bind_eq_ok.mp h
  obtain ⟨⟨compatible, reason⟩, _, -, h₂⟩ := Effect.bind_eq_ok.mp h₁
  simp only at h₂
  split_ifs at h₂
  · obtain ⟨_, _, -, h₃⟩ := Effect.bind_eq_ok.mp h₂
    cases h₃
  · obtain ⟨approval, _, -, h₃⟩ := Effect.bind_eq_ok.mp h₂
    obtain ⟨_, _, -, h₄⟩ := Effect.bind_eq_ok.mp h₃
    obtain ⟨signal, _, -, h₅⟩ := Effect.bind_eq_ok.mp h₄
    cases signal with
    | none =>
      obtain ⟨_, _, -, h₆⟩ := Effect.bind_eq_ok.mp h₅
      cases h₆
    | some signal =>
      obtain ⟨candidate', _, hpropose, h₆⟩ := Effect.bind_eq_ok.mp h₅
      cases h₆
      unfold propose at hpropose
      obtain ⟨_, _, -, h₇⟩ := Effect.bind_eq_ok.mp hpropose
      obtain ⟨_, _, -, h₈⟩ := Effect.bind_eq_ok.mp h₇
      obtain ⟨_, _, -, h₉⟩ := Effect.bind_eq_ok.mp h₈
      obtain ⟨_, _, -, h₁₀⟩ := Effect.bind_eq_ok.mp h₉
      cases h₁₀
      exact ⟨approval.approvalId, signal, rfl⟩

theorem generateOne_mem {context : StrategyContext} {c c' : Cycle Λ} {candidates : List DeterministicCandidate}
    (h : generateOne host self cycleId t context c = .ok candidates c') :
    ∀ candidate ∈ candidates, ProposedOn host self.registry context candidate := by
  have hnone : ∀ {x : EStateM PyError (Cycle Λ) Unit} {c : Cycle Λ},
      (do x; return [] : EStateM PyError (Cycle Λ) (List DeterministicCandidate)) c = .ok candidates c' →
        candidates = [] := by
    intro x c h
    obtain ⟨_, _, -, h⟩ := Effect.bind_eq_ok.mp h
    cases h
    rfl
  unfold generateOne at h
  cases hready : readinessReason context with
  | some reason =>
    simp only [hready] at h
    simp [hnone h]
  | none =>
    simp only [hready] at h
    obtain ⟨_, c₁, -, h₁⟩ := Effect.bind_eq_ok.mp h
    split_ifs at h₁
    · simp [hnone h₁]
    · obtain ⟨_, c₂, -, h₂⟩ := Effect.bind_eq_ok.mp h₁
      cases heligible : self.registry.eligible context.market context.timeframe context.tradeHorizon
          context.featureSetVersion t with
      | nil =>
        simp only [heligible] at h₂
        simp [hnone h₂]
      | cons first rest =>
        simp only [heligible] at h₂
        obtain ⟨definitions, hsub, hproposed⟩ :=
          Effect.collect_sublist (R := fun definition candidate =>
            ∃ approvalId signal, candidate = .create host definition approvalId context signal)
            (fun _ _ _ _ h => generateFrom_some h) h₂
        intro candidate hcandidate
        obtain ⟨definition, hdefinition, hcreate⟩ := Effect.exists_of_forall₂ hproposed hcandidate
        obtain ⟨hregistered, hmarket⟩ := mem_eligible (heligible ▸ hsub.subset hdefinition)
        exact ⟨definition, hregistered, hmarket, hcreate⟩

theorem generate_mem {contexts : List StrategyContext} {c c' : Cycle Λ} {candidates : List DeterministicCandidate}
    (h : generate host self cycleId t contexts c = .ok candidates c') :
    ∀ candidate ∈ candidates, ∃ context ∈ contexts, ProposedOn host self.registry context candidate := by
  rw [generate, Effect.map_eq_ok] at h
  obtain ⟨lists, hlists, rfl⟩ := h
  intro candidate hcandidate
  obtain ⟨list, hlist, hmem⟩ := List.mem_flatten.mp hcandidate
  obtain ⟨context, hcontext, hproposed⟩ := Effect.exists_of_forall₂
    (Effect.forall₂_of_each (R := fun context list => ∀ candidate ∈ list,
      ProposedOn host self.registry context candidate) (fun _ _ _ _ h => generateOne_mem h) hlists) hlist
  exact ⟨context, hcontext, hproposed candidate hmem⟩

/-! ### The stages keep candidates -/

theorem mem_ranked {items : List ScoredCandidate} {item : ScoredCandidate} :
    item ∈ ranked host items ↔ item ∈ items :=
  List.mem_insertionSort _

theorem score_mem {candidates : List DeterministicCandidate} {c c' : Cycle Λ} {scored : List ScoredCandidate}
    (h : score host self cycleId t candidates c = .ok scored c') : ∀ item ∈ scored, item.candidate ∈ candidates := by
  rw [score, Effect.map_eq_ok] at h
  obtain ⟨items, hitems, rfl⟩ := h
  have hone : ∀ candidate c item c', scoreOne host self cycleId t candidate c = .ok (some item) c' →
      item.candidate = candidate := by
    intro candidate c item c' h
    unfold scoreOne at h
    simp only at h
    split_ifs at h
    · obtain ⟨_, _, -, h⟩ := Effect.bind_eq_ok.mp h
      cases h
      rfl
    · obtain ⟨_, _, -, h⟩ := Effect.bind_eq_ok.mp h
      cases h
  obtain ⟨from_, hsub, hR⟩ := Effect.collect_sublist hone hitems
  intro item hitem
  obtain ⟨candidate, hcandidate, rfl⟩ := Effect.exists_of_forall₂ hR (mem_ranked.mp hitem)
  exact hsub.subset hcandidate

/-- The groups are made of the scored candidates. -/
theorem mem_of_mem_groups {scored : List ScoredCandidate} {group : List ScoredCandidate}
    (h : group ∈ (groups scored).values) : ∀ item ∈ group, item ∈ scored := by
  have hgroups : (groups scored).values.flatten.Perm scored := flatten_groupBy_perm ScoredCandidate.key scored
  exact fun item hitem => hgroups.mem_iff.mp (List.mem_flatten.mpr ⟨group, h, hitem⟩)

theorem resolveConflicts_mem {scored : List ScoredCandidate} {c c' : Cycle Λ} {resolved : List ScoredCandidate}
    (h : resolveConflicts host self cycleId t scored c = .ok resolved c') : ∀ item ∈ resolved, item ∈ scored := by
  rw [resolveConflicts, Effect.map_eq_ok] at h
  obtain ⟨items, hitems, rfl⟩ := h
  have hone : ∀ group c item c', resolveGroup host self cycleId t group c = .ok (some item) c' → item ∈ group := by
    intro group c item c' h
    unfold resolveGroup at h
    split_ifs at h
    · obtain ⟨_, _, -, h⟩ := Effect.bind_eq_ok.mp h
      cases h
    · cases group with
      | nil => cases h
      | cons best rest =>
        obtain ⟨_, _, -, h₁⟩ := Effect.bind_eq_ok.mp h
        obtain ⟨_, _, -, h₂⟩ := Effect.bind_eq_ok.mp h₁
        cases h₂
        exact List.mem_cons_self ..
  obtain ⟨from_, hsub, hR⟩ := Effect.collect_sublist hone hitems
  intro item hitem
  obtain ⟨group, hgroup, hmem⟩ := Effect.exists_of_forall₂ hR (mem_ranked.mp hitem)
  exact mem_of_mem_groups (hsub.subset hgroup) item hmem

theorem review_mem {candidates : List ScoredCandidate} {c c' : Cycle Λ} {reviewed : List ScoredCandidate}
    (h : review host self cycleId t candidates c = .ok reviewed c') : ∀ item ∈ reviewed, item ∈ candidates := by
  unfold review at h
  split_ifs at h with hmode
  · obtain ⟨_, _, -, h⟩ := Effect.bind_eq_ok.mp h
    cases h
    exact fun _ h => h
  · have hone : ∀ item c item' c', reviewOne host self cycleId t (self.reviewer.get (self.reviewer_given hmode)) item c =
        .ok (some item') c' → item' = item := by
      intro item c item' c' h
      unfold reviewOne at h
      split_ifs at h
      · obtain ⟨_, _, -, h⟩ := Effect.bind_eq_ok.mp h
        cases h
      · obtain ⟨_, _, -, h⟩ := Effect.bind_eq_ok.mp h
        cases h
        rfl
    obtain ⟨from_, hsub, hR⟩ := Effect.collect_sublist hone h
    intro item hitem
    obtain ⟨item', hmem, rfl⟩ := Effect.exists_of_forall₂ hR hitem
    exact hsub.subset hmem

theorem allocate_mem {candidates : List ScoredCandidate} {existingSymbols : List (Market × String)}
    {correlations : Dict (String × String) ℚ} {allocations : List PortfolioAllocation} {c c' : Cycle Λ}
    (h : allocate host self cycleId t candidates existingSymbols correlations c = .ok allocations c') :
    ∀ a ∈ allocations, a.candidate ∈ candidates ∧ a.candidate.key ∉ existingSymbols := by
  rw [allocate, Effect.map_eq_ok] at h
  obtain ⟨chosen, hfold, rfl⟩ := h
  refine Effect.foldlM_invariant (P := fun chosen : Allocating => ∀ a ∈ chosen.allocations,
    a.candidate ∈ candidates ∧ a.candidate.key ∉ existingSymbols) ?_ (by simp) hfold
  intro chosen item hitem c₁ chosen' c₂ hchosen hone
  rcases allocateOne_cases hone with rfl | ⟨hkey, -, hallocations, -⟩
  · exact hchosen
  · intro a ha
    rw [hallocations] at ha
    rcases List.mem_append.mp ha with ha | ha
    · exact hchosen a ha
    · rw [List.mem_singleton.mp ha]
      exact ⟨hitem, hkey⟩

/-- **Where the allocations of a run come from**: a registered strategy proposed the candidate on one of
the contexts, and its symbol was not held. -/
theorem run_provenance {contexts : List StrategyContext} {preconditions : CyclePreconditions}
    {evaluatedAt : DateTime} {liveQuotes : Dict (Market × String) ℚ} {existingSymbols : List (Market × String)}
    {correlations : Dict (String × String) ℚ} {ledger ledger' : Λ} {result : PipelineResult}
    (h : run host self contexts preconditions evaluatedAt liveQuotes existingSymbols correlations ledger =
      .ok result ledger') :
    ∀ b ∈ result.allocations, b.candidate.key ∉ existingSymbols ∧
      ∃ context ∈ contexts, ProposedOn host self.registry context b.candidate.candidate := by
  unfold run at h
  cases evaluatedAt with
  | naive w => cases h
  | aware t =>
    obtain ⟨c, hcycle, -⟩ := Effect.project_eq_ok.mp h
    unfold cycle at hcycle
    obtain ⟨_, c₁, -, hcycle⟩ := Effect.bind_eq_ok.mp hcycle
    split_ifs at hcycle with hmode
    · obtain ⟨_, _, -, hcycle⟩ := Effect.bind_eq_ok.mp hcycle
      cases hcycle
      simp
    · unfold stages at hcycle
      obtain ⟨candidates, _, hgenerate, hcycle⟩ := Effect.bind_eq_ok.mp hcycle
      obtain ⟨scored, _, hscore, hcycle⟩ := Effect.bind_eq_ok.mp hcycle
      obtain ⟨resolved, _, hresolve, hcycle⟩ := Effect.bind_eq_ok.mp hcycle
      obtain ⟨reviewed, _, hreview, hcycle⟩ := Effect.bind_eq_ok.mp hcycle
      obtain ⟨allocations, _, hallocate, hcycle⟩ := Effect.bind_eq_ok.mp hcycle
      obtain ⟨valid, _, hrevalidate, hcycle⟩ := Effect.bind_eq_ok.mp hcycle
      cases hcycle
      obtain ⟨chosen, hsub, hvalid⟩ :=
        Effect.collect_sublist (R := Revalidated self.policy) (fun _ _ _ _ h => revalidateOne_some h) hrevalidate
      intro b hb
      obtain ⟨a, ha, quote, rfl, -⟩ := Effect.exists_of_forall₂ hvalid hb
      obtain ⟨hmem, hkey⟩ := allocate_mem hallocate a (hsub.subset ha)
      refine ⟨hkey, generate_mem hgenerate _ (score_mem hscore _ ?_)⟩
      exact resolveConflicts_mem hresolve _ (review_mem hreview _ hmem)

/-! ### What the ledger does not touch -/

section Keeps

universe v

variable {γ : Type v} {f : Λ → γ}

/-- The ledger leaves `f` of its state as it is. -/
structure LedgerKeeps (f : Λ → γ) (ledger : DecisionLedger Λ) : Prop where
  append : ∀ decision, Effect.Keeps f (ledger.append decision)
  appendCandidate : ∀ candidate decision, Effect.Keeps f (ledger.appendCandidate candidate decision)

/-- What a cycle leaves of its ledger. -/
def onCycle (f : Λ → γ) (c : Cycle Λ) : γ := f c.ledger

theorem keeps_onLedger {α : Type} {x : EStateM PyError Λ α} (h : Effect.Keeps f x) :
    Effect.Keeps (onCycle f) (onLedger x) := by
  intro c
  unfold onLedger Effect.focus
  cases hx : x c.ledger with
  | ok a ledger => exact h.of_ok hx
  | error e ledger => exact h.of_error hx

variable (hledger : LedgerKeeps f self.ledger)

include hledger

theorem keeps_publish (decision : Decision) : Effect.Keeps (onCycle f) (publish self decision) :=
  (keeps_onLedger (hledger.append decision)).bind fun _ => Effect.keeps_modify fun _ => rfl

theorem keeps_emit {context : StrategyContext} {stage : DecisionStage} {status : DecisionStatus} {reason : String}
    {strategyKey : Option String} :
    Effect.Keeps (onCycle f) (emit host self cycleId t context stage status reason strategyKey) :=
  (Effect.keeps_ofExcept _).bind fun decision => keeps_publish hledger decision

theorem keeps_emitCandidate {item : ScoredCandidate} {stage : DecisionStage} {status : DecisionStatus}
    {reason : String} {extraMetrics : List (String × ℚ)} :
    Effect.Keeps (onCycle f) (emitCandidate host self cycleId t item stage status reason extraMetrics) :=
  (Effect.keeps_ofExcept _).bind fun decision => keeps_publish hledger decision

/-- Emitting a decision about a candidate and returning. -/
theorem keeps_emitCandidate_return {α : Type} {item : ScoredCandidate} {stage : DecisionStage}
    {status : DecisionStatus} {reason : String} {extraMetrics : List (String × ℚ)} {a : α} :
    Effect.Keeps (onCycle f) (do
      emitCandidate host self cycleId t item stage status reason extraMetrics
      return a) :=
  (keeps_emitCandidate hledger).bind fun _ => Effect.keeps_pure a

theorem keeps_propose {context : StrategyContext} {definition : StrategyDefinition} {approval : StrategyApproval}
    {signal : StrategySignal} :
    Effect.Keeps (onCycle f) (propose host self cycleId t context definition approval signal) :=
  (Effect.keeps_ofExcept _).bind fun record => (Effect.keeps_ofExcept _).bind fun decision =>
    (keeps_onLedger (hledger.appendCandidate record decision)).bind fun _ _ => rfl

theorem keeps_generateFrom (context : StrategyContext) (definition : StrategyDefinition) :
    Effect.Keeps (onCycle f) (generateFrom host self cycleId t context definition) := by
  unfold generateFrom
  refine (Effect.keeps_ofExcept _).bind fun plugin => (Effect.keeps_ofExcept _).bind fun answer => ?_
  obtain ⟨compatible, reason⟩ := answer
  simp only
  split
  · exact (keeps_emit hledger).bind fun _ => Effect.keeps_pure _
  · refine (Effect.keeps_ofExcept _).bind fun approval => (keeps_emit hledger).bind fun _ =>
      (Effect.keeps_ofExcept _).bind fun signal => ?_
    cases signal with
    | none => exact (keeps_emit hledger).bind fun _ => Effect.keeps_pure _
    | some signal => exact (keeps_propose hledger).bind fun _ => Effect.keeps_pure _

theorem keeps_generateOne (context : StrategyContext) :
    Effect.Keeps (onCycle f) (generateOne host self cycleId t context) := by
  unfold generateOne
  cases readinessReason context with
  | some reason => exact (keeps_emit hledger).bind fun _ => Effect.keeps_pure _
  | none =>
    refine (keeps_emit hledger).bind fun _ => ?_
    split
    · exact (keeps_emit hledger).bind fun _ => Effect.keeps_pure _
    · refine (keeps_emit hledger).bind fun _ => ?_
      cases self.registry.eligible context.market context.timeframe context.tradeHorizon context.featureSetVersion t with
      | nil => exact (keeps_emit hledger).bind fun _ => Effect.keeps_pure _
      | cons first rest => exact Effect.Keeps.collect (keeps_generateFrom hledger context) _

theorem keeps_resolveGroup (group : List ScoredCandidate) :
    Effect.Keeps (onCycle f) (resolveGroup host self cycleId t group) := by
  unfold resolveGroup
  split
  · exact (Effect.Keeps.each (fun _ => keeps_emitCandidate hledger) group).bind fun _ =>
      Effect.keeps_pure _
  · cases group with
    | nil => exact Effect.keeps_throw _
    | cons best rest =>
      exact (keeps_emitCandidate hledger).bind fun _ =>
        (Effect.Keeps.each (fun _ => keeps_emitCandidate hledger) rest).bind fun _ => Effect.keeps_pure _

theorem keeps_review (candidates : List ScoredCandidate) :
    Effect.Keeps (onCycle f) (review host self cycleId t candidates) := by
  unfold review
  split
  · exact (Effect.Keeps.each (fun _ => keeps_emitCandidate hledger) candidates).bind fun _ =>
      Effect.keeps_pure _
  · refine Effect.Keeps.collect (fun item => ?_) candidates
    unfold reviewOne
    extract_lets verdict
    split_ifs <;> exact keeps_emitCandidate_return hledger

theorem keeps_allocateOne (existingSymbols : List (Market × String)) (correlations : Dict (String × String) ℚ)
    (chosen : Allocating) (item : ScoredCandidate) :
    Effect.Keeps (onCycle f) (allocateOne host self cycleId t existingSymbols correlations chosen item) := by
  unfold allocateOne
  simp only
  split_ifs <;> exact keeps_emitCandidate_return hledger

theorem keeps_revalidateOne (quotes : Dict (Market × String) ℚ) (allocation : PortfolioAllocation) :
    Effect.Keeps (onCycle f) (revalidateOne host self cycleId t quotes allocation) := by
  unfold revalidateOne
  simp only
  cases quotes.get? allocation.candidate.key with
  | none => exact keeps_emitCandidate_return hledger
  | some quote =>
    simp only
    split_ifs <;> exact keeps_emitCandidate_return hledger

theorem keeps_stages (contexts : List StrategyContext) (liveQuotes : Dict (Market × String) ℚ)
    (existingSymbols : List (Market × String)) (correlations : Dict (String × String) ℚ) :
    Effect.Keeps (onCycle f) (stages host self cycleId t contexts liveQuotes existingSymbols correlations) := by
  have hscore : ∀ candidate, Effect.Keeps (onCycle f) (scoreOne host self cycleId t candidate) := by
    intro candidate
    unfold scoreOne
    simp only
    split
    · exact keeps_emitCandidate_return hledger
    · exact keeps_emitCandidate_return hledger
  unfold stages
  refine ((Effect.Keeps.each (keeps_generateOne hledger) contexts).map _).bind fun candidates => ?_
  refine ((Effect.Keeps.collect hscore candidates).map _).bind fun scored => ?_
  refine ((Effect.Keeps.collect (keeps_resolveGroup hledger) _).map _).bind fun resolved => ?_
  refine (keeps_review hledger resolved).bind fun reviewed => ?_
  refine ((Effect.Keeps.foldlM (keeps_allocateOne hledger existingSymbols correlations) reviewed _).map _).bind
    fun allocations => ?_
  refine (Effect.Keeps.collect (keeps_revalidateOne hledger liveQuotes) allocations).bind fun valid => ?_
  exact fun _ => rfl

/-- A run without a position manager leaves alone what its ledger leaves alone. -/
theorem keeps_run (hmanager : self.positionManager = none) (contexts : List StrategyContext)
    (preconditions : CyclePreconditions) (evaluatedAt : DateTime) (liveQuotes : Dict (Market × String) ℚ)
    (existingSymbols : List (Market × String)) (correlations : Dict (String × String) ℚ) :
    Effect.Keeps f
      (run host self contexts preconditions evaluatedAt liveQuotes existingSymbols correlations) := by
  intro ledger
  unfold run
  cases evaluatedAt with
  | naive w => rfl
  | aware t =>
    have hcycle : Effect.Keeps (onCycle f) (cycle host self (decisionCycleId host contexts) t contexts preconditions
        liveQuotes existingSymbols correlations) := by
      unfold cycle managePositions
      rw [hmanager]
      refine (Effect.keeps_pure _).bind fun _ => ?_
      split
      · exact (Effect.Keeps.each (fun _ => keeps_emit hledger) contexts).bind fun _ => fun _ => rfl
      · exact keeps_stages hledger contexts liveQuotes existingSymbols correlations
    have hfinal := hcycle ⟨ledger, []⟩
    simp only [utc]
    cases hc : cycle host self (decisionCycleId host contexts) t contexts preconditions liveQuotes existingSymbols
        correlations ⟨ledger, []⟩ with
    | ok result c => rw [hc] at hfinal; exact hfinal
    | error e c => rw [hc] at hfinal; exact hfinal

end Keeps

/-! ### The batch executor and its ledger -/

section Batch

universe v

open Risk Paper

variable {Ω : Type} {batch : PaperBatchExecutor Ω} {γ : Type v} {f : Ω → γ}

variable (hledger : LedgerKeeps f batch.ledger)

include hledger

theorem keeps_appendStage {cycleId : String} {candidate : DeterministicCandidate} {stage : DecisionStage}
    {status : DecisionStatus} {reason : String} {t : Instant} {detail : String} :
    Effect.Keeps f (appendStage host batch cycleId candidate stage status reason t detail) :=
  (Effect.keeps_ofExcept _).bind fun decision => hledger.append decision

theorem keeps_judge (cycleId accountId : String) (portfolio : PortfolioSnapshot) (t : Instant)
    (allocation : PortfolioAllocation) :
    Effect.Keeps f (judge host batch cycleId accountId portfolio t allocation) := by
  unfold judge
  refine (Effect.keeps_ofExcept _).bind fun approval => (Effect.keeps_ofExcept _).bind fun intent =>
    (Effect.keeps_ofExcept _).bind fun decision => Effect.Keeps.bind ?_ fun _ => Effect.keeps_pure _
  unfold recordJudgment
  split
  · exact keeps_appendStage hledger
  · exact (Effect.keeps_ofExcept _).bind fun reason => keeps_appendStage hledger

theorem keeps_recordOrders (cycleId : String) (t : Instant) (allocations : List PortfolioAllocation)
    (receipts : List ExecutionReceipt) :
    Effect.Keeps f (recordOrders host batch cycleId t allocations receipts) := by
  unfold recordOrders
  induction allocations generalizing receipts with
  | nil =>
    cases receipts with
    | nil => exact Effect.keeps_pure _
    | cons r rs => exact Effect.keeps_throw _
  | cons a as ih =>
    cases receipts with
    | nil => exact Effect.keeps_throw _
    | cons r rs => exact (keeps_appendStage hledger).bind fun _ => ih rs

end Batch

end NanoDelta.Orchestration
