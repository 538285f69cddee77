import NanoDelta.Library.Script
import NanoDelta.Orchestration.DecisionPipeline

/-!
# The scripts of the stages

Every stage of the decision pipeline only writes to the ledger, so what it returns and what it emits are a matter of its
input: it follows a script. A ledger that refuses a decision can make a run raise; `Calm` ledgers do not.

* `staged_generateOne`, `staged_scoreOne`, `staged_afterScoring`: the stages.
* `run_eq_ok`, `stages_eq_ok`: what a run is made of.
-/

namespace NanoDelta.Orchestration

open Library Library.Effect Strategies Decisions

/-- A ledger that takes every decision, and every candidate with a decision about it. -/
structure Calm {Λ : Type} (ledger : DecisionLedger Λ) : Prop where
  append : ∀ decision s, ∃ s', ledger.append decision s = .ok () s'
  appendCandidate : ∀ (record : SignalCandidate) (decision : Decision) s,
    decision.candidateId = some record.candidateId → decision.cycleId = record.cycleId →
    ∃ s', ledger.appendCandidate record decision s = .ok () s'

section Stages

variable {host : Host} {Λ : Type} {self : StagedDecisionPipeline Λ} {cycleId : String} {t : Instant}

/-- The program has a script, of the decisions that it emits. -/
abbrev Staged {α : Type} (self : StagedDecisionPipeline Λ) (x : EStateM PyError (Cycle Λ) α) : Prop :=
  Scripted Cycle.emitted (Calm self.ledger) x

/-! ### Emitting -/

/-- What `Decision.create` makes. -/
theorem of_create {market : Market} {symbol reason detail : String} {timeframe : Option String}
    {stage : DecisionStage} {status : DecisionStatus} {occurredAt : DateTime} {candidateId strategyKey : Option String}
    {metrics : List (String × ℚ)} {decision : Decision}
    (h : Decision.create host cycleId market symbol timeframe stage status reason occurredAt candidateId strategyKey
      detail metrics = .ok decision) :
    decision.cycleId = cycleId ∧ decision.market = market ∧ decision.symbol = symbol ∧
      decision.timeframe = timeframe ∧ decision.stage = stage ∧ decision.status = status ∧
      decision.reasonCode = reason ∧ decision.candidateId = candidateId := by
  unfold Decision.create at h
  split_ifs at h
  cases occurredAt with
  | naive w => cases h
  | aware t =>
    cases h
    exact ⟨rfl, rfl, rfl, rfl, rfl, rfl, rfl, rfl⟩

/-- A decision of another stage, status and reason about the same. -/
theorem create_other {market : Market} {symbol reason reason' detail : String} {timeframe : Option String}
    {stage stage' : DecisionStage} {status status' : DecisionStatus} {occurredAt : DateTime}
    {candidateId strategyKey : Option String} {metrics : List (String × ℚ)} {decision : Decision}
    (h : Decision.create host cycleId market symbol timeframe stage status reason occurredAt candidateId strategyKey
      detail metrics = .ok decision) (hreason : reason' ≠ "") :
    ∃ decision', Decision.create host cycleId market symbol timeframe stage' status' reason' occurredAt candidateId
      strategyKey detail metrics = .ok decision' := by
  unfold Decision.create at h ⊢
  split_ifs at h with hblank hmetrics
  rw [not_or, not_or] at hblank
  rw [if_neg (by simp [hblank, hreason]), if_neg (not_not.mpr hmetrics)]
  cases occurredAt with
  | naive w => cases h
  | aware t => exact ⟨_, rfl⟩

/-- Writing a decision to the ledger, and emitting it. -/
theorem follows_write {write : EStateM PyError Λ Unit} {calm : Prop} (decision : Decision)
    (hcalm : calm → ∀ s, ∃ s', write s = .ok () s') :
    Follows Cycle.emitted calm
      (do onLedger write; modify fun c => { c with emitted := c.emitted ++ [decision] } : EStateM PyError (Cycle Λ) Unit)
      (.ok ((), [decision])) := by
  intro c
  rw [bind_apply]
  cases hwrite : onLedger write c with
  | ok _ c' =>
    obtain ⟨ledger, -, rfl⟩ := focus_eq_ok.mp hwrite
    exact ⟨[decision], rfl, rfl⟩
  | error e c' =>
    intro h
    obtain ⟨ledger, hledger⟩ := hcalm h c.ledger
    rw [onLedger, focus_of_ok hledger] at hwrite
    cases hwrite

theorem follows_publish (decision : Decision) :
    Follows Cycle.emitted (Calm self.ledger) (publish self decision) (.ok ((), [decision])) :=
  follows_write decision fun hcalm => hcalm.append decision

theorem staged_publish (decision : Decision) : Staged self (publish self decision) := (follows_publish decision).scripted

/-- The decision that `_emit_candidate` emits. -/
def candidateDecision (host : Host) (cycleId : String) (t : Instant) (item : ScoredCandidate) (stage : DecisionStage)
    (status : DecisionStatus) (reason : String) (extraMetrics : List (String × ℚ)) : Except PyError Decision :=
  Decision.create host cycleId item.candidate.identity.market item.candidate.symbol
    (some item.candidate.identity.timeframe) stage status reason (.aware t) (some item.candidate.candidateId)
    (some (item.candidate.identity.key host)) "" (item.score.metrics ++ extraMetrics)

theorem follows_emitCandidate {item : ScoredCandidate} {stage : DecisionStage} {status : DecisionStatus}
    {reason : String} {extraMetrics : List (String × ℚ)} :
    Follows Cycle.emitted (Calm self.ledger) (emitCandidate host self cycleId t item stage status reason extraMetrics)
      ((candidateDecision host cycleId t item stage status reason extraMetrics).map fun d => ((), [d])) := by
  show Follows _ _
    (Effect.ofExcept (candidateDecision host cycleId t item stage status reason extraMetrics) >>= publish self) _
  cases candidateDecision host cycleId t item stage status reason extraMetrics with
  | error e => exact follows_throw e
  | ok decision => exact follows_publish decision

/-- Emitting a decision about a candidate, and returning. -/
theorem follows_emitCandidate_return {α : Type} {item : ScoredCandidate} {stage : DecisionStage}
    {status : DecisionStatus} {reason : String} {extraMetrics : List (String × ℚ)} (a : α) :
    Follows Cycle.emitted (Calm self.ledger)
      (do emitCandidate host self cycleId t item stage status reason extraMetrics; return a)
      ((candidateDecision host cycleId t item stage status reason extraMetrics).map fun d => (a, [d])) := by
  have h : Follows Cycle.emitted (Calm self.ledger)
      (do emitCandidate host self cycleId t item stage status reason extraMetrics; return a) _ :=
    follows_emitCandidate.bind fun _ => follows_pure a
  cases hdecision : candidateDecision host cycleId t item stage status reason extraMetrics with
  | error e =>
    rw [hdecision] at h
    exact h
  | ok decision =>
    rw [hdecision] at h
    exact h

theorem staged_emit {context : StrategyContext} {stage : DecisionStage} {status : DecisionStatus} {reason : String}
    {strategyKey : Option String} : Staged self (emit host self cycleId t context stage status reason strategyKey) :=
  (scripted_ofExcept _).bind staged_publish

theorem staged_emitCandidate {item : ScoredCandidate} {stage : DecisionStage} {status : DecisionStatus}
    {reason : String} {extraMetrics : List (String × ℚ)} :
    Staged self (emitCandidate host self cycleId t item stage status reason extraMetrics) :=
  follows_emitCandidate.scripted

theorem staged_emitCandidate_return {α : Type} {item : ScoredCandidate} {stage : DecisionStage}
    {status : DecisionStatus} {reason : String} {extraMetrics : List (String × ℚ)} (a : α) :
    Staged self (do emitCandidate host self cycleId t item stage status reason extraMetrics; return a) :=
  (follows_emitCandidate_return a).scripted

/-! ### Generation -/

theorem eq_of_checked {record record' : SignalCandidate} (h : record.checked = .ok record') : record' = record := by
  unfold SignalCandidate.checked at h
  split_ifs at h
  cases h
  rfl

theorem staged_propose (context : StrategyContext) (definition : StrategyDefinition) (approval : StrategyApproval)
    (signal : StrategySignal) : Staged self (propose host self cycleId t context definition approval signal) := by
  unfold propose
  dsimp only
  cases hrecord : (candidateRecord host cycleId
      (DeterministicCandidate.create host definition approval.approvalId context signal)).checked with
  | error e => exact ⟨_, follows_throw e⟩
  | ok record =>
    cases hdecision : signalDecision host cycleId t context definition
        (DeterministicCandidate.create host definition approval.approvalId context signal) with
    | error e => exact ⟨_, follows_throw e⟩
    | ok decision =>
      obtain ⟨hcycle, -, -, -, -, -, -, hid⟩ := of_create (by simpa only [signalDecision] using hdecision)
      obtain rfl := eq_of_checked hrecord
      simp only [ofExcept_ok, pure_bind]
      rw [← bind_assoc]
      exact (follows_write decision fun hcalm s => hcalm.appendCandidate _ decision s hid hcycle).scripted.bind
        fun _ => scripted_pure _

theorem staged_generateFrom (context : StrategyContext) (definition : StrategyDefinition) :
    Staged self (generateFrom host self cycleId t context definition) := by
  refine (scripted_ofExcept _).bind fun plugin => (scripted_ofExcept _).bind ?_
  rintro ⟨compatible, reason⟩
  dsimp only
  split_ifs
  · exact staged_emit.bind fun _ => scripted_pure none
  · refine (scripted_ofExcept _).bind fun approval => staged_emit.bind fun _ => (scripted_ofExcept _).bind ?_
    intro signal
    cases signal with
    | none => exact staged_emit.bind fun _ => scripted_pure none
    | some signal => exact (staged_propose context definition approval signal).bind fun candidate => scripted_pure _

theorem staged_generateOne (context : StrategyContext) : Staged self (generateOne host self cycleId t context) := by
  unfold generateOne
  split
  · exact staged_emit.bind fun _ => scripted_pure []
  · refine staged_emit.bind fun _ => ?_
    split_ifs
    · exact staged_emit.bind fun _ => scripted_pure []
    · refine staged_emit.bind fun _ => ?_
      split
      · exact staged_emit.bind fun _ => scripted_pure []
      · exact Scripted.collect (staged_generateFrom context) _

/-! ### Scoring and the later stages -/

theorem staged_scoreOne (candidate : DeterministicCandidate) : Staged self (scoreOne host self cycleId t candidate) := by
  unfold scoreOne
  dsimp only
  split_ifs
  · exact staged_emitCandidate_return _
  · exact staged_emitCandidate_return _

theorem staged_resolveGroup (group : List ScoredCandidate) : Staged self (resolveGroup host self cycleId t group) := by
  unfold resolveGroup
  split_ifs
  · exact (Scripted.each (fun _ => staged_emitCandidate) _).bind fun _ => scripted_pure none
  · cases group with
    | nil => exact scripted_throw _
    | cons best rest =>
      exact staged_emitCandidate.bind fun _ =>
        (Scripted.each (fun _ => staged_emitCandidate) _).bind fun _ => scripted_pure _

theorem staged_reviewOne (reviewer : CandidateReviewer) (item : ScoredCandidate) :
    Staged self (reviewOne host self cycleId t reviewer item) := by
  unfold reviewOne
  dsimp only
  split_ifs
  · exact staged_emitCandidate_return none
  · exact staged_emitCandidate_return (some item)

theorem staged_review (candidates : List ScoredCandidate) : Staged self (review host self cycleId t candidates) := by
  unfold review
  split_ifs
  · exact (Scripted.each (fun _ => staged_emitCandidate) _).bind fun _ => scripted_pure candidates
  · exact Scripted.collect (staged_reviewOne _) _

theorem staged_allocateOne (existingSymbols : List (Market × String)) (correlations : Dict (String × String) ℚ)
    (chosen : Allocating) (item : ScoredCandidate) :
    Staged self (allocateOne host self cycleId t existingSymbols correlations chosen item) := by
  unfold allocateOne
  dsimp only
  split_ifs
  all_goals exact staged_emitCandidate_return _

theorem staged_revalidateOne (quotes : Dict (Market × String) ℚ) (allocation : PortfolioAllocation) :
    Staged self (revalidateOne host self cycleId t quotes allocation) := by
  unfold revalidateOne
  dsimp only
  split
  · exact staged_emitCandidate_return none
  · split_ifs
    all_goals exact staged_emitCandidate_return _

theorem staged_allocate (candidates : List ScoredCandidate) (existingSymbols : List (Market × String))
    (correlations : Dict (String × String) ℚ) :
    Staged self (allocate host self cycleId t candidates existingSymbols correlations) :=
  (Scripted.foldlM (staged_allocateOne existingSymbols correlations) candidates _).map _

theorem staged_revalidate (allocations : List PortfolioAllocation) (quotes : Dict (Market × String) ℚ) :
    Staged self (revalidate host self cycleId t allocations quotes) := Scripted.collect (staged_revalidateOne quotes) _

/-! ### All stages -/

variable {contexts : List StrategyContext} {liveQuotes : Dict (Market × String) ℚ}
  {existingSymbols : List (Market × String)} {correlations : Dict (String × String) ℚ}

/-- The stages after scoring. -/
def afterScoring (host : Host) (self : StagedDecisionPipeline Λ) (cycleId : String) (t : Instant)
    (liveQuotes : Dict (Market × String) ℚ) (existingSymbols : List (Market × String))
    (correlations : Dict (String × String) ℚ) (scored : List ScoredCandidate) :
    EStateM PyError (Cycle Λ) (List PortfolioAllocation) := do
  let resolved ← resolveConflicts host self cycleId t scored
  let reviewed ← review host self cycleId t resolved
  let allocations ← allocate host self cycleId t reviewed existingSymbols correlations
  revalidate host self cycleId t allocations liveQuotes

theorem staged_afterScoring (scored : List ScoredCandidate) :
    Staged self (afterScoring host self cycleId t liveQuotes existingSymbols correlations scored) :=
  (Scripted.collect staged_resolveGroup _).map _ |>.bind fun resolved => (staged_review resolved).bind fun reviewed =>
    (staged_allocate reviewed existingSymbols correlations).bind fun allocations =>
      staged_revalidate allocations liveQuotes

theorem afterScoring_eq_ok {scored : List ScoredCandidate} {valid : List PortfolioAllocation} {c c' : Cycle Λ} :
    afterScoring host self cycleId t liveQuotes existingSymbols correlations scored c = .ok valid c' ↔
      ∃ resolved c₁ reviewed c₂ allocations c₃,
        resolveConflicts host self cycleId t scored c = .ok resolved c₁ ∧
        review host self cycleId t resolved c₁ = .ok reviewed c₂ ∧
        allocate host self cycleId t reviewed existingSymbols correlations c₂ = .ok allocations c₃ ∧
        revalidate host self cycleId t allocations liveQuotes c₃ = .ok valid c' := by
  constructor
  · intro h
    obtain ⟨resolved, c₁, hresolve, h⟩ := bind_eq_ok.mp h
    obtain ⟨reviewed, c₂, hreview, h⟩ := bind_eq_ok.mp h
    obtain ⟨allocations, c₃, hallocate, h⟩ := bind_eq_ok.mp h
    exact ⟨resolved, c₁, reviewed, c₂, allocations, c₃, hresolve, hreview, hallocate, h⟩
  · rintro ⟨resolved, c₁, reviewed, c₂, allocations, c₃, hresolve, hreview, hallocate, hrevalidate⟩
    unfold afterScoring
    rw [bind_of_ok hresolve, bind_of_ok hreview, bind_of_ok hallocate]
    exact hrevalidate

/-- **A run of all stages**, taken apart. -/
theorem stages_eq_ok {c c' : Cycle Λ} {result : PipelineResult} :
    stages host self cycleId t contexts liveQuotes existingSymbols correlations c = .ok result c' ↔
      ∃ candidates c₁ scored c₂ valid,
        generate host self cycleId t contexts c = .ok candidates c₁ ∧
        score host self cycleId t candidates c₁ = .ok scored c₂ ∧
        afterScoring host self cycleId t liveQuotes existingSymbols correlations scored c₂ = .ok valid c' ∧
        result = ⟨cycleId, .normal, candidates, scored, valid, c'.emitted⟩ := by
  constructor
  · intro h
    obtain ⟨candidates, c₁, hgenerate, h⟩ := bind_eq_ok.mp h
    obtain ⟨scored, c₂, hscore, h⟩ := bind_eq_ok.mp h
    obtain ⟨resolved, c₃, hresolve, h⟩ := bind_eq_ok.mp h
    obtain ⟨reviewed, c₄, hreview, h⟩ := bind_eq_ok.mp h
    obtain ⟨allocations, c₅, hallocate, h⟩ := bind_eq_ok.mp h
    obtain ⟨valid, c₆, hrevalidate, h⟩ := bind_eq_ok.mp h
    cases h
    exact ⟨candidates, c₁, scored, c₂, valid, hgenerate, hscore, afterScoring_eq_ok.mpr
      ⟨resolved, c₃, reviewed, c₄, allocations, c₅, hresolve, hreview, hallocate, hrevalidate⟩, rfl⟩
  · rintro ⟨candidates, c₁, scored, c₂, valid, hgenerate, hscore, hafter, rfl⟩
    obtain ⟨resolved, c₃, reviewed, c₄, allocations, c₅, hresolve, hreview, hallocate, hrevalidate⟩ :=
      afterScoring_eq_ok.mp hafter
    unfold stages
    rw [bind_of_ok hgenerate, bind_of_ok hscore, bind_of_ok hresolve, bind_of_ok hreview, bind_of_ok hallocate,
      bind_of_ok hrevalidate]
    rfl

/-- **A run**, taken apart: the positions are managed, and then entries are made or not. -/
theorem run_eq_ok {preconditions : CyclePreconditions} {instant : Instant} {ledger ledger' : Λ}
    {result : PipelineResult} :
    run host self contexts preconditions (.aware instant) liveQuotes existingSymbols correlations ledger =
        .ok result ledger' ↔
      ∃ c c', managePositions self (decisionCycleId host contexts) instant ⟨ledger, []⟩ = .ok () c ∧
        (if preconditions.mode = .exitsOnly then
            exitsOnly host self (decisionCycleId host contexts) instant contexts preconditions c = .ok result c'
          else stages host self (decisionCycleId host contexts) instant contexts liveQuotes existingSymbols correlations
            c = .ok result c') ∧ c'.ledger = ledger' := by
  unfold run
  simp only [utc, project_eq_ok, cycle, bind_eq_ok]
  constructor
  · rintro ⟨c', ⟨_, c, hmanage, h⟩, hledger⟩
    refine ⟨c, c', hmanage, ?_, hledger⟩
    split_ifs at h ⊢ with hmode
    · exact h
    · exact h
  · rintro ⟨c, c', hmanage, h, hledger⟩
    refine ⟨c', ⟨(), c, hmanage, ?_⟩, hledger⟩
    split_ifs at h ⊢ with hmode
    · exact h
    · exact h

end Stages

end NanoDelta.Orchestration
