import NanoDelta.Orchestration.DecisionPipeline

/-!
# What a run depends on

The stages of the decision pipeline write to the ledger and read nothing from it: whenever a run
returns, its candidates, scores and allocations are the same, whatever the ledger holds. Moreover the
candidates are those of the contexts, whatever the quotes, the open positions and the correlations
are.

* `run_steady`: a run over any two states of the ledger.
* `candidates_eq`: the candidates of any two runs over the same contexts.
-/

namespace NanoDelta.Orchestration

open Library Strategies Decisions

section Stages

variable {host : Host} {Λ : Type} {self : StagedDecisionPipeline Λ} {cycleId : String} {t : Instant}

theorem generateFrom_steady (context : StrategyContext) (definition : StrategyDefinition) :
    Effect.Steady id (generateFrom host self cycleId t context definition) := by
  refine (Effect.steady_ofExcept _).bind fun plugin => (Effect.steady_ofExcept _).bind ?_
  rintro ⟨compatible, reason⟩
  dsimp only
  split_ifs
  · exact (Effect.steady_unit _).bind fun _ => Effect.steady_pure none
  · refine (Effect.steady_ofExcept _).bind fun approval => (Effect.steady_unit _).bind fun _ =>
      (Effect.steady_ofExcept _).bind ?_
    intro signal
    cases signal with
    | none => exact (Effect.steady_unit _).bind fun _ => Effect.steady_pure none
    | some signal =>
      refine Effect.Steady.bind ?_ fun candidate => Effect.steady_pure (some candidate)
      refine (Effect.steady_ofExcept _).bind fun record => (Effect.steady_ofExcept _).bind fun decision => ?_
      exact (Effect.steady_unit _).bind fun _ => (Effect.steady_unit _).bind fun _ => Effect.steady_pure _

theorem generateOne_steady (context : StrategyContext) : Effect.Steady id (generateOne host self cycleId t context) := by
  unfold generateOne
  split
  · exact (Effect.steady_unit _).bind fun _ => Effect.steady_pure []
  · refine (Effect.steady_unit _).bind fun _ => ?_
    split_ifs
    · exact (Effect.steady_unit _).bind fun _ => Effect.steady_pure []
    · refine (Effect.steady_unit _).bind fun _ => ?_
      split
      · exact (Effect.steady_unit _).bind fun _ => Effect.steady_pure []
      · exact Effect.Steady.collect (generateFrom_steady context) _

theorem generate_steady (contexts : List StrategyContext) :
    Effect.Steady id (generate host self cycleId t contexts) :=
  (Effect.Steady.each generateOne_steady contexts).map

theorem scoreOne_steady (candidate : DeterministicCandidate) :
    Effect.Steady id (scoreOne host self cycleId t candidate) := by
  unfold scoreOne
  dsimp only
  split_ifs
  · exact (Effect.steady_unit _).bind fun _ => Effect.steady_pure _
  · exact (Effect.steady_unit _).bind fun _ => Effect.steady_pure _

theorem emitEach_steady {α : Type} (f : α → EStateM PyError (Cycle Λ) Unit) (as : List α) :
    Effect.Steady id (Effect.each f as) := Effect.Steady.each (fun a => Effect.steady_unit (f a)) as

theorem resolveGroup_steady (group : List ScoredCandidate) :
    Effect.Steady id (resolveGroup host self cycleId t group) := by
  unfold resolveGroup
  split_ifs
  · exact (emitEach_steady _ _).bind fun _ => Effect.steady_pure none
  · cases group with
    | nil => exact Effect.steady_throw _
    | cons best rest =>
      exact (Effect.steady_unit _).bind fun _ => (emitEach_steady _ _).bind fun _ => Effect.steady_pure (some best)

theorem reviewOne_steady (reviewer : CandidateReviewer) (item : ScoredCandidate) :
    Effect.Steady id (reviewOne host self cycleId t reviewer item) := by
  unfold reviewOne
  dsimp only
  split_ifs
  · exact (Effect.steady_unit _).bind fun _ => Effect.steady_pure none
  · exact (Effect.steady_unit _).bind fun _ => Effect.steady_pure (some item)

theorem review_steady (candidates : List ScoredCandidate) :
    Effect.Steady id (review host self cycleId t candidates) := by
  unfold review
  split_ifs
  · exact (emitEach_steady _ _).bind fun _ => Effect.steady_pure candidates
  · exact Effect.Steady.collect (reviewOne_steady _) _

theorem allocateOne_steady (existingSymbols : List (Market × String)) (correlations : Dict (String × String) ℚ)
    (chosen : Allocating) (item : ScoredCandidate) :
    Effect.Steady id (allocateOne host self cycleId t existingSymbols correlations chosen item) := by
  unfold allocateOne
  dsimp only
  split_ifs
  all_goals exact (Effect.steady_unit _).bind fun _ => Effect.steady_pure _

theorem revalidateOne_steady (quotes : Dict (Market × String) ℚ) (allocation : PortfolioAllocation) :
    Effect.Steady id (revalidateOne host self cycleId t quotes allocation) := by
  unfold revalidateOne
  dsimp only
  split
  · exact (Effect.steady_unit _).bind fun _ => Effect.steady_pure none
  · split_ifs
    all_goals exact (Effect.steady_unit _).bind fun _ => Effect.steady_pure _

theorem stages_steady (contexts : List StrategyContext) (liveQuotes : Dict (Market × String) ℚ)
    (existingSymbols : List (Market × String)) (correlations : Dict (String × String) ℚ) :
    Effect.Steady (fun r : PipelineResult => (r.candidates, r.scored, r.allocations))
      (stages host self cycleId t contexts liveQuotes existingSymbols correlations) := by
  refine (generate_steady contexts).bind fun candidates => ?_
  refine (Effect.Steady.collect scoreOne_steady candidates).map.bind fun scored => ?_
  refine (Effect.Steady.collect resolveGroup_steady _).map.bind fun resolved => ?_
  refine (review_steady resolved).bind fun reviewed => ?_
  refine (Effect.Steady.foldlM (allocateOne_steady existingSymbols correlations) reviewed _).map.bind
    fun allocations => ?_
  refine (Effect.Steady.collect (revalidateOne_steady liveQuotes) allocations).bind fun valid => ?_
  intro s u a b s' u' ha hb
  cases ha
  cases hb
  rfl

theorem exitsOnly_steady (contexts : List StrategyContext) (preconditions : CyclePreconditions) :
    Effect.Steady (fun r : PipelineResult => (r.candidates, r.scored, r.allocations))
      (exitsOnly host self cycleId t contexts preconditions) := by
  refine (emitEach_steady _ contexts).bind fun _ => ?_
  intro s u a b s' u' ha hb
  cases ha
  cases hb
  rfl

theorem cycle_steady (contexts : List StrategyContext) (preconditions : CyclePreconditions)
    (liveQuotes : Dict (Market × String) ℚ) (existingSymbols : List (Market × String))
    (correlations : Dict (String × String) ℚ) :
    Effect.Steady (fun r : PipelineResult => (r.candidates, r.scored, r.allocations))
      (cycle host self cycleId t contexts preconditions liveQuotes existingSymbols correlations) := by
  refine (Effect.steady_unit _).bind fun _ => ?_
  split_ifs
  · exact exitsOnly_steady contexts preconditions
  · exact stages_steady contexts liveQuotes existingSymbols correlations

/-- The candidates of a cycle are those that are generated from the contexts, if it admits entries. -/
theorem candidates_of_cycle {contexts : List StrategyContext} {preconditions : CyclePreconditions}
    {liveQuotes : Dict (Market × String) ℚ} {existingSymbols : List (Market × String)}
    {correlations : Dict (String × String) ℚ} {c c' : Cycle Λ} {r : PipelineResult}
    (h : cycle host self cycleId t contexts preconditions liveQuotes existingSymbols correlations c = .ok r c') :
    (preconditions.mode = .exitsOnly ∧ r.candidates = []) ∨
      preconditions.mode ≠ .exitsOnly ∧ ∃ d d', generate host self cycleId t contexts d = .ok r.candidates d' := by
  obtain ⟨_, c₁, -, h⟩ := Effect.bind_eq_ok.mp h
  by_cases hmode : preconditions.mode = .exitsOnly
  · rw [if_pos hmode] at h
    obtain ⟨_, c₂, -, h⟩ := Effect.bind_eq_ok.mp h
    cases h
    exact Or.inl ⟨hmode, rfl⟩
  · rw [if_neg hmode] at h
    obtain ⟨candidates, c₂, hgenerate, h⟩ := Effect.bind_eq_ok.mp h
    obtain ⟨scored, c₃, -, h⟩ := Effect.bind_eq_ok.mp h
    obtain ⟨resolved, c₄, -, h⟩ := Effect.bind_eq_ok.mp h
    obtain ⟨reviewed, c₅, -, h⟩ := Effect.bind_eq_ok.mp h
    obtain ⟨allocations, c₆, -, h⟩ := Effect.bind_eq_ok.mp h
    obtain ⟨valid, c₇, -, h⟩ := Effect.bind_eq_ok.mp h
    cases h
    exact Or.inr ⟨hmode, c₁, c₂, hgenerate⟩

end Stages

section Run

variable {host : Host} {Λ : Type} {self : StagedDecisionPipeline Λ} {contexts : List StrategyContext}
  {preconditions : CyclePreconditions} {evaluatedAt : DateTime}

/-- What a run returns does not depend on the state of the ledger. -/
theorem run_steady (liveQuotes : Dict (Market × String) ℚ) (existingSymbols : List (Market × String))
    (correlations : Dict (String × String) ℚ) :
    Effect.Steady (fun r : PipelineResult => (r.candidates, r.scored, r.allocations))
      (run host self contexts preconditions evaluatedAt liveQuotes existingSymbols correlations) := by
  intro s u a b s' u' ha hb
  unfold run at ha hb
  cases ht : utc evaluatedAt "evaluated_at" with
  | error e =>
    rw [ht] at ha
    cases ha
  | ok t =>
    rw [ht] at ha hb
    obtain ⟨c, hc, -⟩ := Effect.project_eq_ok.mp ha
    obtain ⟨d, hd, -⟩ := Effect.project_eq_ok.mp hb
    exact cycle_steady contexts preconditions liveQuotes existingSymbols correlations _ _ _ _ _ _ hc hd

/-- Two runs over the same contexts have the same candidates, whatever else they are given. -/
theorem candidates_eq {quotes quotes' : Dict (Market × String) ℚ} {existing existing' : List (Market × String)}
    {correlations correlations' : Dict (String × String) ℚ} {s u s' u' : Λ} {a b : PipelineResult}
    (ha : run host self contexts preconditions evaluatedAt quotes existing correlations s = .ok a s')
    (hb : run host self contexts preconditions evaluatedAt quotes' existing' correlations' u = .ok b u') :
    a.candidates = b.candidates := by
  unfold run at ha hb
  cases ht : utc evaluatedAt "evaluated_at" with
  | error e =>
    rw [ht] at ha
    cases ha
  | ok t =>
    rw [ht] at ha hb
    obtain ⟨c, hc, -⟩ := Effect.project_eq_ok.mp ha
    obtain ⟨d, hd, -⟩ := Effect.project_eq_ok.mp hb
    rcases candidates_of_cycle hc with ⟨hmode, hnil⟩ | ⟨hmode, c₁, c₂, hgenerate⟩
    · rcases candidates_of_cycle hd with ⟨-, hnil'⟩ | ⟨hmode', -⟩
      · rw [hnil, hnil']
      · exact absurd hmode hmode'
    · rcases candidates_of_cycle hd with ⟨hmode', -⟩ | ⟨-, d₁, d₂, hgenerate'⟩
      · exact absurd hmode' hmode
      · exact generate_steady contexts _ _ _ _ _ _ hgenerate hgenerate'

end Run

end NanoDelta.Orchestration
