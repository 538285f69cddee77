import NanoDelta.Library.Sieve
import NanoDelta.Orchestration.Permuted

/-!
# The trail of a candidate

Every stage of the pipeline decides once about every candidate that reaches it. So the decisions of a run about one
candidate are a trail from its signal to the stage that rejected it, or to its allocation.

* `sieving_generate`, `sieving_score`, …, `sieving_revalidate`: the stages.
* `every_candidate_has_one_trail`: a run of all stages.
-/

namespace NanoDelta.Orchestration

open Library Library.Effect Strategies Decisions

/-- Decisions as verdicts on candidates. -/
def verdicts : Verdicts String DecisionStage Decision where
  about := Decision.candidateId
  stage := Decision.stage
  rejects d := d.status = .rejected

/-- The id of the candidate of an item. -/
def ScoredCandidate.id (item : ScoredCandidate) : String := item.candidate.candidateId

section Stages

variable {host : Host} {Λ : Type} {self : StagedDecisionPipeline Λ} {cycleId : String} {t : Instant}

/-- What a step of a stage decides. -/
abbrev Decides {α : Type} (stage : DecisionStage) (inputs outputs : α → List String)
    (x : EStateM PyError (Cycle Λ) α) : Prop := Sieving Cycle.emitted verdicts stage inputs outputs x

/-! ### Emitting -/

/-- What `_emit` appends is about no candidate. -/
theorem decides_emit {st stage : DecisionStage} {context : StrategyContext} {status : DecisionStatus} {reason : String}
    {strategyKey : Option String} :
    Decides st (fun _ => []) (fun _ => []) (emit host self cycleId t context stage status reason strategyKey) := by
  intro c _ c' h
  obtain ⟨decision, c₁, hdecision, hpublish⟩ := bind_eq_ok.mp h
  obtain ⟨hcreate, rfl⟩ := ofExcept_eq_ok.mp hdecision
  obtain ⟨-, -, -, -, -, -, -, hid⟩ := of_create hcreate
  obtain ⟨ds, hds, hlog⟩ := (follows_publish decision).of_ok hpublish
  cases hds
  exact ⟨[decision], hlog, .aside hid⟩

/-- What `_emit_candidate` appends is about its candidate. -/
theorem decides_emitCandidate {item : ScoredCandidate} {stage : DecisionStage} {status : DecisionStatus}
    {reason : String} {extraMetrics : List (String × ℚ)} :
    Decides stage (fun _ => [item.id]) (fun _ => if status = .rejected then [] else [item.id])
      (emitCandidate host self cycleId t item stage status reason extraMetrics) := by
  intro c _ c' h
  obtain ⟨ds, hds, hlog⟩ := follows_emitCandidate.of_ok h
  obtain ⟨d, hd, hds⟩ := except_map_eq_ok.mp hds
  cases hds
  obtain ⟨-, -, -, -, rfl, rfl, -, hid⟩ := of_create hd
  have hsingle : Sieved verdicts (verdicts.stage d) [item.id] (if verdicts.rejects d then [] else [item.id]) [d] :=
    .single hid
  refine ⟨[d], hlog, ?_⟩
  simpa [verdicts] using hsingle

/-- Emitting, and returning what is kept. -/
theorem decides_emitCandidate_return {α : Type} {item : ScoredCandidate} {stage : DecisionStage}
    {status : DecisionStatus} {reason : String} {extraMetrics : List (String × ℚ)} {outputs : α → List String} (a : α)
    (houtputs : outputs a = if status = .rejected then [] else [item.id]) :
    Decides stage (fun _ => [item.id]) outputs
      (do emitCandidate host self cycleId t item stage status reason extraMetrics; return a) :=
  decides_emitCandidate.returning (fun _ => rfl) fun _ => houtputs

/-! ### Generation -/

/-- A candidate is proposed with the decision that a signal was generated. -/
theorem decides_propose (context : StrategyContext) (definition : StrategyDefinition) (approval : StrategyApproval)
    (signal : StrategySignal) :
    Decides .signal (fun candidate => [candidate.candidateId]) (fun candidate => [candidate.candidateId])
      (propose host self cycleId t context definition approval signal) := by
  intro c candidate c' h
  unfold propose at h
  obtain ⟨record, c₁, hrecord, h₁⟩ := bind_eq_ok.mp h
  obtain ⟨decision, c₂, hdecision, h₂⟩ := bind_eq_ok.mp h₁
  obtain ⟨_, c₃, hwrite, h₃⟩ := bind_eq_ok.mp h₂
  obtain ⟨-, rfl⟩ := ofExcept_eq_ok.mp hrecord
  obtain ⟨hcreate, rfl⟩ := ofExcept_eq_ok.mp hdecision
  obtain ⟨ledger, -, rfl⟩ := focus_eq_ok.mp hwrite
  cases h₃
  obtain ⟨-, -, -, -, hstage, hstatus, -, hid⟩ := of_create (by simpa only [signalDecision] using hcreate)
  refine ⟨[decision], rfl, ?_⟩
  have hsingle : Sieved verdicts (verdicts.stage decision) [_] (if verdicts.rejects decision then [] else [_])
      [decision] := .single hid
  simpa [verdicts, hstage, hstatus] using hsingle

theorem decides_generateFrom (context : StrategyContext) (definition : StrategyDefinition) :
    Decides .signal (fun made => made.toList.flatMap fun candidate => [candidate.candidateId])
      (fun made => made.toList.flatMap fun candidate => [candidate.candidateId])
      (generateFrom host self cycleId t context definition) := by
  refine sieving_ofExcept fun plugin => sieving_ofExcept ?_
  rintro ⟨compatible, reason⟩
  dsimp only
  split_ifs
  · exact decides_emit.after fun _ => sieving_pure rfl rfl
  · refine sieving_ofExcept fun approval => decides_emit.after fun _ => sieving_ofExcept ?_
    intro signal
    cases signal with
    | none => exact decides_emit.after fun _ => sieving_pure rfl rfl
    | some signal => exact (decides_propose context definition approval signal).returning (fun _ => rfl) fun _ => rfl

theorem decides_generateOne (context : StrategyContext) :
    Decides .signal (fun made => made.flatMap fun candidate => [candidate.candidateId])
      (fun made => made.flatMap fun candidate => [candidate.candidateId])
      (generateOne host self cycleId t context) := by
  unfold generateOne
  split
  · exact decides_emit.after fun _ => sieving_pure rfl rfl
  · refine decides_emit.after fun _ => ?_
    split_ifs
    · exact decides_emit.after fun _ => sieving_pure rfl rfl
    · refine decides_emit.after fun _ => ?_
      split
      · exact decides_emit.after fun _ => sieving_pure rfl rfl
      · exact collect_generates (decides_generateFrom context) _

theorem decides_generate (contexts : List StrategyContext) :
    Decides .signal (fun candidates => candidates.map DeterministicCandidate.candidateId)
      (fun candidates => candidates.map DeterministicCandidate.candidateId)
      (generate host self cycleId t contexts) := by
  intro c candidates c' h
  obtain ⟨made, hmade, rfl⟩ := map_eq_ok.mp h
  beta_reduce
  rw [List.map_eq_flatMap, List.flatten_eq_flatMap, List.flatMap_assoc]
  exact each_generates decides_generateOne contexts c made c' hmade

/-- The decision about the data of a context. -/
def AboutData (context : StrategyContext) (d : Decision) : Prop :=
  d.stage = .dataReadiness ∧ d.market = context.market ∧ d.symbol = context.symbol ∧
    d.timeframe = some context.timeframe

/-- The first decision about a context is the one about its data. -/
theorem readiness_generateOne {context : StrategyContext} {c c' : Cycle Λ} {made : List DeterministicCandidate}
    (h : generateOne host self cycleId t context c = .ok made c') :
    ∃ d ds, c'.emitted = c.emitted ++ d :: ds ∧ AboutData context d := by
  have hfirst : ∀ {status : DecisionStatus} {reason : String} {rest : EStateM PyError (Cycle Λ) (List _)},
      Staged self rest → (do
        emit host self cycleId t context .dataReadiness status reason none
        rest) c = .ok made c' →
      ∃ d ds, c'.emitted = c.emitted ++ d :: ds ∧ AboutData context d := by
    intro status reason rest hrest h
    obtain ⟨_, c₁, hemit, h₁⟩ := bind_eq_ok.mp h
    obtain ⟨d, c₂, hdecision, hpublish⟩ := bind_eq_ok.mp hemit
    obtain ⟨hcreate, rfl⟩ := ofExcept_eq_ok.mp hdecision
    obtain ⟨-, hmarket, hsymbol, htimeframe, hstage, -, -, -⟩ := of_create hcreate
    obtain ⟨ds, hds, hlog⟩ := (follows_publish d).of_ok hpublish
    cases hds
    obtain ⟨script, hscript⟩ := hrest
    obtain ⟨ds, -, hlog'⟩ := hscript.of_ok h₁
    refine ⟨d, ds, ?_, hstage, hmarket, hsymbol, htimeframe⟩
    rw [hlog', hlog, List.append_assoc, List.singleton_append]
  unfold generateOne at h
  cases hready : readinessReason context with
  | some reason =>
    simp only [hready] at h
    exact hfirst (scripted_pure []) h
  | none =>
    simp only [hready] at h
    refine hfirst ?_ h
    split_ifs
    · exact staged_emit.bind fun _ => scripted_pure []
    · refine staged_emit.bind fun _ => ?_
      split
      · exact staged_emit.bind fun _ => scripted_pure []
      · exact Scripted.collect (staged_generateFrom context) _

/-- Every context is decided about. -/
theorem readiness_generate {c c' : Cycle Λ} {candidates : List DeterministicCandidate}
    (h : generate host self cycleId t contexts c = .ok candidates c') :
    ∃ ds readiness, c'.emitted = c.emitted ++ ds ∧ readiness.Sublist ds ∧
      List.Forall₂ AboutData contexts readiness := by
  obtain ⟨made, hmade, rfl⟩ := map_eq_ok.mp h
  obtain ⟨rs, -, hlog, hrs⟩ :=
    each_appends (R := fun context _ (ds : List Decision) => ∃ d rest, ds = d :: rest ∧ AboutData context d)
      (fun context c made c' h => by
        obtain ⟨d, ds, hlog, habout⟩ := readiness_generateOne h
        exact ⟨d :: ds, hlog, d, ds, rfl, habout⟩) hmade
  have hreadiness : ∃ readiness : List Decision, readiness.Sublist (rs.map Prod.snd).flatten ∧
      List.Forall₂ AboutData contexts readiness := by
    clear hlog hmade h
    induction hrs with
    | nil => exact ⟨[], .slnil, .nil⟩
    | cons hd _ ih =>
      obtain ⟨d, rest, hds, habout⟩ := hd
      obtain ⟨readiness, hsub, hall⟩ := ih
      refine ⟨d :: readiness, ?_, .cons habout hall⟩
      rw [List.map_cons, List.flatten_cons, hds, List.cons_append]
      exact (hsub.trans (List.sublist_append_right rest _)).cons_cons d
  obtain ⟨readiness, hsub, hall⟩ := hreadiness
  exact ⟨_, readiness, hlog, hsub, hall⟩

/-! ### Scoring and the later stages -/

theorem decides_scoreOne (candidate : DeterministicCandidate) :
    Decides .scoring (fun _ => [candidate.candidateId]) (fun kept => kept.toList.flatMap fun item => [item.id])
      (scoreOne host self cycleId t candidate) := by
  unfold scoreOne
  dsimp only
  split_ifs
  · exact decides_emitCandidate_return _ rfl
  · exact decides_emitCandidate_return _ rfl

theorem decides_score (candidates : List DeterministicCandidate) :
    Decides .scoring (fun _ => candidates.map DeterministicCandidate.candidateId) (fun scored => scored.map (·.id))
      (score host self cycleId t candidates) := by
  intro c scored c' h
  obtain ⟨items, hitems, rfl⟩ := map_eq_ok.mp h
  obtain ⟨ds, hlog, hds⟩ := collect_sieves decides_scoreOne candidates c items c' hitems
  refine ⟨ds, hlog, hds.perm (.of_eq List.map_eq_flatMap.symm) ?_⟩
  beta_reduce
  rw [← List.map_eq_flatMap]
  exact (List.perm_insertionSort _ items).symm.map _

/-- Rejecting the items of a list. -/
theorem decides_rejectEach {stage : DecisionStage} {reason : String} (items : List ScoredCandidate) :
    Decides stage (fun _ => items.map (·.id)) (fun _ => [])
      (each (fun item => emitCandidate host self cycleId t item stage .rejected reason []) items) := by
  intro c units c' h
  have hone : ∀ item, Decides stage (fun _ => [item.id]) (fun _ => [])
      (emitCandidate host self cycleId t item stage .rejected reason []) := fun _ => decides_emitCandidate
  obtain ⟨ds, hlog, hds⟩ := each_sieves hone items c units c' h
  refine ⟨ds, hlog, hds.perm (.of_eq List.map_eq_flatMap.symm) ?_⟩
  simp

theorem decides_resolveGroup (group : List ScoredCandidate) :
    Decides .signalQuality (fun _ => group.map (·.id)) (fun kept => kept.toList.flatMap fun item => [item.id])
      (resolveGroup host self cycleId t group) := by
  unfold resolveGroup
  split_ifs
  · exact (decides_rejectEach group).returning (fun _ => rfl) fun _ => rfl
  · cases group with
    | nil => exact sieving_throw _
    | cons best rest =>
      intro c kept c' h
      obtain ⟨_, c₁, hbest, h₁⟩ := bind_eq_ok.mp h
      obtain ⟨units, c₂, hrest, h₂⟩ := bind_eq_ok.mp h₁
      cases h₂
      obtain ⟨ds, hlog, hds⟩ := decides_emitCandidate c _ c₁ hbest
      obtain ⟨ds', hlog', hds'⟩ := decides_rejectEach rest c₁ units c' hrest
      refine ⟨ds ++ ds', ?_, hds.append hds'⟩
      rw [hlog', hlog, List.append_assoc]

theorem decides_resolveConflicts (scored : List ScoredCandidate) :
    Decides .signalQuality (fun _ => scored.map (·.id)) (fun resolved => resolved.map (·.id))
      (resolveConflicts host self cycleId t scored) := by
  intro c resolved c' h
  obtain ⟨items, hitems, rfl⟩ := map_eq_ok.mp h
  obtain ⟨ds, hlog, hds⟩ := collect_sieves decides_resolveGroup (groups scored).values c items c' hitems
  have hgroups : (groups scored).values.flatten.Perm scored := flatten_groupBy_perm ScoredCandidate.key scored
  refine ⟨ds, hlog, hds.perm ?_ ?_⟩
  · beta_reduce
    rw [List.flatMap_def, ← List.map_flatten]
    exact hgroups.map _
  · beta_reduce
    rw [← List.map_eq_flatMap]
    exact (List.perm_insertionSort _ items).symm.map _

theorem decides_reviewOne (reviewer : CandidateReviewer) (item : ScoredCandidate) :
    Decides .llmReview (fun _ => [item.id]) (fun kept => kept.toList.flatMap fun item => [item.id])
      (reviewOne host self cycleId t reviewer item) := by
  unfold reviewOne
  dsimp only
  split_ifs
  · exact decides_emitCandidate_return none rfl
  · exact decides_emitCandidate_return (some item) rfl

theorem decides_revalidateOne (quotes : Dict (Market × String) ℚ) (allocation : PortfolioAllocation) :
    Decides .entryRevalidation (fun _ => [allocation.candidate.id])
      (fun kept => kept.toList.flatMap fun allocation => [allocation.candidate.id])
      (revalidateOne host self cycleId t quotes allocation) := by
  unfold revalidateOne
  dsimp only
  split
  · exact decides_emitCandidate_return none rfl
  · split_ifs
    · exact decides_emitCandidate_return none rfl
    · exact decides_emitCandidate_return none rfl
    · exact decides_emitCandidate_return none rfl
    · exact decides_emitCandidate_return _ rfl

theorem decides_review (candidates : List ScoredCandidate) :
    Decides .llmReview (fun _ => candidates.map (·.id)) (fun kept => kept.map (·.id))
      (review host self cycleId t candidates) := by
  unfold review
  split_ifs with hmode
  · intro c kept c' h
    obtain ⟨units, c₁, heach, h₁⟩ := bind_eq_ok.mp h
    cases h₁
    have hone : ∀ item, Decides .llmReview (fun _ => [item.id]) (fun _ => [item.id])
        (emitCandidate host self cycleId t item .llmReview .skipped "LLM_OFF" []) := fun _ => decides_emitCandidate
    obtain ⟨ds, hlog, hds⟩ := each_sieves hone candidates c units c' heach
    exact ⟨ds, hlog, hds.perm (.of_eq List.map_eq_flatMap.symm) (.of_eq List.map_eq_flatMap.symm)⟩
  · intro c kept c' h
    obtain ⟨ds, hlog, hds⟩ := collect_sieves (decides_reviewOne _) candidates c kept c' h
    exact ⟨ds, hlog, hds.perm (.of_eq List.map_eq_flatMap.symm) (.of_eq List.map_eq_flatMap.symm)⟩

/-- The loop of the allocation adds the candidates that it selects. -/
theorem decides_allocateOne {existingSymbols : List (Market × String)} {correlations : Dict (String × String) ℚ}
    {chosen chosen' : Allocating} {item : ScoredCandidate} {c c' : Cycle Λ}
    (h : allocateOne host self cycleId t existingSymbols correlations chosen item c = .ok chosen' c') :
    ∃ ds new, c'.emitted = c.emitted ++ ds ∧ chosen'.allocations.map (fun a => a.candidate.id) =
      chosen.allocations.map (fun a => a.candidate.id) ++ new ∧
      Sieved verdicts .portfolioConstruction [item.id] new ds := by
  have hemit : ∀ {status : DecisionStatus} {reason : String} {extraMetrics : List (String × ℚ)} {chosen₁ : Allocating},
      (do
        emitCandidate host self cycleId t item .portfolioConstruction status reason extraMetrics
        return chosen₁ : EStateM PyError (Cycle Λ) Allocating) c = .ok chosen' c' →
      chosen₁.allocations.map (fun a => a.candidate.id) = chosen.allocations.map (fun a => a.candidate.id) ++
        (if status = .rejected then [] else [item.id]) →
      ∃ ds new, c'.emitted = c.emitted ++ ds ∧ chosen'.allocations.map (fun a => a.candidate.id) =
        chosen.allocations.map (fun a => a.candidate.id) ++ new ∧
        Sieved verdicts .portfolioConstruction [item.id] new ds := by
    intro status reason extraMetrics chosen₁ h hnew
    obtain ⟨_, c₁, hdecides, h₁⟩ := bind_eq_ok.mp h
    cases h₁
    obtain ⟨ds, hlog, hds⟩ := decides_emitCandidate c _ c' hdecides
    exact ⟨ds, _, hlog, hnew, hds⟩
  have hreject : chosen.allocations.map (fun a => a.candidate.id) =
      chosen.allocations.map (fun a => a.candidate.id) ++ [] := (List.append_nil _).symm
  unfold allocateOne at h
  simp only at h
  split_ifs at h
  · exact hemit h hreject
  · exact hemit h hreject
  · exact hemit h hreject
  · exact hemit h hreject
  · exact hemit h hreject
  · exact hemit h hreject
  · exact hemit h (List.map_append ..)

theorem decides_allocate (candidates : List ScoredCandidate) (existingSymbols : List (Market × String))
    (correlations : Dict (String × String) ℚ) :
    Decides .portfolioConstruction (fun _ => candidates.map (·.id)) (fun kept => kept.map fun a => a.candidate.id)
      (allocate host self cycleId t candidates existingSymbols correlations) := by
  intro c allocations c' h
  obtain ⟨chosen, hchosen, rfl⟩ := map_eq_ok.mp h
  obtain ⟨ds, new, hlog, hnew, hds⟩ : ∃ ds new, c'.emitted = c.emitted ++ ds ∧
      chosen.allocations.map (fun a => a.candidate.id) = [] ++ new ∧
      Sieved verdicts .portfolioConstruction (candidates.flatMap fun item => [item.id]) new ds :=
    foldlM_sieves (fun _ _ _ _ _ h => decides_allocateOne h) candidates hchosen
  refine ⟨ds, hlog, hds.perm (.of_eq List.map_eq_flatMap.symm) (.of_eq ?_)⟩
  simpa using hnew.symm

theorem decides_revalidate (quotes : Dict (Market × String) ℚ) (allocations : List PortfolioAllocation) :
    Decides .entryRevalidation (fun _ => allocations.map fun a => a.candidate.id)
      (fun valid => valid.map fun a => a.candidate.id) (revalidate host self cycleId t allocations quotes) := by
  intro c valid c' h
  obtain ⟨ds, hlog, hds⟩ := collect_sieves (decides_revalidateOne quotes) allocations c valid c' h
  exact ⟨ds, hlog, hds.perm (.of_eq List.map_eq_flatMap.symm) (.of_eq List.map_eq_flatMap.symm)⟩

/-- The entries are revalidated or rejected. -/
theorem revalidate_status {quotes : Dict (Market × String) ℚ} {allocations valid : List PortfolioAllocation}
    {c c' : Cycle Λ} (h : revalidate host self cycleId t allocations quotes c = .ok valid c') :
    ∃ ds, c'.emitted = c.emitted ++ ds ∧ ∀ d ∈ ds, d.status = .passed ∨ d.status = .rejected := by
  have hemit : ∀ {item : ScoredCandidate} {status : DecisionStatus} {reason : String}
      {extraMetrics : List (String × ℚ)} {made made' : Option PortfolioAllocation} {c c' : Cycle Λ},
      (status = .passed ∨ status = .rejected) → (do
        emitCandidate host self cycleId t item .entryRevalidation status reason extraMetrics
        return made : EStateM PyError (Cycle Λ) (Option PortfolioAllocation)) c = .ok made' c' →
      ∃ ds, c'.emitted = c.emitted ++ ds ∧ ∀ d ∈ ds, d.status = .passed ∨ d.status = .rejected := by
    intro item status reason extraMetrics made made' c c' hstatus h
    obtain ⟨ds, hds, hlog⟩ := (follows_emitCandidate_return made).of_ok h
    obtain ⟨d, hd, hds⟩ := except_map_eq_ok.mp hds
    cases hds
    obtain ⟨-, -, -, -, -, hd, -, -⟩ := of_create hd
    refine ⟨[d], hlog, fun e he => ?_⟩
    rw [List.mem_singleton.mp he, hd]
    exact hstatus
  have hone : ∀ allocation c made c', revalidateOne host self cycleId t quotes allocation c = .ok made c' →
      ∃ ds, c'.emitted = c.emitted ++ ds ∧ ∀ d ∈ ds, d.status = .passed ∨ d.status = .rejected := by
    intro allocation c made c' h
    unfold revalidateOne at h
    cases hquote : quotes.get? allocation.candidate.key with
    | none =>
      simp only [hquote] at h
      exact hemit (by decide) h
    | some quote =>
      simp only [hquote] at h
      split_ifs at h
      all_goals exact hemit (by decide) h
  obtain ⟨rs, -, hlog, hrs⟩ :=
    collect_appends (R := fun _ _ (ds : List Decision) => ∀ d ∈ ds, d.status = .passed ∨ d.status = .rejected) hone h
  refine ⟨_, hlog, fun d hd => ?_⟩
  obtain ⟨ds, hds, hd⟩ := List.mem_flatten.mp hd
  obtain ⟨r, hr, rfl⟩ := List.mem_map.mp hds
  obtain ⟨_, -, hstatus⟩ := exists_of_forall₂ hrs hr
  exact hstatus d hd

/-! ### All stages -/

/-- The stages of an entry, in their order. -/
def entryOrder : List DecisionStage :=
  [.signal, .scoring, .signalQuality, .llmReview, .portfolioConstruction, .entryRevalidation]

variable {contexts : List StrategyContext} {liveQuotes : Dict (Market × String) ℚ}
  {existingSymbols : List (Market × String)} {correlations : Dict (String × String) ℚ}

/-- **All stages**: what they decide, from the candidates that are generated to the allocations. -/
theorem sieves_stages {c c' : Cycle Λ} {result : PipelineResult}
    (h : stages host self cycleId t contexts liveQuotes existingSymbols correlations c = .ok result c') :
    ∃ ds, result.decisions = c.emitted ++ ds ∧
      Sieves verdicts entryOrder (result.candidates.map DeterministicCandidate.candidateId)
        (result.allocations.map fun a => a.candidate.id) ds ∧
      (∃ readiness, readiness.Sublist ds ∧ List.Forall₂ AboutData contexts readiness) ∧
      ∀ d ∈ ds, d.candidateId ≠ none → d.stage = .entryRevalidation → d.status = .passed ∨ d.status = .rejected := by
  obtain ⟨candidates, c₁, scored, c₂, valid, hgenerate, hscore, hafter, rfl⟩ := stages_eq_ok.mp h
  obtain ⟨resolved, c₃, reviewed, c₄, allocations, c₅, hresolve, hreview, hallocate, hrevalidate⟩ :=
    afterScoring_eq_ok.mp hafter
  obtain ⟨ds₁, hlog₁, hds₁⟩ := decides_generate contexts c _ _ hgenerate
  obtain ⟨ds₂, hlog₂, hds₂⟩ := decides_score candidates c₁ _ _ hscore
  obtain ⟨ds₃, hlog₃, hds₃⟩ := decides_resolveConflicts scored c₂ _ _ hresolve
  obtain ⟨ds₄, hlog₄, hds₄⟩ := decides_review resolved c₃ _ _ hreview
  obtain ⟨ds₅, hlog₅, hds₅⟩ := decides_allocate reviewed existingSymbols correlations c₄ _ _ hallocate
  obtain ⟨ds₆, hlog₆, hds₆⟩ := decides_revalidate liveQuotes allocations c₅ _ _ hrevalidate
  obtain ⟨ds₆', hlog₆', hstatus⟩ := revalidate_status hrevalidate
  obtain rfl : ds₆ = ds₆' := List.append_cancel_left (hlog₆.symm.trans hlog₆')
  obtain ⟨ds₁', readiness, hlog₁', hsub, hreadiness⟩ := readiness_generate hgenerate
  obtain rfl : ds₁ = ds₁' := List.append_cancel_left (hlog₁.symm.trans hlog₁')
  refine ⟨ds₁ ++ (ds₂ ++ (ds₃ ++ (ds₄ ++ (ds₅ ++ (ds₆ ++ []))))), ?_,
    .cons hds₁ (.cons hds₂ (.cons hds₃ (.cons hds₄ (.cons hds₅ (.cons hds₆ (.nil _)))))),
    ⟨readiness, hsub.trans (List.sublist_append_left ds₁ _), hreadiness⟩, ?_⟩
  · simp only [hlog₆, hlog₅, hlog₄, hlog₃, hlog₂, hlog₁, List.append_assoc, List.append_nil]
  · have hother : ∀ {st : DecisionStage} {ids kept : List String} {ds : List Decision}, Sieved verdicts st ids kept ds →
        st ≠ .entryRevalidation → ∀ d ∈ ds, d.candidateId ≠ none → d.stage = .entryRevalidation →
          d.status = .passed ∨ d.status = .rejected :=
      fun hds hne d hd hid hstage => absurd ((hds.stage d hd hid).symm.trans hstage) hne
    intro d hd
    simp only [List.mem_append, List.not_mem_nil, or_false] at hd
    rcases hd with hd | hd | hd | hd | hd | hd
    · exact hother hds₁ (by decide) d hd
    · exact hother hds₂ (by decide) d hd
    · exact hother hds₃ (by decide) d hd
    · exact hother hds₄ (by decide) d hd
    · exact hother hds₅ (by decide) d hd
    · exact fun _ _ => hstatus d hd

/-- What the position manager returned, if there is one. -/
def Managed (self : StagedDecisionPipeline Λ) (cycleId : String) (t : Instant) (ledger : Λ) (managed : List Decision) :
    Prop :=
  match self.positionManager with
  | none => managed = []
  | some manage => ∃ ledger', manage cycleId t ledger = .ok managed ledger'

theorem emitted_publishEach {decisions : List Decision} {units : List Unit} {c c' : Cycle Λ}
    (h : each (publish self) decisions c = .ok units c') : c'.emitted = c.emitted ++ decisions := by
  induction decisions generalizing c units with
  | nil =>
    obtain ⟨rfl, rfl⟩ := each_nil_eq_ok.mp h
    exact (List.append_nil _).symm
  | cons decision decisions ih =>
    obtain ⟨_, c₁, units', hfirst, hrest, rfl⟩ := each_cons_eq_ok.mp h
    obtain ⟨ds, hds, hlog⟩ := (follows_publish decision).of_ok hfirst
    cases hds
    rw [ih hrest, hlog, List.append_assoc, List.singleton_append]

theorem managed_of_managePositions {ledger : Λ} {c : Cycle Λ}
    (h : managePositions self cycleId t ⟨ledger, []⟩ = .ok () c) : Managed self cycleId t ledger c.emitted := by
  unfold managePositions at h
  unfold Managed
  cases hmanager : self.positionManager with
  | none =>
    rw [hmanager] at h
    cases h
    rfl
  | some manage =>
    rw [hmanager] at h
    obtain ⟨decisions, c₁, hmanage, h⟩ := bind_eq_ok.mp h
    obtain ⟨units, c₂, heach, h⟩ := bind_eq_ok.mp h
    cases h
    obtain ⟨ledger', hledger, rfl⟩ := focus_eq_ok.mp hmanage
    rw [emitted_publishEach heach]
    exact ⟨ledger', hledger⟩

/-- The decisions about a candidate: one for each stage that it reached, in the order of the stages. Only the last one
rejects, unless the entry is revalidated, and that is if the candidate is allocated. -/
structure EntryTrail (own : List Decision) (allocated : Prop) : Prop where
  follows : own.map Decision.stage <+: entryOrder
  passed : ∀ d ∈ own.dropLast, d.status ≠ .rejected
  last : ∃ d, own.getLast? = some d ∧
    (d.status = .rejected ∧ ¬ allocated ∨ d.stage = .entryRevalidation ∧ d.status = .passed ∧ allocated)

/-- A trail through the stages of an entry. -/
theorem EntryTrail.of_trail {own : List Decision} {allocated : Prop}
    (h : Trail verdicts entryOrder own allocated)
    (hstatus : ∀ d ∈ own, d.stage = .entryRevalidation → d.status = .passed ∨ d.status = .rejected) :
    EntryTrail own allocated := by
  obtain ⟨hfollows, hpassed, hends⟩ := h
  refine ⟨hfollows, fun d hd => of_decide_eq_false (hpassed d hd), ?_⟩
  rcases hends with ⟨last, hlast, hrejected, hnot⟩ | ⟨hall, hnone, hallocated⟩
  · exact ⟨last, hlast, .inl ⟨of_decide_eq_true hrejected, hnot⟩⟩
  · have hlast : own.getLast?.map Decision.stage = some .entryRevalidation := by
      rw [← List.getLast?_map]
      exact congrArg List.getLast? hall
    obtain ⟨last, hsome, hstage⟩ := Option.map_eq_some_iff.mp hlast
    have hmem : last ∈ own := List.mem_of_getLast? hsome
    refine ⟨last, hsome, .inr ⟨hstage, ?_, hallocated⟩⟩
    exact (hstatus last hmem hstage).resolve_right (of_decide_eq_false (hnone last hmem))

theorem cycleId_of_stages {c c' : Cycle Λ} {result : PipelineResult}
    (h : stages host self cycleId t contexts liveQuotes existingSymbols correlations c = .ok result c') :
    result.cycleId = cycleId := by
  obtain ⟨_, _, _, _, _, -, -, -, rfl⟩ := stages_eq_ok.mp h
  rfl

/-- The allocations are made for candidates of the run. -/
theorem allocations_mem {c c' : Cycle Λ} {result : PipelineResult}
    (h : stages host self cycleId t contexts liveQuotes existingSymbols correlations c = .ok result c') :
    ∀ a ∈ result.allocations, a.candidate.candidate ∈ result.candidates := by
  obtain ⟨candidates, c₁, scored, c₂, valid, -, hscore, hafter, rfl⟩ := stages_eq_ok.mp h
  obtain ⟨resolved, c₃, reviewed, c₄, allocations, c₅, hresolve, hreview, hallocate, hrevalidate⟩ :=
    afterScoring_eq_ok.mp hafter
  obtain ⟨chosen, hsub, hvalid⟩ :=
    collect_sublist (R := Revalidated self.policy) (fun _ _ _ _ h => revalidateOne_some h) hrevalidate
  intro b hb
  obtain ⟨a, ha, quote, rfl, -⟩ := exists_of_forall₂ hvalid hb
  obtain ⟨hmem, -⟩ := allocate_mem hallocate a (hsub.subset ha)
  exact score_mem hscore _ (resolveConflicts_mem hresolve _ (review_mem hreview _ hmem))

end Stages

/-- **Every candidate has one trail**: if the candidates of a run have different ids, the decisions of the stages about
each of them are one for each stage that it reached; the last one is a rejection, or the entry is revalidated and
allocated. Every context has a decision about its data. -/
theorem every_candidate_has_one_trail (host : Host) {Λ : Type} (self : StagedDecisionPipeline Λ)
    (contexts : List StrategyContext) (preconditions : CyclePreconditions) (evaluatedAt : DateTime)
    (liveQuotes : Dict (Market × String) ℚ) (existingSymbols : List (Market × String))
    (correlations : Dict (String × String) ℚ) {ledger ledger' : Λ} {result : PipelineResult}
    (hrun : run host self contexts preconditions evaluatedAt liveQuotes existingSymbols correlations ledger =
      .ok result ledger')
    (hmode : result.mode = .normal)
    (hdistinct : (result.candidates.map DeterministicCandidate.candidateId).Nodup) :
    ∃ t managed staged, evaluatedAt = .aware t ∧ result.decisions = managed ++ staged ∧
      Managed self result.cycleId t ledger managed ∧
      (∀ candidate ∈ result.candidates,
        EntryTrail (staged.filter fun d => d.candidateId = some candidate.candidateId)
          (∃ a ∈ result.allocations, a.candidate.candidate = candidate)) ∧
      ∃ readiness, readiness.Sublist staged ∧ List.Forall₂ AboutData contexts readiness := by
  cases evaluatedAt with
  | naive wall => cases hrun
  | aware t =>
    obtain ⟨c, c', hmanage, hrest, -⟩ := run_eq_ok.mp hrun
    split_ifs at hrest with hexits
    · obtain ⟨_, _, -, hrest⟩ := bind_eq_ok.mp hrest
      cases hrest
      cases hmode
    · obtain ⟨staged, hdecisions, hsieves, hreadiness, hstatus⟩ := sieves_stages hrest
      rw [cycleId_of_stages hrest]
      refine ⟨t, c.emitted, staged, rfl, hdecisions, managed_of_managePositions hmanage, fun candidate hcandidate => ?_,
        hreadiness⟩
      have hid : candidate.candidateId ∈ result.candidates.map DeterministicCandidate.candidateId :=
        List.mem_map_of_mem hcandidate
      have hallocated : candidate.candidateId ∈ result.allocations.map (fun a => a.candidate.id) ↔
          ∃ a ∈ result.allocations, a.candidate.candidate = candidate := by
        rw [List.mem_map]
        constructor
        · rintro ⟨a, ha, hsame⟩
          exact ⟨a, ha, List.inj_on_of_nodup_map hdistinct (allocations_mem hrest a ha) hcandidate hsame⟩
        · rintro ⟨a, ha, rfl⟩
          exact ⟨a, ha, rfl⟩
      rw [← hallocated]
      refine .of_trail (hsieves.trail hdistinct hid) fun d hd hstage => ?_
      obtain ⟨hmem, habout⟩ := List.mem_filter.mp hd
      exact hstatus d hmem (by rw [of_decide_eq_true habout]; exact Option.some_ne_none _) hstage

/-- Two bars: the trail of the second candidate ends when the capital of the batch is spent. -/
theorem trails_of_two_bars :
    ∃ result tables, Sample.twoBars [Sample.reliance, Sample.tcs] {} = .ok result tables ∧
      result.candidates.length = 2 ∧ result.allocations.length = 1 ∧
      ∃ t managed staged, Risk.Sample.now = .aware t ∧ result.decisions = managed ++ staged ∧
        Managed (Sample.pipeline PostgresDecisionLedger.ledger Sample.policy) result.cycleId t {} managed ∧
        (∀ candidate ∈ result.candidates,
          EntryTrail (staged.filter fun d => d.candidateId = some candidate.candidateId)
            (∃ a ∈ result.allocations, a.candidate.candidate = candidate)) ∧
        ∃ readiness, readiness.Sublist staged ∧ List.Forall₂ AboutData [Sample.reliance, Sample.tcs] readiness := by
  have hrun : ∃ result ∈ returned (Sample.twoBars [Sample.reliance, Sample.tcs] {}),
      result.mode = .normal ∧ (result.candidates.map DeterministicCandidate.candidateId).Nodup ∧
        result.candidates.length = 2 ∧ result.allocations.length = 1 := by
    simp only [Sample.twoBars, ← Host.evaluated_eq]
    decide +kernel
  obtain ⟨result, hreturned, hmode, hdistinct, htwo, hone⟩ := hrun
  obtain ⟨tables, hok⟩ := returned_eq_some.mp hreturned
  refine ⟨result, tables, hok, htwo, hone, ?_⟩
  unfold Sample.twoBars at hok
  exact every_candidate_has_one_trail _ _ _ _ _ _ _ _ hok hmode hdistinct

end NanoDelta.Orchestration
