import NanoDelta.Orchestration.Permuted

/-!
# Review that does not steer

`_review` sits in the middle of the pipeline, before the budgeted allocation. In shadow mode it keeps every candidate
whatever the reviewer answers, also if it raises; and so it does in the mode with a veto if the reviewer never blocks.
Then the later stages work on what they would have worked on without a reviewer.

* `alike_review`: the stage, with and without a reviewer.
* `review_changes_nothing_else`: two runs, with and without a reviewer.
-/

namespace NanoDelta.Orchestration

open Library Library.Effect Strategies Decisions

section

variable {Λ : Type}

/-- The pipeline with another reviewer, in another mode. -/
def StagedDecisionPipeline.withReview (self : StagedDecisionPipeline Λ) (mode : LlmReviewMode)
    (reviewer : Option CandidateReviewer) (given : mode ≠ .off → reviewer.isSome = true) : StagedDecisionPipeline Λ :=
  { self with llmMode := mode, reviewer := reviewer, reviewer_given := given }

/-- The pipeline without review. -/
def StagedDecisionPipeline.unreviewed (self : StagedDecisionPipeline Λ) (unused : Option CandidateReviewer) :
    StagedDecisionPipeline Λ := self.withReview .off unused fun h => absurd rfl h

/-- The pipeline with a reviewer. -/
def StagedDecisionPipeline.reviewed (self : StagedDecisionPipeline Λ) (mode : LlmReviewMode)
    (reviewer : CandidateReviewer) : StagedDecisionPipeline Λ := self.withReview mode (some reviewer) fun _ => rfl

/-- The reviewer keeps every candidate: it does not decide, or it never blocks. -/
def Lenient (mode : LlmReviewMode) (reviewer : CandidateReviewer) : Prop :=
  mode = .shadow ∨ mode = .enforcedVeto ∧ ∀ item, reviewer item ≠ .ok .block

/-- The same decision, or two decisions of the review about the same candidate. -/
def SameButReview (d e : Decision) : Prop :=
  e = d ∨ d.stage = .llmReview ∧ e.stage = .llmReview ∧ e.candidateId = d.candidateId

/-- The same decisions but for those of the review. -/
abbrev SameButReviews : List Decision → List Decision → Prop := List.Forall₂ SameButReview

theorem sameButReviews_refl (ds : List Decision) : SameButReviews ds ds :=
  List.forall₂_same.mpr fun _ _ => Or.inl rfl

theorem SameButReviews.append {ds es ds' es' : List Decision} (h : SameButReviews ds es) (h' : SameButReviews ds' es') :
    SameButReviews (ds ++ ds') (es ++ es') := List.rel_append h h'

end

section Stages

variable {host : Host} {Λ : Type} {self : StagedDecisionPipeline Λ} {cycleId : String} {t : Instant}
  {mode : LlmReviewMode} {reviewer : CandidateReviewer} {unused : Option CandidateReviewer}

/-- A candidate is kept, with a decision that says what the reviewer answered. -/
theorem follows_reviewOne (h : Lenient mode reviewer) (item : ScoredCandidate) :
    ∃ verdict : LlmVerdict, Follows Cycle.emitted (Calm self.ledger)
      (reviewOne host (self.reviewed mode reviewer) cycleId t reviewer item)
      ((candidateDecision host cycleId t item .llmReview .passed ("LLM_" ++ verdict.value) []).map fun d =>
        (some item, [d])) := by
  unfold reviewOne
  dsimp only
  rw [if_neg]
  · exact ⟨_, follows_emitCandidate_return (some item)⟩
  · rintro ⟨hmode, hverdict⟩
    have hveto : mode = .enforcedVeto := hmode
    rcases h with hshadow | ⟨-, hnever⟩
    · rw [hshadow] at hveto
      cases hveto
    · cases hanswer : reviewer item with
      | ok verdict =>
        rw [hanswer] at hverdict
        exact hnever item (hanswer.trans (congrArg _ hverdict))
      | error e =>
        rw [hanswer] at hverdict
        cases hverdict

/-- Two programs that say the same but for their reviews, unless the ledger raises. -/
abbrev Agree {α : Type} (self : StagedDecisionPipeline Λ) (x y : EStateM PyError (Cycle Λ) α) : Prop :=
  Alike Cycle.emitted (Calm self.ledger) SameButReviews Eq x y

/-- Two ways to decide about every candidate in the review: if one can, the other can. -/
theorem scripts_review {α β : Type} (result : ScoredCandidate → α) (result' : ScoredCandidate → β)
    {status status' : DecisionStatus} {reason reason' : ScoredCandidate → String} (hreason : ∀ item, reason' item ≠ "")
    (candidates : List ScoredCandidate) {rs : List (α × List Decision)}
    (h : scripts (fun item => (candidateDecision host cycleId t item .llmReview status (reason item) []).map
      fun d => (result item, [d])) candidates = .ok rs) :
    ∃ rs' : List (β × List Decision),
      scripts (fun item => (candidateDecision host cycleId t item .llmReview status' (reason' item) []).map
        fun d => (result' item, [d])) candidates = .ok rs' ∧
      rs.map Prod.fst = candidates.map result ∧ rs'.map Prod.fst = candidates.map result' ∧
      SameButReviews (rs.map Prod.snd).flatten (rs'.map Prod.snd).flatten := by
  induction candidates generalizing rs with
  | nil =>
    cases h
    exact ⟨[], rfl, rfl, rfl, .nil⟩
  | cons item rest ih =>
    obtain ⟨r, tail, hr, htail, rfl⟩ := scripts_cons_eq_ok.mp h
    obtain ⟨tail', htail', hresults, hresults', hsame⟩ := ih htail
    obtain ⟨d, hd, rfl⟩ := except_map_eq_ok.mp hr
    have hother : ∃ e, candidateDecision host cycleId t item .llmReview status' (reason' item) [] = .ok e :=
      create_other hd (hreason item)
    obtain ⟨e, he⟩ := hother
    refine ⟨(result' item, [e]) :: tail', scripts_cons_eq_ok.mpr ⟨_, tail', ?_, htail', rfl⟩, ?_, ?_, ?_⟩
    · rw [he]
      rfl
    · rw [List.map_cons, hresults, List.map_cons]
    · rw [List.map_cons, hresults', List.map_cons]
    · obtain ⟨-, -, -, -, hstage, -, -, hid⟩ := of_create hd
      obtain ⟨-, -, -, -, hstage', -, -, hid'⟩ := of_create he
      exact .cons (.inr ⟨hstage, hstage', hid'.trans hid.symm⟩) hsame

/-- Keeping every candidate. -/
theorem filterMap_fst_of_map_some {α β : Type} {as : List α} {rs : List (Option α × β)}
    (h : rs.map Prod.fst = as.map some) : rs.filterMap Prod.fst = as := by
  calc rs.filterMap Prod.fst = (rs.map Prod.fst).filterMap id := by rw [List.filterMap_map]; rfl
    _ = (as.map some).filterMap id := by rw [h]
    _ = as := List.filterMap_map.trans List.filterMap_some

/-- Without a reviewer. -/
theorem follows_unreviewed (candidates : List ScoredCandidate) :
    Follows Cycle.emitted (Calm self.ledger) (review host (self.unreviewed unused) cycleId t candidates)
      ((scripts (fun item => (candidateDecision host cycleId t item .llmReview .skipped "LLM_OFF" []).map
        fun d => ((), [d])) candidates).map fun rs => (candidates, (rs.map Prod.snd).flatten)) := by
  have hoff : (self.unreviewed unused).llmMode = .off := rfl
  unfold review
  rw [dif_pos hoff, bind_pure_comp]
  have hscript : ∀ x : Except PyError (List (Unit × List Decision)),
      (x.map fun rs => (candidates, (rs.map Prod.snd).flatten)) =
        (x.map fun rs => (rs.map Prod.fst, (rs.map Prod.snd).flatten)).map fun r => (candidates, r.2) :=
    fun x => by cases x <;> rfl
  rw [hscript]
  exact (follows_each (fun _ => follows_emitCandidate) candidates).map _

/-- With a lenient reviewer. -/
theorem follows_reviewed (h : Lenient mode reviewer) (candidates : List ScoredCandidate) :
    ∃ verdict : ScoredCandidate → LlmVerdict, Follows Cycle.emitted (Calm self.ledger)
      (review host (self.reviewed mode reviewer) cycleId t candidates)
      ((scripts (fun item => (candidateDecision host cycleId t item .llmReview .passed
        ("LLM_" ++ (verdict item).value) []).map fun d => (some item, [d])) candidates).map
          fun rs => (rs.filterMap Prod.fst, (rs.map Prod.snd).flatten)) := by
  have hmode : ¬ (self.reviewed mode reviewer).llmMode = .off := by
    have hcases : mode = .shadow ∨ mode = .enforcedVeto := h.imp_right And.left
    rintro (hoff : mode = .off)
    rw [hoff] at hcases
    rcases hcases with hcase | hcase <;> cases hcase
  have hone : ∀ item, ∃ verdict : LlmVerdict, Follows Cycle.emitted (Calm self.ledger)
      (reviewOne host (self.reviewed mode reviewer) cycleId t reviewer item) _ := follows_reviewOne h
  choose verdict hverdict using hone
  refine ⟨verdict, ?_⟩
  unfold review
  rw [dif_neg hmode]
  exact follows_collect hverdict candidates

/-- **The stage** keeps the candidates that it keeps without a reviewer, and decides as often. -/
theorem agree_review (h : Lenient mode reviewer) (candidates : List ScoredCandidate) :
    Agree self (review host (self.unreviewed unused) cycleId t candidates)
        (review host (self.reviewed mode reviewer) cycleId t candidates) ∧
      Agree self (review host (self.reviewed mode reviewer) cycleId t candidates)
        (review host (self.unreviewed unused) cycleId t candidates) := by
  obtain ⟨verdict, hreviewed⟩ : ∃ verdict : ScoredCandidate → LlmVerdict, Follows Cycle.emitted (Calm self.ledger)
      (review host (self.reviewed mode reviewer) cycleId t candidates) _ := follows_reviewed h candidates
  have hreason : ∀ item, "LLM_" ++ (verdict item).value ≠ "" := fun item => by cases verdict item <;> decide
  refine ⟨alike_of_follows (follows_unreviewed candidates) hreviewed fun kept ds hkept => ?_,
    alike_of_follows hreviewed (follows_unreviewed candidates) fun kept ds hkept => ?_⟩
  · obtain ⟨rs, hrs, hkept⟩ := except_map_eq_ok.mp hkept
    cases hkept
    obtain ⟨rs', hrs', -, hresults, hsame⟩ := scripts_review (fun _ => ()) some hreason candidates hrs
    exact ⟨candidates, _, except_map_eq_ok.mpr ⟨rs', hrs', congrArg (·, _) (filterMap_fst_of_map_some hresults)⟩, rfl,
      hsame⟩
  · obtain ⟨rs, hrs, hkept⟩ := except_map_eq_ok.mp hkept
    cases hkept
    obtain ⟨rs', hrs', hresults, -, hsame⟩ :=
      scripts_review some (fun _ => ()) (fun _ => (by decide : "LLM_OFF" ≠ "")) candidates hrs
    exact ⟨candidates, _, except_map_eq_ok.mpr ⟨rs', hrs', rfl⟩, filterMap_fst_of_map_some hresults, hsame⟩

/-! ### Runs -/

/-- What is the same of two results. -/
structure SameButReviewed (result result' : PipelineResult) : Prop where
  cycleId : result'.cycleId = result.cycleId
  mode : result'.mode = result.mode
  candidates : result'.candidates = result.candidates
  scored : result'.scored = result.scored
  allocations : result'.allocations = result.allocations
  decisions : SameButReviews result.decisions result'.decisions

theorem SameButReviewed.refl (result : PipelineResult) : SameButReviewed result result :=
  ⟨rfl, rfl, rfl, rfl, rfl, sameButReviews_refl _⟩

variable {mode' : LlmReviewMode} {given : Option CandidateReviewer} {given' : Option CandidateReviewer}
  {hgiven : mode ≠ .off → given.isSome = true} {hgiven' : mode' ≠ .off → given'.isSome = true}
  {liveQuotes : Dict (Market × String) ℚ} {existingSymbols : List (Market × String)}
  {correlations : Dict (String × String) ℚ}

/-- The later stages work on what the review keeps. -/
theorem agree_afterScoring
    (hreview : ∀ candidates, Agree self (review host (self.withReview mode given hgiven) cycleId t candidates)
      (review host (self.withReview mode' given' hgiven') cycleId t candidates)) (scored : List ScoredCandidate) :
    Agree self
      (afterScoring host (self.withReview mode given hgiven) cycleId t liveQuotes existingSymbols correlations scored)
      (afterScoring host (self.withReview mode' given' hgiven') cycleId t liveQuotes existingSymbols correlations
        scored) := by
  have hresolve : Agree self (resolveConflicts host (self.withReview mode given hgiven) cycleId t scored)
      (resolveConflicts host (self.withReview mode' given' hgiven') cycleId t scored) :=
    ((Scripted.collect staged_resolveGroup _).map _).alike sameButReviews_refl
  refine hresolve.bind SameButReviews.append fun resolved _ heq => ?_
  subst heq
  refine (hreview resolved).bind SameButReviews.append fun kept _ heq => ?_
  subst heq
  exact (((staged_allocate kept existingSymbols correlations).bind fun allocations =>
    staged_revalidate allocations liveQuotes)).alike sameButReviews_refl

variable {contexts : List StrategyContext}

theorem stages_review
    (hreview : ∀ candidates, Agree self (review host (self.withReview mode given hgiven) cycleId t candidates)
      (review host (self.withReview mode' given' hgiven') cycleId t candidates)) {c c' : Cycle Λ}
    {result : PipelineResult}
    (hrun : stages host (self.withReview mode given hgiven) cycleId t contexts liveQuotes existingSymbols correlations c =
      .ok result c') :
    (∀ result' d, stages host (self.withReview mode' given' hgiven') cycleId t contexts liveQuotes existingSymbols
      correlations c = .ok result' d → SameButReviewed result result') ∧
    (Calm self.ledger → ∃ result' d, stages host (self.withReview mode' given' hgiven') cycleId t contexts liveQuotes
      existingSymbols correlations c = .ok result' d) := by
  obtain ⟨candidates, c₁, scored, c₂, valid, hgenerate, hscore, hafter, rfl⟩ := stages_eq_ok.mp hrun
  have hagree : Agree self
      (afterScoring host (self.withReview mode given hgiven) cycleId t liveQuotes existingSymbols correlations scored)
      (afterScoring host (self.withReview mode' given' hgiven') cycleId t liveQuotes existingSymbols correlations
        scored) := agree_afterScoring hreview scored
  have hafters := hagree c₂ valid c' hafter c₂
  refine ⟨fun result' d h' => ?_, fun hcalm => ?_⟩
  · obtain ⟨candidates', d₁, scored', d₂, valid', hgenerate', hscore', hafter', rfl⟩ := stages_eq_ok.mp h'
    cases hgenerate.symm.trans hgenerate'
    cases hscore.symm.trans hscore'
    obtain ⟨rfl, ds, es, hc', hd, hds⟩ := hafters.1 valid' d hafter'
    refine ⟨rfl, rfl, rfl, rfl, rfl, ?_⟩
    simp only [hc', hd]
    exact (sameButReviews_refl _).append hds
  · obtain ⟨valid', d, hafter'⟩ := hafters.2 hcalm
    exact ⟨_, d, stages_eq_ok.mpr ⟨candidates, c₁, scored, c₂, valid', hgenerate, hscore, hafter', rfl⟩⟩

theorem run_review
    (hreview : ∀ cycleId t candidates,
      Agree self (review host (self.withReview mode given hgiven) cycleId t candidates)
        (review host (self.withReview mode' given' hgiven') cycleId t candidates))
    {preconditions : CyclePreconditions} {evaluatedAt : DateTime} {ledger ledger' : Λ} {result : PipelineResult}
    (hrun : run host (self.withReview mode given hgiven) contexts preconditions evaluatedAt liveQuotes existingSymbols
      correlations ledger = .ok result ledger') :
    (∀ result' ledger'', run host (self.withReview mode' given' hgiven') contexts preconditions evaluatedAt liveQuotes
      existingSymbols correlations ledger = .ok result' ledger'' → SameButReviewed result result') ∧
    (Calm self.ledger → ∃ result' ledger'', run host (self.withReview mode' given' hgiven') contexts preconditions
      evaluatedAt liveQuotes existingSymbols correlations ledger = .ok result' ledger'') := by
  cases evaluatedAt with
  | naive wall => cases hrun
  | aware t =>
    obtain ⟨c, c', hmanage, hrest, -⟩ := run_eq_ok.mp hrun
    by_cases hmode : preconditions.mode = .exitsOnly
    · rw [if_pos hmode] at hrest
      refine ⟨fun result' ledger'' hrun' => ?_, fun _ => ⟨result, c'.ledger, run_eq_ok.mpr ⟨c, c', hmanage, ?_, rfl⟩⟩⟩
      · obtain ⟨d, d', hmanage', hrest', -⟩ := run_eq_ok.mp hrun'
        rw [if_pos hmode] at hrest'
        cases hmanage.symm.trans hmanage'
        cases hrest.symm.trans hrest'
        exact .refl result
      · rw [if_pos hmode]
        exact hrest
    · rw [if_neg hmode] at hrest
      have hboth := stages_review (hreview _ t) hrest
      refine ⟨fun result' ledger'' hrun' => ?_, fun hcalm => ?_⟩
      · obtain ⟨d, d', hmanage', hrest', -⟩ := run_eq_ok.mp hrun'
        rw [if_neg hmode] at hrest'
        cases hmanage.symm.trans hmanage'
        exact hboth.1 result' d' hrest'
      · obtain ⟨result', d', hrest'⟩ := hboth.2 hcalm
        refine ⟨result', d'.ledger, run_eq_ok.mpr ⟨c, d', hmanage, ?_, rfl⟩⟩
        rw [if_neg hmode]
        exact hrest'

end Stages

/-- **Review changes nothing else**: with a reviewer that keeps every candidate, a run has the candidates, the scores,
the allocations and, but for those of the review, the decisions of a run without a reviewer. One of them returns if and
only if the other does, if the ledger never raises. -/
theorem review_changes_nothing_else (host : Host) {Λ : Type} (self : StagedDecisionPipeline Λ)
    (unused : Option CandidateReviewer) {mode : LlmReviewMode} {reviewer : CandidateReviewer}
    (h : Lenient mode reviewer) (contexts : List StrategyContext) (preconditions : CyclePreconditions)
    (evaluatedAt : DateTime) (liveQuotes : Dict (Market × String) ℚ) (existingSymbols : List (Market × String))
    (correlations : Dict (String × String) ℚ) (ledger : Λ) :
    (∀ result ledger' result' ledger'', run host (self.unreviewed unused) contexts preconditions evaluatedAt liveQuotes
        existingSymbols correlations ledger = .ok result ledger' →
      run host (self.reviewed mode reviewer) contexts preconditions evaluatedAt liveQuotes existingSymbols correlations
        ledger = .ok result' ledger'' → SameButReviewed result result') ∧
    (Calm self.ledger →
      ((∃ result ledger', run host (self.unreviewed unused) contexts preconditions evaluatedAt liveQuotes
          existingSymbols correlations ledger = .ok result ledger') ↔
        ∃ result ledger', run host (self.reviewed mode reviewer) contexts preconditions evaluatedAt liveQuotes
          existingSymbols correlations ledger = .ok result ledger')) := by
  refine ⟨fun result ledger' result' ledger'' hrun hrun' =>
    (run_review (fun _ _ candidates => (agree_review h candidates).1) hrun).1 result' ledger'' hrun',
    fun hcalm => ⟨?_, ?_⟩⟩
  · rintro ⟨result, ledger', hrun⟩
    exact (run_review (fun _ _ candidates => (agree_review h candidates).1) hrun).2 hcalm
  · rintro ⟨result, ledger', hrun⟩
    exact (run_review (fun _ _ candidates => (agree_review h candidates).2) hrun).2 hcalm

namespace Sample

open Risk.Sample

/-- A reviewer that raises, or blocks. -/
def grumpy : CandidateReviewer := fun item => if item.candidate.symbol = "TCS" then .error (.runtimeError "timeout") else .ok .block

/-- A cycle with two bars and a pipeline with or without a reviewer. -/
def reviewedBars (self : StagedDecisionPipeline ControlTables) : EStateM PyError ControlTables PipelineResult :=
  run Host.cpython self [reliance, tcs] ⟨true, true, true, true⟩ now
    ((Dict.empty.set (.nse, "RELIANCE") 100).set (.nse, "TCS") 100) [] .empty

end Sample

/-- A shadow review of two candidates that raises for one and blocks the other: the first of them is allocated, with
and without it. -/
theorem grumpy_review :
    ∃ result tables result' tables',
      Sample.reviewedBars ((Sample.pipeline PostgresDecisionLedger.ledger Sample.policy).unreviewed none) {} =
        .ok result tables ∧
      Sample.reviewedBars ((Sample.pipeline PostgresDecisionLedger.ledger Sample.policy).reviewed .shadow
        Sample.grumpy) {} = .ok result' tables' ∧
      SameButReviewed result result' ∧ result.allocations.length = 1 ∧ result'.decisions ≠ result.decisions := by
  have hrun : ∃ result ∈ returned (Sample.reviewedBars
      ((Sample.pipeline PostgresDecisionLedger.ledger Sample.policy).unreviewed none) {}),
      result.allocations.length = 1 ∧ (result.decisions.countP fun d => d.status = DecisionStatus.skipped) = 2 := by
    simp only [Sample.reviewedBars, ← Host.evaluated_eq]
    decide +kernel
  have hrun' : ∃ result' ∈ returned (Sample.reviewedBars
      ((Sample.pipeline PostgresDecisionLedger.ledger Sample.policy).reviewed .shadow Sample.grumpy) {}),
      (result'.decisions.countP fun d => d.status = DecisionStatus.skipped) = 0 := by
    simp only [Sample.reviewedBars, ← Host.evaluated_eq]
    decide +kernel
  obtain ⟨result, hreturned, hallocated, hskipped⟩ := hrun
  obtain ⟨result', hreturned', hskipped'⟩ := hrun'
  obtain ⟨tables, hok⟩ := returned_eq_some.mp hreturned
  obtain ⟨tables', hok'⟩ := returned_eq_some.mp hreturned'
  have hdiffer : result'.decisions ≠ result.decisions := by
    intro heq
    rw [heq, hskipped] at hskipped'
    cases hskipped'
  refine ⟨result, tables, result', tables', hok, hok', ?_, hallocated, hdiffer⟩
  unfold Sample.reviewedBars at hok hok'
  exact (review_changes_nothing_else _ _ _ (.inl rfl) _ _ _ _ _ _ _).1 _ _ _ _ hok hok'

end NanoDelta.Orchestration
