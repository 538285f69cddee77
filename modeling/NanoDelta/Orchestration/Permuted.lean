import Mathlib.Data.List.Lex
import Mathlib.Data.Prod.Lex
import NanoDelta.Library.Series
import NanoDelta.Orchestration.Provenance
import NanoDelta.Orchestration.Scripts

/-!
# Contexts in another order

The order of the contexts of a run does not matter. The cycle id is made of the sorted contexts, each context is looked
at by itself, and the candidates are ranked before anything is decided between them.

* `ranked_perm`: candidates with different ids have one ranking.
* `run_of_permuted_contexts`: two runs whose contexts are the same in another order.
-/

namespace NanoDelta.Orchestration

open Library Library.Effect Strategies Decisions

/-! ### Orders -/

/-- The key of the order of contexts. -/
def contextKey (context : StrategyContext) : List String ×ₗ ℕ ×ₗ List String :=
  toLex (contextTexts context, toLex (context.featureSetVersion, context.goldSnapshotIds))

theorem contextLe_iff (a b : StrategyContext) : contextLe a b = true ↔ contextKey a ≤ contextKey b := by
  rw [contextKey, contextKey, Prod.Lex.toLex_le_toLex, Prod.Lex.toLex_le_toLex,
    le_iff_lt_or_eq (a := a.goldSnapshotIds)]
  simp only [contextLe, Bool.or_eq_true, Bool.and_eq_true, decide_eq_true_eq]

/-- The key of the order of scored candidates. -/
def rankKey (host : Host) (item : ScoredCandidate) : ℚᵒᵈ ×ₗ List String :=
  toLex (OrderDual.toDual item.score.expectedRNetOfCosts, rankTexts host item)

theorem rankLe_iff (host : Host) (a b : ScoredCandidate) : rankLe host a b = true ↔ rankKey host a ≤ rankKey host b := by
  rw [rankKey, rankKey, Prod.Lex.toLex_le_toLex, le_iff_lt_or_eq (a := rankTexts host a)]
  simp only [rankLe, Bool.or_eq_true, Bool.and_eq_true, decide_eq_true_eq, OrderDual.toDual_lt_toDual,
    OrderDual.toDual_inj]

/-- The text of a context is made of its key. -/
theorem contextText_eq (host : Host) (context : StrategyContext) :
    contextText host context = reprTuple (((ofLex (contextKey context)).1.map host.reprStr ++
      [toString (ofLex (ofLex (contextKey context)).2).1] ++ (ofLex (ofLex (contextKey context)).2).2.map host.reprStr)) :=
  rfl

/-- The cycle id does not depend on the order of the contexts. -/
theorem decisionCycleId_perm (host : Host) {contexts contexts' : List StrategyContext} (h : contexts.Perm contexts') :
    decisionCycleId host contexts = decisionCycleId host contexts' := by
  have hkeys := map_key_insertionSort contextLe_iff h
  unfold decisionCycleId
  have htexts : ∀ sorted : List StrategyContext, sorted.map (contextText host) = (sorted.map contextKey).map fun key =>
      reprTuple ((ofLex key).1.map host.reprStr ++ [toString (ofLex (ofLex key).2).1] ++
        (ofLex (ofLex key).2).2.map host.reprStr) := by
    intro sorted
    rw [List.map_map]
    exact List.map_congr_left fun context _ => contextText_eq host context
  rw [htexts, htexts, hkeys]

/-- **Ranking** candidates with different ids in another order. -/
theorem ranked_perm (host : Host) {items items' : List ScoredCandidate} (h : items.Perm items')
    (hids : ∀ a ∈ items, ∀ b ∈ items, a.candidate.candidateId = b.candidate.candidateId → a = b) :
    ranked host items = ranked host items' := by
  refine insertionSort_eq_of_perm (rankLe_iff host) h fun a ha b hb hkey => hids a ha b hb ?_
  have htexts : rankTexts host a = rankTexts host b := congrArg (fun key => (ofLex key).2) hkey
  unfold rankTexts at htexts
  simp only [List.cons.injEq] at htexts
  exact htexts.2.2.1

/-! ### The stages -/

section Stages

variable {host : Host} {Λ : Type} {self : StagedDecisionPipeline Λ} {cycleId : String} {t : Instant}
  {contexts contexts' : List StrategyContext}

/-- Two programs that emit the same decisions, in some order. -/
abbrev Reorders {α β : Type} (self : StagedDecisionPipeline Λ) (R : α → β → Prop) (x : EStateM PyError (Cycle Λ) α)
    (y : EStateM PyError (Cycle Λ) β) : Prop := Alike Cycle.emitted (Calm self.ledger) List.Perm R x y

theorem reorders_generate (h : contexts.Perm contexts') :
    Reorders self List.Perm (generate host self cycleId t contexts) (generate host self cycleId t contexts') :=
  (alike_each_perm staged_generateOne h).map fun _ _ hlists => hlists.flatten

/-- What is kept of a candidate that is scored. -/
theorem score_of_scoreOne {candidate : DeterministicCandidate} {item : ScoredCandidate} {c c' : Cycle Λ}
    (h : scoreOne host self cycleId t candidate c = .ok (some item) c') : item = ⟨candidate, scoreOf candidate⟩ := by
  unfold scoreOne at h
  simp only at h
  split_ifs at h
  · obtain ⟨_, _, -, h⟩ := bind_eq_ok.mp h
    cases h
    rfl
  · obtain ⟨_, _, -, h⟩ := bind_eq_ok.mp h
    cases h

/-- Candidates with different ids are ranked the same. -/
theorem reorders_score {candidates candidates' : List DeterministicCandidate} (h : candidates.Perm candidates')
    (hdistinct : (candidates.map DeterministicCandidate.candidateId).Nodup) :
    Reorders self Eq (score host self cycleId t candidates) (score host self cycleId t candidates') := by
  intro c scored c₁ hscore d
  unfold score at hscore
  obtain ⟨items, hitems, rfl⟩ := map_eq_ok.mp hscore
  obtain ⟨kept, hsub, hkept⟩ := collect_sublist
    (R := fun candidate item => item = (⟨candidate, scoreOf candidate⟩ : ScoredCandidate))
    (fun _ _ _ _ h => score_of_scoreOne h) hitems
  have hids : ∀ a ∈ items, ∀ b ∈ items, a.candidate.candidateId = b.candidate.candidateId → a = b := by
    intro a ha b hb hid
    obtain ⟨candidate, hcandidate, rfl⟩ := exists_of_forall₂ hkept ha
    obtain ⟨candidate', hcandidate', rfl⟩ := exists_of_forall₂ hkept hb
    have hsame : candidate = candidate' :=
      List.inj_on_of_nodup_map hdistinct (hsub.subset hcandidate) (hsub.subset hcandidate') hid
    rw [hsame]
  obtain ⟨hsame, hreturns⟩ := alike_collect_perm staged_scoreOne h c items c₁ hitems d
  refine ⟨fun scored' d' h' => ?_, fun hcalm => ?_⟩
  · unfold score at h'
    obtain ⟨items', hitems', rfl⟩ := map_eq_ok.mp h'
    obtain ⟨hperm, hlogs⟩ := hsame items' d' hitems'
    exact ⟨ranked_perm host hperm hids, hlogs⟩
  · obtain ⟨items', d', hitems'⟩ := hreturns hcalm
    exact ⟨_, d', map_eq_ok.mpr ⟨items', hitems', rfl⟩⟩

/-- What is the same of two results. -/
structure SameOutcome (result result' : PipelineResult) : Prop where
  cycleId : result'.cycleId = result.cycleId
  scored : result'.scored = result.scored
  allocations : result'.allocations = result.allocations
  decisions : result'.decisions.Perm result.decisions

variable {liveQuotes : Dict (Market × String) ℚ} {existingSymbols : List (Market × String)}
  {correlations : Dict (String × String) ℚ}

theorem stages_perm (h : contexts.Perm contexts') {c c' : Cycle Λ} {result : PipelineResult}
    (hrun : stages host self cycleId t contexts liveQuotes existingSymbols correlations c = .ok result c')
    (hdistinct : (result.candidates.map DeterministicCandidate.candidateId).Nodup) :
    (∀ result' d, stages host self cycleId t contexts' liveQuotes existingSymbols correlations c = .ok result' d →
      SameOutcome result result') ∧
    (Calm self.ledger →
      ∃ result' d, stages host self cycleId t contexts' liveQuotes existingSymbols correlations c = .ok result' d) := by
  obtain ⟨candidates, c₁, scored, c₂, valid, hgenerate, hscore, hafter, rfl⟩ := stages_eq_ok.mp hrun
  have hgenerates := reorders_generate h c candidates c₁ hgenerate c
  have hscores : ∀ {candidates'}, candidates.Perm candidates' →
      Reorders self Eq (score host self cycleId t candidates) (score host self cycleId t candidates') :=
    fun hperm => reorders_score hperm hdistinct
  have hafters : Reorders self Eq (afterScoring host self cycleId t liveQuotes existingSymbols correlations scored)
      (afterScoring host self cycleId t liveQuotes existingSymbols correlations scored) :=
    (staged_afterScoring scored).alike List.Perm.refl
  refine ⟨fun result' d h' => ?_, fun hcalm => ?_⟩
  · obtain ⟨candidates', d₁, scored', d₂, valid', hgenerate', hscore', hafter', rfl⟩ := stages_eq_ok.mp h'
    obtain ⟨hperm, ds, es, hc₁, hd₁, hds⟩ := hgenerates.1 candidates' d₁ hgenerate'
    obtain ⟨rfl, ds', es', hc₂, hd₂, hds'⟩ := (hscores hperm c₁ scored c₂ hscore d₁).1 scored' d₂ hscore'
    obtain ⟨rfl, ds'', es'', hc', hd', hds''⟩ := (hafters c₂ valid c' hafter d₂).1 valid' d hafter'
    refine ⟨rfl, rfl, rfl, ?_⟩
    simp only [hd', hd₂, hd₁, hc', hc₂, hc₁]
    exact (((hds.append_left _).append hds').append hds'').symm
  · obtain ⟨candidates', d₁, hgenerate'⟩ := hgenerates.2 hcalm
    have hperm := (hgenerates.1 candidates' d₁ hgenerate').1
    obtain ⟨scored', d₂, hscore'⟩ := (hscores hperm c₁ scored c₂ hscore d₁).2 hcalm
    obtain rfl := ((hscores hperm c₁ scored c₂ hscore d₁).1 scored' d₂ hscore').1
    obtain ⟨valid', d, hafter'⟩ := (hafters c₂ valid c' hafter d₂).2 hcalm
    exact ⟨_, d, stages_eq_ok.mpr ⟨candidates', d₁, scored, d₂, valid', hgenerate', hscore', hafter', rfl⟩⟩

theorem exitsOnly_perm (h : contexts.Perm contexts') {preconditions : CyclePreconditions} {c c' : Cycle Λ}
    {result : PipelineResult} (hrun : exitsOnly host self cycleId t contexts preconditions c = .ok result c') :
    (∀ result' d, exitsOnly host self cycleId t contexts' preconditions c = .ok result' d → SameOutcome result result') ∧
    (Calm self.ledger → ∃ result' d, exitsOnly host self cycleId t contexts' preconditions c = .ok result' d) := by
  obtain ⟨units, c₁, heach, hrest⟩ := bind_eq_ok.mp hrun
  cases hrest
  have heachs := alike_each_perm (fun _ => staged_emit) h c units c' heach c
  refine ⟨fun result' d h' => ?_, fun hcalm => ?_⟩
  · obtain ⟨units', d₁, heach', hrest'⟩ := bind_eq_ok.mp h'
    cases hrest'
    obtain ⟨-, ds, es, hc, hd, hds⟩ := heachs.1 units' d heach'
    refine ⟨rfl, rfl, rfl, ?_⟩
    simp only [hc, hd]
    exact (hds.append_left _).symm
  · obtain ⟨units', d, heach'⟩ := heachs.2 hcalm
    exact ⟨_, d, bind_eq_ok.mpr ⟨units', d, heach', rfl⟩⟩

end Stages

/-- **Contexts in another order**: if the candidates have different ids, another run on the same ledger has the same
cycle id, scores and allocations, and the same decisions in some order. It returns, too, if the ledger never raises. -/
theorem run_of_permuted_contexts (host : Host) {Λ : Type} (self : StagedDecisionPipeline Λ)
    {contexts contexts' : List StrategyContext} (h : contexts.Perm contexts') (preconditions : CyclePreconditions)
    (evaluatedAt : DateTime) (liveQuotes : Dict (Market × String) ℚ) (existingSymbols : List (Market × String))
    (correlations : Dict (String × String) ℚ) {ledger ledger' : Λ} {result : PipelineResult}
    (hrun : run host self contexts preconditions evaluatedAt liveQuotes existingSymbols correlations ledger =
      .ok result ledger')
    (hdistinct : (result.candidates.map DeterministicCandidate.candidateId).Nodup) :
    (∀ result' ledger'', run host self contexts' preconditions evaluatedAt liveQuotes existingSymbols correlations
      ledger = .ok result' ledger'' → SameOutcome result result') ∧
    (Calm self.ledger → ∃ result' ledger'', run host self contexts' preconditions evaluatedAt liveQuotes
      existingSymbols correlations ledger = .ok result' ledger'') := by
  cases evaluatedAt with
  | naive wall => cases hrun
  | aware t =>
    obtain ⟨c, c', hmanage, hrest, -⟩ := run_eq_ok.mp hrun
    rw [decisionCycleId_perm host h] at hmanage hrest
    have hboth : (∀ result' d, (if preconditions.mode = .exitsOnly then
          exitsOnly host self (decisionCycleId host contexts') t contexts' preconditions c = .ok result' d
        else stages host self (decisionCycleId host contexts') t contexts' liveQuotes existingSymbols correlations c =
          .ok result' d) → SameOutcome result result') ∧
        (Calm self.ledger → ∃ result' d, if preconditions.mode = .exitsOnly then
          exitsOnly host self (decisionCycleId host contexts') t contexts' preconditions c = .ok result' d
        else stages host self (decisionCycleId host contexts') t contexts' liveQuotes existingSymbols correlations c =
          .ok result' d) := by
      split_ifs at hrest ⊢ with hmode
      · exact exitsOnly_perm h hrest
      · exact stages_perm h hrest hdistinct
    refine ⟨fun result' ledger'' hrun' => ?_, fun hcalm => ?_⟩
    · obtain ⟨d, d', hmanage', hrest', -⟩ := run_eq_ok.mp hrun'
      cases hmanage.symm.trans hmanage'
      exact hboth.1 result' d' hrest'
    · obtain ⟨result', d', hrest'⟩ := hboth.2 hcalm
      exact ⟨result', d'.ledger, run_eq_ok.mpr ⟨c, d', hmanage, hrest', rfl⟩⟩

/-! ### Two bars -/

/-- The durable ledger is calm. -/
theorem calm_durable : Calm PostgresDecisionLedger.ledger := by
  refine ⟨fun decision s => ⟨_, rfl⟩, fun record decision s hid hcycle =>
    ⟨PostgresDecisionLedger.insertDecision decision (PostgresDecisionLedger.insertCandidate record s), ?_⟩⟩
  simp only [PostgresDecisionLedger.ledger, PostgresDecisionLedger.appendCandidate, hid, hcycle, ne_eq,
    not_true_eq_false, or_self, if_false]
  rfl

namespace Sample

open Risk.Sample

/-- A cycle with the bars of two symbols, in one order or the other. -/
def twoBars (contexts : List StrategyContext) : EStateM PyError ControlTables PipelineResult :=
  run Host.cpython (pipeline PostgresDecisionLedger.ledger policy) contexts ⟨true, true, true, true⟩ now
    ((Dict.empty.set (.nse, "RELIANCE") 100).set (.nse, "TCS") 100) [] .empty

/-- The bars of two symbols. -/
def reliance : StrategyContext := context "RELIANCE" "gold-1" reliance_ne

@[inherit_doc reliance] def tcs : StrategyContext := context "TCS" "gold-2" tcs_ne

end Sample

/-- Two bars, in both orders: two candidates are scored, and the capital is enough for the first of them. -/
theorem two_bars_in_any_order :
    ∃ result tables result' tables', Sample.twoBars [Sample.reliance, Sample.tcs] {} = .ok result tables ∧
      Sample.twoBars [Sample.tcs, Sample.reliance] {} = .ok result' tables' ∧ SameOutcome result result' ∧
      result.scored.length = 2 ∧ result.allocations.length = 1 := by
  have hrun : ∃ result ∈ returned (Sample.twoBars [Sample.reliance, Sample.tcs] {}),
      (result.candidates.map DeterministicCandidate.candidateId).Nodup ∧ result.scored.length = 2 ∧
        result.allocations.length = 1 := by
    simp only [Sample.twoBars, ← Host.evaluated_eq]
    decide +kernel
  obtain ⟨result, hreturned, hdistinct, hcounts⟩ := hrun
  obtain ⟨tables, hok⟩ := returned_eq_some.mp hreturned
  unfold Sample.twoBars at hok ⊢
  have hperm : [Sample.reliance, Sample.tcs].Perm [Sample.tcs, Sample.reliance] := .swap _ _ _
  have hboth := run_of_permuted_contexts _ _ hperm _ _ _ _ _ hok hdistinct
  obtain ⟨result', tables', hok'⟩ := hboth.2 calm_durable
  exact ⟨result, tables, result', tables', hok, hok', hboth.1 result' tables' hok', hcounts⟩

end NanoDelta.Orchestration
