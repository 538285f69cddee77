import NanoDelta.Isoformat
import NanoDelta.Strategies.Postgres
import NanoDelta.Validation.Evidence

/-!
# The ids of validation runs

A validation's id is made of its strategy, its time, its metrics and its policy by `validate_strategy`, and readiness
evidence is added to its reasons by `evaluate_nse_strategy`, after that.

* `same_run_id_iff`: validations with one id are equal if and only if they are of one strategy and the readiness evidence
  gave the same reasons, besides those of the gates.
* `run_id_of_passed_and_failed`: one campaign with and without readiness evidence: the id is that of a passed run and of a
  failed one, and the registry takes the second for a changed artifact.
-/

namespace NanoDelta.Validation

open Library Strategies

/-! ### Evaluations -/

/-- An evaluation of a strategy: the gates alone, or over the candles of a campaign. -/
inductive Evaluation where
  | gates (identity : StrategyIdentity) (metrics : ValidationMetrics) (policy : ValidationPolicy) (evaluatedAt : DateTime)
  | nse (campaign : NseValidationCampaign) (plugin : StrategyPlugin) (candles : List SettledCandle)
    (readiness : List NseReadinessEvidence)

/-- The validation of an evaluation. -/
def Evaluation.run (host : ResearchHost) : Evaluation → Except PyError ValidationResult
  | .gates identity metrics policy evaluatedAt => validateStrategy host.toHost identity metrics policy evaluatedAt
  | .nse campaign plugin candles readiness =>
    (evaluateNseStrategy host campaign plugin candles readiness).map NseStrategyEvidence.validation

/-- The strategy that is evaluated. -/
def Evaluation.identity : Evaluation → StrategyIdentity
  | .gates identity _ _ _ => identity
  | .nse _ plugin _ _ => plugin.definition.identity

/-- The reasons that the readiness evidence gives. -/
def Evaluation.failures : Evaluation → List String
  | .gates .. => []
  | .nse campaign _ _ readiness => readinessFailures campaign readiness

/-- The floats in the texts of which the id is made. -/
def floatsOf (result : ValidationResult) : List ℚ :=
  [result.metrics.grossExpectancy, result.metrics.estimatedCostPerTrade, result.metrics.maximumDrawdown,
    result.metrics.pValue, result.policy.minimumProfitableWindowRatio, result.policy.minimumNetExpectancy,
    result.policy.maximumDrawdown, result.policy.familyWiseAlpha]

/-- A character of a float. -/
def isFloatChar (c : Char) : Bool := c.isDigit || c ∈ ['.', '-', '+', 'e', 'i', 'n', 'f', 'a']

/-- The runtime tells apart what it hashes and prints: there are no collisions, and different floats have different texts
of digits and signs. -/
structure Tells (host : Host) (floats : List ℚ) : Prop where
  collisionFree : Text.CollisionFree host.sha256
  made : ∀ x ∈ floats, Text.Made isFloatChar (host.reprFloat x)
  inj : ∀ x ∈ floats, ∀ y ∈ floats, host.reprFloat x = host.reprFloat y → x = y

/-! ### The texts of an id -/

section Texts

variable {host : Host} {floats : List ℚ}

theorem isFloatChar_of_isDigit {c : Char} (h : c.isDigit = true) : isFloatChar c = true := by
  unfold isFloatChar
  rw [h, Bool.true_or]

theorem ne_bar_of_isFloatChar {c : Char} (h : isFloatChar c = true) : decide (c ≠ '|') = true := by
  refine decide_eq_true ?_
  rintro rfl
  exact absurd h (by decide)

theorem floatChar_toString (n : ℕ) : Text.Made isFloatChar (toString n) :=
  (Text.made_toString n).mono fun _ => isFloatChar_of_isDigit

/-- The labels of metrics, after the first. -/
def metricsLabels : List String :=
  [", walk_forward_windows=", ", profitable_windows=", ", gross_expectancy=", ", estimated_cost_per_trade=",
    ", maximum_drawdown=", ", p_value=", ", tested_hypotheses="]

/-- The fields of metrics, but for the last. -/
def metricsFields (host : Host) (metrics : ValidationMetrics) : List String :=
  [toString metrics.tradeCount, toString metrics.walkForwardWindows, toString metrics.profitableWindows,
    host.reprFloat metrics.grossExpectancy, host.reprFloat metrics.estimatedCostPerTrade,
    host.reprFloat metrics.maximumDrawdown, host.reprFloat metrics.pValue]

theorem length_metricsFields (host : Host) (metrics : ValidationMetrics) :
    (metricsFields host metrics).length = metricsLabels.length := by
  simp only [metricsFields, metricsLabels, List.length_cons, List.length_nil]

theorem metrics_text (host : Host) (metrics : ValidationMetrics) :
    metrics.text host = "ValidationMetrics(trade_count=" ++
      Text.render metricsLabels (metricsFields host metrics) (toString metrics.testedHypotheses ++ ")") := by
  have hrender : ∀ s a b c d e f g h l₁ l₂ l₃ l₄ l₅ l₆ l₇ l₈ : String,
      s ++ a ++ l₁ ++ b ++ l₂ ++ c ++ l₃ ++ d ++ l₄ ++ e ++ l₅ ++ f ++ l₆ ++ g ++ l₇ ++ h ++ l₈ =
        s ++ Text.render [l₁, l₂, l₃, l₄, l₅, l₆, l₇] [a, b, c, d, e, f, g] (h ++ l₈) := by
    intros
    simp only [Text.render, String.append_assoc]
  exact hrender ..

/-- The labels of a policy, after the first. -/
def policyLabels : List String :=
  [", minimum_walk_forward_windows=", ", minimum_profitable_window_ratio=", ", minimum_net_expectancy=",
    ", maximum_drawdown=", ", family_wise_alpha="]

/-- The fields of a policy, but for the last. -/
def policyFields (host : Host) (policy : ValidationPolicy) : List String :=
  [toString policy.minimumTrades, toString policy.minimumWalkForwardWindows,
    host.reprFloat policy.minimumProfitableWindowRatio, host.reprFloat policy.minimumNetExpectancy,
    host.reprFloat policy.maximumDrawdown]

theorem length_policyFields (host : Host) (policy : ValidationPolicy) :
    (policyFields host policy).length = policyLabels.length := by
  simp only [policyFields, policyLabels, List.length_cons, List.length_nil]

theorem policy_text (host : Host) (policy : ValidationPolicy) :
    policy.text host = "ValidationPolicy(minimum_trades=" ++
      Text.render policyLabels (policyFields host policy) (host.reprFloat policy.familyWiseAlpha ++ ")") := by
  have hrender : ∀ s a b c d e f l₁ l₂ l₃ l₄ l₅ l₆ : String,
      s ++ a ++ l₁ ++ b ++ l₂ ++ c ++ l₃ ++ d ++ l₄ ++ e ++ l₅ ++ f ++ l₆ =
        s ++ Text.render [l₁, l₂, l₃, l₄, l₅] [a, b, c, d, e] (f ++ l₆) := by
    intros
    simp only [Text.render, String.append_assoc]
  exact hrender ..

variable (h : Tells host floats)

include h

theorem Tells.metricsFields_made {result : ValidationResult} (hfloats : floatsOf result ⊆ floats) :
    ∀ field ∈ metricsFields host result.metrics, Text.Made isFloatChar field := by
  intro field hfield
  simp only [metricsFields, List.mem_cons, List.not_mem_nil, or_false] at hfield
  rcases hfield with rfl | rfl | rfl | rfl | rfl | rfl | rfl
  · exact floatChar_toString _
  · exact floatChar_toString _
  · exact floatChar_toString _
  all_goals exact h.made _ (hfloats (by simp [floatsOf]))

theorem Tells.policyFields_made {result : ValidationResult} (hfloats : floatsOf result ⊆ floats) :
    ∀ field ∈ policyFields host result.policy, Text.Made isFloatChar field := by
  intro field hfield
  simp only [policyFields, List.mem_cons, List.not_mem_nil, or_false] at hfield
  rcases hfield with rfl | rfl | rfl | rfl | rfl
  · exact floatChar_toString _
  · exact floatChar_toString _
  all_goals exact h.made _ (hfloats (by simp [floatsOf]))

/-- **Metrics are told by their text.** -/
theorem Tells.metrics_inj {r r' : ValidationResult} (hr : floatsOf r ⊆ floats) (hr' : floatsOf r' ⊆ floats)
    (htext : r.metrics.text host = r'.metrics.text host) : r.metrics = r'.metrics := by
  rw [metrics_text, metrics_text] at htext
  obtain ⟨hfields, hrest⟩ := Text.render_inj (by decide +kernel) (length_metricsFields ..) (length_metricsFields ..)
    (h.metricsFields_made hr) (h.metricsFields_made hr') ((String.append_right_inj _).mp htext)
  have htested := Text.toString_inj ((String.append_left_inj _).mp hrest)
  simp only [metricsFields, List.cons.injEq, and_true] at hfields
  obtain ⟨h₁, h₂, h₃, h₄, h₅, h₆, h₇⟩ := hfields
  have hfloat : ∀ x ∈ floatsOf r, ∀ y ∈ floatsOf r', host.reprFloat x = host.reprFloat y → x = y :=
    fun x hx y hy => h.inj x (hr hx) y (hr' hy)
  cases hm : r.metrics
  cases hm' : r'.metrics
  simp only [floatsOf, hm, hm'] at h₁ h₂ h₃ h₄ h₅ h₆ h₇ htested hfloat
  rw [Text.toString_inj h₁, Text.toString_inj h₂, Text.toString_inj h₃, hfloat _ (by simp) _ (by simp) h₄,
    hfloat _ (by simp) _ (by simp) h₅, hfloat _ (by simp) _ (by simp) h₆, hfloat _ (by simp) _ (by simp) h₇, htested]

/-- **Policies are told by their text.** -/
theorem Tells.policy_inj {r r' : ValidationResult} (hr : floatsOf r ⊆ floats) (hr' : floatsOf r' ⊆ floats)
    (htext : r.policy.text host = r'.policy.text host) : r.policy = r'.policy := by
  rw [policy_text, policy_text] at htext
  obtain ⟨hfields, hrest⟩ := Text.render_inj (by decide +kernel) (length_policyFields ..) (length_policyFields ..)
    (h.policyFields_made hr) (h.policyFields_made hr') ((String.append_right_inj _).mp htext)
  have halpha := (String.append_left_inj _).mp hrest
  simp only [policyFields, List.cons.injEq, and_true] at hfields
  obtain ⟨h₁, h₂, h₃, h₄, h₅⟩ := hfields
  have hfloat : ∀ x ∈ floatsOf r, ∀ y ∈ floatsOf r', host.reprFloat x = host.reprFloat y → x = y :=
    fun x hx y hy => h.inj x (hr hx) y (hr' hy)
  cases hm : r.policy
  cases hm' : r'.policy
  simp only [floatsOf, hm, hm'] at h₁ h₂ h₃ h₄ h₅ halpha hfloat
  have e₁ := Text.toString_inj h₁
  have e₂ := Text.toString_inj h₂
  have e₃ := hfloat _ (by simp) _ (by simp) h₃
  have e₄ := hfloat _ (by simp) _ (by simp) h₄
  have e₅ := hfloat _ (by simp) _ (by simp) h₅
  have e₆ := hfloat _ (by simp) _ (by simp) halpha
  subst e₁ e₂ e₃ e₄ e₅ e₆
  rfl

/-- Metrics have no bar in their text. -/
theorem Tells.metrics_made {r : ValidationResult} (hr : floatsOf r ⊆ floats) :
    Text.Made (· ≠ '|') (r.metrics.text host) := by
  rw [metrics_text]
  refine Text.Made.append (by decide +kernel) (Text.render_made (by decide +kernel) ?_ ?_)
  · exact fun field hfield => (h.metricsFields_made hr field hfield).mono fun _ => ne_bar_of_isFloatChar
  · exact ((floatChar_toString _).mono fun _ => ne_bar_of_isFloatChar).append (by decide)

/-- **What an id tells**: the time, the metrics and the policy. -/
theorem Tells.of_id {r r' : ValidationResult} (hr : floatsOf r ⊆ floats) (hr' : floatsOf r' ⊆ floats)
    (ht : datetimeMin ≤ r.evaluatedAt) (ht' : datetimeMin ≤ r'.evaluatedAt) {identity identity' : StrategyIdentity}
    (hid : stableId host [identity.key host, isoformat r.evaluatedAt, r.metrics.text host, r.policy.text host] =
      stableId host [identity'.key host, isoformat r'.evaluatedAt, r'.metrics.text host, r'.policy.text host]) :
    r.evaluatedAt = r'.evaluatedAt ∧ r.metrics = r'.metrics ∧ r.policy = r'.policy := by
  have hjoin : ∀ a b c d : String, "|".intercalate [a, b, c, d] = Text.render ["|", "|", "|"] [a, b, c] d := by
    intro a b c d
    show a ++ "|" ++ b ++ "|" ++ c ++ "|" ++ d = _
    simp only [Text.render, String.append_assoc]
  have hmade : ∀ (identity : StrategyIdentity) (r : ValidationResult), floatsOf r ⊆ floats →
      ∀ field ∈ [identity.key host, isoformat r.evaluatedAt, r.metrics.text host], Text.Made (· ≠ '|') field := by
    intro identity r hr field hfield
    simp only [List.mem_cons, List.not_mem_nil, or_false] at hfield
    rcases hfield with rfl | rfl | rfl
    · intro c hc
      refine decide_eq_true ?_
      rintro rfl
      exact h.collisionFree.plain _ hc
    · exact isoformat_made _
    · exact h.metrics_made hr
  have htext := h.collisionFree.injective hid
  rw [hjoin, hjoin] at htext
  obtain ⟨hfields, hpolicy⟩ := Text.render_inj (by decide +kernel) (by simp only [List.length_cons, List.length_nil])
    (by simp only [List.length_cons, List.length_nil]) (hmade identity r hr) (hmade identity' r' hr') htext
  simp only [List.cons.injEq, and_true] at hfields
  exact ⟨isoformat_inj ht ht' hfields.2.1, h.metrics_inj hr hr' hfields.2.2, h.policy_inj hr hr' hpolicy⟩

end Texts

/-! ### The reasons of an evaluation -/

/-- The reasons that the gates can give, in their order. -/
def gateReasons : List String :=
  ["INSUFFICIENT_TRADES"] ++ ["INSUFFICIENT_WALK_FORWARD_WINDOWS", "UNSTABLE_WALK_FORWARD_PERFORMANCE"] ++
    ["NON_POSITIVE_COST_ADJUSTED_EXPECTANCY"] ++ ["MAXIMUM_DRAWDOWN_EXCEEDED"] ++ ["BONFERRONI_SIGNIFICANCE_FAILED"]

/-- The gates give each reason once. -/
theorem rejectionsOf_sublist (metrics : ValidationMetrics) (policy : ValidationPolicy) :
    (rejectionsOf metrics policy).Sublist gateReasons := by
  unfold rejectionsOf gateReasons
  refine ((((List.Sublist.append ?_ ?_).append ?_).append ?_).append ?_) <;> split_ifs <;> decide

theorem rejectionsOf_nodup (metrics : ValidationMetrics) (policy : ValidationPolicy) :
    (rejectionsOf metrics policy).Nodup := (rejectionsOf_sublist metrics policy).nodup (by decide)

section Reasons

variable {host : ResearchHost} {e : Evaluation} {r : ValidationResult}

theorem failures_sorted (e : Evaluation) : e.failures.Pairwise (· ≤ ·) ∧ e.failures.Nodup := by
  cases e with
  | gates => exact ⟨.nil, .nil⟩
  | nse campaign plugin candles readiness =>
    exact ⟨List.pairwise_insertionSort _ _, (List.perm_insertionSort _ _).nodup_iff.mpr (List.nodup_dedup _)⟩

/-- Readiness evidence that gives a reason gives one that no gate does. -/
theorem exists_failure (h : e.failures ≠ []) : ∃ reason ∈ e.failures, reason ∉ gateReasons := by
  cases e with
  | gates => exact absurd rfl h
  | nse campaign plugin candles readiness =>
    obtain ⟨reason, hreason⟩ := List.exists_mem_of_ne_nil _ h
    simp only [Evaluation.failures, readinessFailures] at hreason ⊢
    rw [List.mem_insertionSort, List.mem_dedup] at hreason
    rcases List.mem_append.mp hreason with hreason | hmissing
    · obtain ⟨item, hitem, -⟩ := List.mem_flatMap.mp hreason
      refine ⟨"DATA_NOT_READY", ?_, by decide⟩
      rw [List.mem_insertionSort, List.mem_dedup]
      exact List.mem_append_left _ (List.mem_flatMap.mpr ⟨item, hitem, List.mem_cons_self ..⟩)
    · refine ⟨reason, ?_, ?_⟩
      · rw [List.mem_insertionSort, List.mem_dedup]
        exact List.mem_append_right _ hmissing
      · split_ifs at hmissing
        · cases hmissing
        · rw [List.mem_singleton.mp hmissing]
          decide

/-- A validation of the gates. -/
theorem validateStrategy_eq {host : Host} {identity : StrategyIdentity} {metrics : ValidationMetrics}
    {policy : ValidationPolicy} {evaluatedAt : DateTime}
    (h : validateStrategy host identity metrics policy evaluatedAt = .ok r) :
    r.validationRunId = stableId host [identity.key host, isoformat r.evaluatedAt, r.metrics.text host, r.policy.text host] ∧
      r.identity = identity ∧ r.rejectionReasons = rejectionsOf r.metrics r.policy ∧
      r.passed = (rejectionsOf r.metrics r.policy).isEmpty := by
  unfold validateStrategy at h
  split_ifs at h
  obtain ⟨t, -, h⟩ := Effect.except_bind_eq_ok.mp h
  cases h
  exact ⟨rfl, rfl, rfl, rfl⟩

/-- **The validation of an evaluation**: its id is that of the gates, and the readiness failures are added. -/
theorem Evaluation.run_eq (h : e.run host = .ok r) :
    r.validationRunId = stableId host.toHost [e.identity.key host.toHost, isoformat r.evaluatedAt,
        r.metrics.text host.toHost, r.policy.text host.toHost] ∧
      r.identity = e.identity ∧
      r.rejectionReasons = rejectionsOf r.metrics r.policy ++ e.failures.filter (· ∉ rejectionsOf r.metrics r.policy) ∧
      r.passed = ((rejectionsOf r.metrics r.policy).isEmpty && e.failures.isEmpty) := by
  cases e with
  | gates identity metrics policy evaluatedAt =>
    obtain ⟨hid, hidentity, hreasons, hpassed⟩ := validateStrategy_eq h
    refine ⟨hid, hidentity, ?_, ?_⟩
    · rw [hreasons]
      exact (List.append_nil _).symm
    · rw [hpassed]
      exact (Bool.and_true _).symm
  | nse campaign plugin candles readiness =>
    simp only [Evaluation.run] at h
    cases hevidence : evaluateNseStrategy host campaign plugin candles readiness with
    | error error =>
      rw [hevidence] at h
      cases h
    | ok evidence =>
      rw [hevidence] at h
      cases h
      unfold evaluateNseStrategy at hevidence
      split_ifs at hevidence
      obtain ⟨ordered, -, hevidence⟩ := Effect.except_bind_eq_ok.mp hevidence
      obtain ⟨metrics, -, hevidence⟩ := Effect.except_bind_eq_ok.mp hevidence
      obtain ⟨validation, hvalidation, hevidence⟩ := Effect.except_bind_eq_ok.mp hevidence
      cases hevidence
      obtain ⟨hid, hidentity, hreasons, hpassed⟩ := validateStrategy_eq hvalidation
      simp only [Evaluation.identity, Evaluation.failures]
      have hfailures := (failures_sorted (.nse campaign plugin candles readiness)).2
      unfold withReadiness
      split_ifs with hnone
      · rw [hnone, hreasons, hpassed]
        exact ⟨hid, hidentity, (List.append_nil _).symm, (Bool.and_true _).symm⟩
      · refine ⟨hid, hidentity, ?_, ?_⟩
        · dsimp only
          rw [hreasons]
          exact eraseDups_append_of_nodup (rejectionsOf_nodup _ _) hfailures
        · simp [hnone]

end Reasons

/-- **When an id tells the validation**: two validations with the same id are equal if and only if they are of the same
strategy and the readiness evidence of the two evaluations gave the same reasons, besides those of the gates. -/
theorem same_run_id_iff (host : ResearchHost) {e e' : Evaluation} {r r' : ValidationResult}
    (hhost : Tells host.toHost (floatsOf r ++ floatsOf r')) (ht : datetimeMin ≤ r.evaluatedAt)
    (ht' : datetimeMin ≤ r'.evaluatedAt) (hrun : e.run host = .ok r) (hrun' : e'.run host = .ok r')
    (hid : r.validationRunId = r'.validationRunId) :
    r = r' ↔ e.identity = e'.identity ∧
      ∀ reason, reason ∉ rejectionsOf r.metrics r.policy → (reason ∈ e.failures ↔ reason ∈ e'.failures) := by
  obtain ⟨hmade, hidentity, hreasons, hpassed⟩ := Evaluation.run_eq hrun
  obtain ⟨hmade', hidentity', hreasons', hpassed'⟩ := Evaluation.run_eq hrun'
  obtain ⟨htime, hmetrics, hpolicy⟩ := hhost.of_id (List.subset_append_left _ _) (List.subset_append_right _ _) ht ht'
    (hmade.symm.trans (hid.trans hmade'))
  rw [← hmetrics, ← hpolicy] at hreasons' hpassed'
  generalize hgates : rejectionsOf r.metrics r.policy = gates at hreasons hpassed hreasons' hpassed' ⊢
  constructor
  · rintro rfl
    refine ⟨hidentity.symm.trans hidentity', fun reason hreason => ?_⟩
    have hmem : ∀ e : Evaluation, reason ∈ e.failures.filter (· ∉ gates) ↔ reason ∈ e.failures := by
      intro e
      simp [hreason]
    rw [← hmem e, ← hmem e', List.append_cancel_left (hreasons.symm.trans hreasons')]
  · rintro ⟨hsame, hfailures⟩
    have hadded : e.failures.filter (· ∉ gates) = e'.failures.filter (· ∉ gates) := by
      refine eq_of_sorted_of_mem_iff ((failures_sorted e).1.filter _) ((failures_sorted e').1.filter _)
        ((failures_sorted e).2.filter _) ((failures_sorted e').2.filter _) fun reason => ?_
      simp only [List.mem_filter, decide_eq_true_eq]
      exact and_congr_left fun hreason => hfailures reason hreason
    -- A failure that no gate gives is a failure of both.
    have hempty : ∀ {e e' : Evaluation}, (∀ reason, reason ∉ gates → (reason ∈ e.failures ↔ reason ∈ e'.failures)) →
        e'.failures = [] → e.failures = [] := by
      intro e e' hfailures hnone
      by_contra hsome
      obtain ⟨reason, hreason, hgate⟩ := exists_failure hsome
      have hnot : reason ∉ gates := by
        rw [← hgates]
        exact fun hmem => hgate ((rejectionsOf_sublist _ _).subset hmem)
      have hmem := (hfailures reason hnot).mp hreason
      rw [hnone] at hmem
      cases hmem
    have hboth : e.failures.isEmpty = e'.failures.isEmpty := by
      rw [Bool.eq_iff_iff, List.isEmpty_iff, List.isEmpty_iff]
      exact ⟨hempty fun reason hreason => (hfailures reason hreason).symm, hempty hfailures⟩
    rw [hadded, ← hreasons'] at hreasons
    rw [hboth, ← hpassed'] at hpassed
    cases r
    cases r'
    simp only at hid htime hmetrics hpolicy hreasons hpassed hidentity hidentity'
    subst hid htime hmetrics hpolicy hreasons hpassed hidentity hidentity'
    rw [hsame]

namespace RunSample

/-- Forty flat bars, and two that rise. -/
def candles : List SettledCandle :=
  ((List.range 40).map fun k => Sample.bar k 100) ++ [Sample.bar 40 110, Sample.bar 41 121]

/-- A campaign over the last of them. -/
def campaign : NseValidationCampaign where
  campaignId := "campaign-1"
  evaluatedAt := (Sample.bar 42 100).openTime
  requestedStart := (Sample.bar 39 100).openTime
  requestedEnd := (Sample.bar 41 100).openTime
  symbols := ["RELIANCE"]
  config :=
    { walkForwardWindows := 2, testedHypotheses := 1
      policy :=
        { minimumTrades := 2, minimumWalkForwardWindows := 2, familyWiseAlpha := 9 / 10, samples_pos := by decide,
          ratio_mem := ValidationPolicy.six_tenths_mem, alpha_mem := by decide +kernel } }

/-- Every timeframe is ready. -/
def ready : List NseReadinessEvidence :=
  requiredNseTimeframes.map fun timeframe => ⟨"RELIANCE", timeframe, true, []⟩

/-- The evaluation with that evidence, and without any. -/
def evaluation (readiness : List NseReadinessEvidence) : Evaluation := .nse campaign Sample.buyer candles readiness

/-- What the gates hash of the campaign's metrics, with the SHA-256 digests. -/
def digests : List (String × String) :=
  let strategy := "e1eac38d4e5e8a73912d2518c8abcc66133f9e341f1313c458f8dc45f52b1cda"
  [("nse|buyer|1.0.0|5m|intraday|2", strategy),
   (strategy ++ "|2026-08-15T15:30:00+00:00|ValidationMetrics(trade_count=2, walk_forward_windows=2, " ++
      "profitable_windows=2, gross_expectancy=0.1, estimated_cost_per_trade=0.0015, maximum_drawdown=0.0, p_value=0.25, " ++
      "tested_hypotheses=1)|ValidationPolicy(minimum_trades=2, minimum_walk_forward_windows=2, " ++
      "minimum_profitable_window_ratio=0.6, minimum_net_expectancy=0.0, maximum_drawdown=0.25, family_wise_alpha=0.9)",
    "0ecf55167501a6e89e92911464c8c35873a50344bf81fa1524d2732f3588c22b")]

/-- The characters of the table. -/
def spelling : Text.Spelling digests := by
  repeat' first | exact Text.Spelled.ofList _ | apply Text.Spelled.append | apply Text.Spelling.cons | exact Text.Spelling.nil

/-- The runtime with these digests. -/
def recorded : ResearchHost := { Host.recorded digests with dumpStr := Sample.host.dumpStr }

theorem recorded_eq : recorded = { Host.spelled spelling.chars with dumpStr := Sample.host.dumpStr } := by
  rw [recorded, Host.spelled_eq spelling]

/-- The validation of these metrics. -/
def passedRun : ValidationResult where
  validationRunId := "0ecf55167501a6e89e92911464c8c35873a50344bf81fa1524d2732f3588c22b"
  identity := Sample.buyer.definition.identity
  evaluatedAt := campaign.evaluatedAt
  passed := true
  rejectionReasons := []
  metrics := ⟨2, 2, 2, 1 / 10, 15 / 10000, 0, 1 / 4, 1⟩
  policy := campaign.config.policy

/-- The gates on these metrics. -/
def gates : Evaluation := .gates passedRun.identity passedRun.metrics passedRun.policy (.aware passedRun.evaluatedAt)

theorem tells : Tells recorded.toHost (floatsOf passedRun ++ floatsOf passedRun) where
  collisionFree := Host.recorded_collisionFree (spelling.nodup (by decide +kernel))
    (Sha256.hexdigest_of_spelling spelling (by decide +kernel))
  made := by decide +kernel
  inj := by decide +kernel

/-- The runtime of the samples, in a form that is evaluated quickly. -/
def evaluated : ResearchHost := { Host.evaluated with dumpStr := Sample.host.dumpStr }

theorem evaluated_eq : evaluated = Sample.host := by
  rw [evaluated, Host.evaluated_eq]
  rfl

end RunSample

/-- The gates on the same metrics give the same validation. -/
theorem gates_twice :
    ∃ r r', RunSample.gates.run RunSample.recorded = .ok r ∧ RunSample.gates.run RunSample.recorded = .ok r' ∧ r = r' := by
  have hrun : RunSample.gates.run RunSample.recorded = .ok RunSample.passedRun := by
    have hsome : (RunSample.gates.run RunSample.recorded).toOption = some RunSample.passedRun := by
      rw [RunSample.recorded_eq]
      decide +kernel
    cases hresult : RunSample.gates.run RunSample.recorded with
    | ok r =>
      rw [hresult] at hsome
      rw [Option.some.inj hsome]
    | error e =>
      rw [hresult] at hsome
      cases hsome
  refine ⟨_, _, hrun, hrun, ?_⟩
  exact (same_run_id_iff RunSample.recorded RunSample.tells (by decide +kernel) (by decide +kernel) hrun hrun rfl).mpr
    ⟨rfl, fun _ _ => Iff.rfl⟩

/-- **One id, two validations**: with the readiness evidence the run has passed, without it the run has failed, and the
registry does not take the second after the first. -/
theorem run_id_of_passed_and_failed :
    ∃ r ∈ ((RunSample.evaluation RunSample.ready).run Sample.host).toOption,
      ∃ r' ∈ ((RunSample.evaluation []).run Sample.host).toOption,
        r.validationRunId = r'.validationRunId ∧ r.passed = true ∧ r'.passed = false ∧
          ∃ artifacts ∈ (do (← ({} : Artifacts).register Sample.buyer.definition).recordValidation r).toOption,
            (artifacts.recordValidation r').toOption.isNone := by
  rw [← RunSample.evaluated_eq]
  decide +kernel

end NanoDelta.Validation
