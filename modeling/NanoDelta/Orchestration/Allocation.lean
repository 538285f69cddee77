import Mathlib.Algebra.Order.BigOperators.Group.List
import Mathlib.Algebra.Order.Field.Basic
import Mathlib.Tactic.Ring
import NanoDelta.DecisionsPostgres
import NanoDelta.Orchestration.DecisionPipeline

/-!
# Allocations and the limits they keep

The pipeline sizes an allocation at the reference price of its signal, and replaces
that price by the live quote when the quote has not drifted too far. The limits are
therefore kept exactly at the reference price, and at the final price up to the
drift that the policy admits.

* `allocations_keep_the_policy`: the limits of the policy for every run.
* `quote_above_the_limit`: a quote above the reference price, within the drift,
  takes the final notional over the order limit.
-/

namespace NanoDelta.Orchestration

open Library Strategies Decisions

/-- The reference price of the signal behind an allocation. -/
def PortfolioAllocation.referencePrice (allocation : PortfolioAllocation) : ℚ :=
  allocation.candidate.candidate.signal.referencePrice

/-- The notional of an allocation at the reference price. -/
def PortfolioAllocation.referenceNotional (allocation : PortfolioAllocation) : ℚ :=
  allocation.quantity * allocation.referencePrice

/-! ### Sizes -/

section Sizes

variable (policy : AllocationPolicy) (signal : StrategySignal)

theorem stopDistance_pos : 0 < |signal.referencePrice - signal.stopPrice| :=
  abs_pos.mpr (sub_ne_zero.mpr signal.stop_ne)

theorem sizeOf_pos : 0 < sizeOf policy signal := by
  have hcash : 0 < policy.riskCash := mul_pos policy.amounts_pos.1 policy.amounts_pos.2.1
  exact lt_min (div_pos hcash (stopDistance_pos signal))
    (div_pos policy.amounts_pos.2.2.1 signal.referencePrice_pos)

theorem sizeOf_mul_referencePrice_le : sizeOf policy signal * signal.referencePrice ≤ policy.maxOrderNotional :=
  (le_div_iff₀ signal.referencePrice_pos).mp (min_le_right _ _)

theorem sizeOf_mul_stopDistance_le :
    sizeOf policy signal * |signal.referencePrice - signal.stopPrice| ≤ policy.riskCash :=
  (le_div_iff₀ (stopDistance_pos signal)).mp (min_le_left _ _)

end Sizes

/-! ### The two stages -/

section Stages

variable {host : Host} {Λ : Type} {self : StagedDecisionPipeline Λ} {cycleId : String} {t : Instant}

/-- What the loop of `_allocate` keeps: the allocations are sized at the reference price, and their
notional is counted and within the total. -/
def Sized (policy : AllocationPolicy) (chosen : Allocating) : Prop :=
  (∀ a ∈ chosen.allocations, a = allocationOf policy a.candidate) ∧
  chosen.totalNotional = (chosen.allocations.map PortfolioAllocation.notional).sum ∧
  chosen.totalNotional ≤ policy.maxTotalNewNotional

/-- One candidate either changes nothing or, if its symbol is not held, adds its allocation, within the
total. -/
theorem allocateOne_cases {existingSymbols : List (Market × String)} {correlations : Dict (String × String) ℚ}
    {chosen chosen' : Allocating} {item : ScoredCandidate} {c c' : Cycle Λ}
    (h : allocateOne host self cycleId t existingSymbols correlations chosen item c = .ok chosen' c') :
    chosen' = chosen ∨
    (item.key ∉ existingSymbols ∧
      chosen.totalNotional + (allocationOf self.policy item).notional ≤ self.policy.maxTotalNewNotional ∧
      chosen'.allocations = chosen.allocations ++ [allocationOf self.policy item] ∧
      chosen'.totalNotional = chosen.totalNotional + (allocationOf self.policy item).notional) := by
  have hreject : ∀ {reason : String},
      (do portfolioReject host self cycleId t item reason; return chosen : EStateM PyError (Cycle Λ) Allocating) c =
        .ok chosen' c' → chosen' = chosen := by
    intro reason h
    obtain ⟨_, _, -, h⟩ := Effect.bind_eq_ok.mp h
    cases h
    rfl
  unfold allocateOne at h
  simp only at h
  split_ifs at h with h₁ h₂ h₃ h₄ h₅ h₆
  · exact Or.inl (hreject h)
  · exact Or.inl (hreject h)
  · exact Or.inl (hreject h)
  · exact Or.inl (hreject h)
  · exact Or.inl (hreject h)
  · exact Or.inl (hreject h)
  · obtain ⟨_, _, -, h⟩ := Effect.bind_eq_ok.mp h
    cases h
    exact Or.inr ⟨h₁, not_lt.mp h₆, rfl, rfl⟩

theorem sized_step {existingSymbols : List (Market × String)} {correlations : Dict (String × String) ℚ}
    {chosen chosen' : Allocating} {item : ScoredCandidate} {c c' : Cycle Λ} (hs : Sized self.policy chosen)
    (h : allocateOne host self cycleId t existingSymbols correlations chosen item c = .ok chosen' c') :
    Sized self.policy chosen' := by
  rcases allocateOne_cases h with rfl | ⟨-, hle, hallocations, htotal⟩
  · exact hs
  · obtain ⟨hsized, hsum, -⟩ := hs
    refine ⟨?_, ?_, ?_⟩
    · intro a ha
      rw [hallocations] at ha
      rcases List.mem_append.mp ha with ha | ha
      · exact hsized a ha
      · rw [List.mem_singleton.mp ha]
        rfl
    · rw [htotal, hallocations, hsum]
      simp
    · rw [htotal]
      exact hle

/-- `_allocate` keeps the limits at the reference price. -/
theorem allocate_sized {candidates : List ScoredCandidate} {existingSymbols : List (Market × String)}
    {correlations : Dict (String × String) ℚ} {allocations : List PortfolioAllocation} {c c' : Cycle Λ}
    (h : allocate host self cycleId t candidates existingSymbols correlations c = .ok allocations c') :
    (∀ a ∈ allocations, a = allocationOf self.policy a.candidate) ∧
    (allocations.map PortfolioAllocation.notional).sum ≤ self.policy.maxTotalNewNotional := by
  rw [allocate, Effect.map_eq_ok] at h
  obtain ⟨chosen, hfold, rfl⟩ := h
  have hstart : Sized self.policy ⟨[], .empty, 0⟩ :=
    ⟨by simp, by simp, self.policy.amounts_pos.2.2.2.le⟩
  obtain ⟨hsized, hsum, hle⟩ :=
    Effect.foldlM_invariant (fun _ _ _ _ _ _ hs h => sized_step hs h) hstart hfold
  exact ⟨hsized, hsum ▸ hle⟩

/-- What `_revalidate` makes of an allocation: the same one at a quote within the drift. -/
def Revalidated (policy : AllocationPolicy) (a b : PortfolioAllocation) : Prop :=
  ∃ quote, b = { a with expectedEntryPrice := quote } ∧ 0 < quote ∧
    |quote - a.referencePrice| ≤ policy.maximumEntryDriftFraction * a.referencePrice

theorem revalidateOne_some {quotes : Dict (Market × String) ℚ} {a b : PortfolioAllocation} {c c' : Cycle Λ}
    (h : revalidateOne host self cycleId t quotes a c = .ok (some b) c') : Revalidated self.policy a b := by
  have hreject : ∀ {reason : String} {observed : Option ℚ},
      (do entryReject host self cycleId t a reason observed; return none :
        EStateM PyError (Cycle Λ) (Option PortfolioAllocation)) c ≠ .ok (some b) c' := by
    intro reason observed h
    obtain ⟨_, _, -, h⟩ := Effect.bind_eq_ok.mp h
    cases h
  unfold revalidateOne at h
  cases hquote : quotes.get? a.candidate.key with
  | none =>
    simp only [hquote] at h
    exact absurd h hreject
  | some quote =>
    simp only [hquote] at h
    split_ifs at h with h₁ h₂ h₃
    · exact absurd h hreject
    · exact absurd h hreject
    · exact absurd h hreject
    · obtain ⟨_, _, -, h⟩ := Effect.bind_eq_ok.mp h
      cases h
      exact ⟨quote, rfl, not_le.mp h₁, (div_le_iff₀ a.candidate.candidate.signal.referencePrice_pos).mp (not_lt.mp h₂)⟩

/-- The allocations of a run are what `_revalidate` made of what `_allocate` chose. -/
theorem run_allocations {contexts : List StrategyContext} {preconditions : CyclePreconditions}
    {evaluatedAt : DateTime} {liveQuotes : Dict (Market × String) ℚ} {existingSymbols : List (Market × String)}
    {correlations : Dict (String × String) ℚ} {ledger ledger' : Λ} {result : PipelineResult}
    (h : run host self contexts preconditions evaluatedAt liveQuotes existingSymbols correlations ledger =
      .ok result ledger') :
    ∃ chosen, (∀ a ∈ chosen, a = allocationOf self.policy a.candidate) ∧
      (chosen.map PortfolioAllocation.notional).sum ≤ self.policy.maxTotalNewNotional ∧
      List.Forall₂ (Revalidated self.policy) chosen result.allocations := by
  unfold run at h
  cases evaluatedAt with
  | naive w => cases h
  | aware t =>
    obtain ⟨c, hcycle, -⟩ := Effect.project_eq_ok.mp h
    unfold cycle at hcycle
    obtain ⟨_, c₁, -, hcycle⟩ := Effect.bind_eq_ok.mp hcycle
    split_ifs at hcycle with hmode
    · obtain ⟨_, _, -, hcycle⟩ := Effect.bind_eq_ok.mp hcycle
      cases hcycle
      exact ⟨[], by simp, self.policy.amounts_pos.2.2.2.le, .nil⟩
    · unfold stages at hcycle
      obtain ⟨_, _, -, hcycle⟩ := Effect.bind_eq_ok.mp hcycle
      obtain ⟨_, _, -, hcycle⟩ := Effect.bind_eq_ok.mp hcycle
      obtain ⟨_, _, -, hcycle⟩ := Effect.bind_eq_ok.mp hcycle
      obtain ⟨_, _, -, hcycle⟩ := Effect.bind_eq_ok.mp hcycle
      obtain ⟨allocations, c₂, hallocate, hcycle⟩ := Effect.bind_eq_ok.mp hcycle
      obtain ⟨valid, c₃, hrevalidate, hcycle⟩ := Effect.bind_eq_ok.mp hcycle
      cases hcycle
      obtain ⟨hsized, htotal⟩ := allocate_sized hallocate
      obtain ⟨chosen, hsub, hvalid⟩ :=
        Effect.collect_sublist (R := Revalidated self.policy) (fun _ _ _ _ h => revalidateOne_some h) hrevalidate
      refine ⟨chosen, fun a ha => hsized a (hsub.subset ha), le_trans ?_ htotal, hvalid⟩
      -- the allocations that were dropped had a positive notional
      refine List.Sublist.sum_le_sum (hsub.map _) ?_
      intro x hx
      obtain ⟨a, ha, rfl⟩ := List.mem_map.mp hx
      rw [hsized a ha]
      exact (mul_pos (sizeOf_pos _ _) a.candidate.candidate.signal.referencePrice_pos).le

end Stages

/-! ### The limits at the final price -/

section Limits

variable {policy : AllocationPolicy} {a b : PortfolioAllocation}

/-- The limits of one allocation: at the reference price, and at the final price up to the drift. -/
structure WithinLimits (policy : AllocationPolicy) (b : PortfolioAllocation) : Prop where
  /-- The final price is within the drift. -/
  drift : |b.expectedEntryPrice - b.referencePrice| ≤ policy.maximumEntryDriftFraction * b.referencePrice
  /-- The order limit at the reference price. -/
  order : b.referenceNotional ≤ policy.maxOrderNotional
  /-- The order limit at the final price. -/
  finalOrder : b.notional ≤ policy.maxOrderNotional * (1 + policy.maximumEntryDriftFraction)
  /-- The risk limit at the reference price. -/
  risk : b.quantity * |b.referencePrice - b.stopPrice| ≤ policy.equity * policy.riskFractionPerTrade
  /-- The risk limit at the final price. -/
  finalRisk : b.quantity * |b.expectedEntryPrice - b.stopPrice| ≤
    policy.equity * policy.riskFractionPerTrade + policy.maximumEntryDriftFraction * b.referenceNotional
  /-- A final price that is not above the reference price keeps the order limit itself. -/
  orderKept : b.expectedEntryPrice ≤ b.referencePrice → b.notional ≤ policy.maxOrderNotional
  /-- A final price that is not farther from the stop keeps the risk limit itself. -/
  riskKept : |b.expectedEntryPrice - b.stopPrice| ≤ |b.referencePrice - b.stopPrice| →
    b.quantity * |b.expectedEntryPrice - b.stopPrice| ≤ policy.equity * policy.riskFractionPerTrade

/-- The notional at the final price, against that at the reference price. -/
theorem notional_le_of_revalidated (hq : 0 ≤ a.quantity) (h : Revalidated policy a b) :
    b.notional ≤ a.referenceNotional * (1 + policy.maximumEntryDriftFraction) := by
  obtain ⟨quote, rfl, -, hdrift⟩ := h
  have hquote : quote ≤ a.referencePrice * (1 + policy.maximumEntryDriftFraction) := by
    have := (abs_le.mp hdrift).2
    linarith
  calc a.quantity * quote
      ≤ a.quantity * (a.referencePrice * (1 + policy.maximumEntryDriftFraction)) :=
        mul_le_mul_of_nonneg_left hquote hq
    _ = a.referenceNotional * (1 + policy.maximumEntryDriftFraction) := by
        unfold PortfolioAllocation.referenceNotional; ring

theorem withinLimits_of_revalidated (ha : a = allocationOf policy a.candidate) (h : Revalidated policy a b) :
    WithinLimits policy b := by
  have hq : 0 ≤ a.quantity := by
    rw [ha]
    exact (sizeOf_pos _ _).le
  have horder : a.referenceNotional ≤ policy.maxOrderNotional := by
    rw [ha]
    exact sizeOf_mul_referencePrice_le _ _
  have hrisk : a.quantity * |a.referencePrice - a.stopPrice| ≤ policy.equity * policy.riskFractionPerTrade := by
    rw [ha]
    exact sizeOf_mul_stopDistance_le _ _
  have hδ : 0 ≤ 1 + policy.maximumEntryDriftFraction := by linarith [policy.revalidation.1]
  have hfinal := notional_le_of_revalidated hq h
  obtain ⟨quote, rfl, -, hdrift⟩ := h
  refine ⟨hdrift, horder, hfinal.trans (mul_le_mul_of_nonneg_right horder hδ), hrisk, ?_, ?_, ?_⟩
  · have htriangle : |quote - a.stopPrice| ≤ |a.referencePrice - a.stopPrice| + |quote - a.referencePrice| := by
      rw [add_comm]
      exact abs_sub_le quote a.referencePrice a.stopPrice
    calc a.quantity * |quote - a.stopPrice|
        ≤ a.quantity * (|a.referencePrice - a.stopPrice| + |quote - a.referencePrice|) :=
          mul_le_mul_of_nonneg_left htriangle hq
      _ ≤ a.quantity * |a.referencePrice - a.stopPrice| +
            a.quantity * (policy.maximumEntryDriftFraction * a.referencePrice) := by
          rw [mul_add]
          exact add_le_add_right (mul_le_mul_of_nonneg_left hdrift hq) _
      _ ≤ policy.equity * policy.riskFractionPerTrade +
            policy.maximumEntryDriftFraction * a.referenceNotional := by
          unfold PortfolioAllocation.referenceNotional
          linarith
  · exact fun hle => (mul_le_mul_of_nonneg_left hle hq).trans horder
  · exact fun hle => (mul_le_mul_of_nonneg_left hle hq).trans hrisk

/-- Sums of notionals, allocation by allocation. -/
theorem sum_notional_le {chosen valid : List PortfolioAllocation}
    (hchosen : ∀ a ∈ chosen, a = allocationOf policy a.candidate)
    (h : List.Forall₂ (Revalidated policy) chosen valid) :
    (valid.map PortfolioAllocation.referenceNotional).sum = (chosen.map PortfolioAllocation.notional).sum ∧
    (valid.map PortfolioAllocation.notional).sum ≤
      (chosen.map PortfolioAllocation.notional).sum * (1 + policy.maximumEntryDriftFraction) ∧
    ((∀ b ∈ valid, b.expectedEntryPrice ≤ b.referencePrice) →
      (valid.map PortfolioAllocation.notional).sum ≤ (chosen.map PortfolioAllocation.notional).sum) := by
  induction h with
  | nil => simp
  | @cons a b chosen valid hab _ ih =>
    have ha := hchosen a (List.mem_cons_self ..)
    obtain ⟨ih₁, ih₂, ih₃⟩ := ih fun a' ha' => hchosen a' (List.mem_cons_of_mem _ ha')
    have hq : 0 ≤ a.quantity := by
      rw [ha]
      exact (sizeOf_pos _ _).le
    have hnotional : a.notional = a.referenceNotional := by
      rw [ha]
      rfl
    have hle := notional_le_of_revalidated hq hab
    have hreference : b.referenceNotional = a.referenceNotional := by
      obtain ⟨quote, rfl, -, -⟩ := hab
      rfl
    simp only [List.map_cons, List.sum_cons]
    refine ⟨by rw [ih₁, hreference, hnotional], by rw [hnotional]; linarith, ?_⟩
    intro hbelow
    have hb : b.notional ≤ b.referenceNotional := by
      have := hbelow b (List.mem_cons_self ..)
      obtain ⟨quote, rfl, -, -⟩ := hab
      exact mul_le_mul_of_nonneg_left this hq
    have hrest := ih₃ fun b' hb' => hbelow b' (List.mem_cons_of_mem _ hb')
    rw [hnotional, ← hreference]
    linarith

end Limits

/-- **Allocations keep the policy.** In every run: each allocation keeps the order and the risk limit
at the reference price of its signal, and at its final price up to the admitted drift, exactly so if
the quote did not move against the limit; and so does the sum of the notionals. -/
theorem allocations_keep_the_policy (host : Host) {Λ : Type} (self : StagedDecisionPipeline Λ)
    (contexts : List StrategyContext) (preconditions : CyclePreconditions) (evaluatedAt : DateTime)
    (liveQuotes : Dict (Market × String) ℚ) (existingSymbols : List (Market × String))
    (correlations : Dict (String × String) ℚ) (ledger ledger' : Λ) (result : PipelineResult)
    (h : run host self contexts preconditions evaluatedAt liveQuotes existingSymbols correlations ledger =
      .ok result ledger') :
    (∀ b ∈ result.allocations, WithinLimits self.policy b) ∧
    (result.allocations.map PortfolioAllocation.referenceNotional).sum ≤ self.policy.maxTotalNewNotional ∧
    (result.allocations.map PortfolioAllocation.notional).sum ≤
      self.policy.maxTotalNewNotional * (1 + self.policy.maximumEntryDriftFraction) ∧
    ((∀ b ∈ result.allocations, b.expectedEntryPrice ≤ b.referencePrice) →
      (result.allocations.map PortfolioAllocation.notional).sum ≤ self.policy.maxTotalNewNotional) := by
  obtain ⟨chosen, hsized, htotal, hvalid⟩ := run_allocations h
  obtain ⟨hreference, hfinal, hbelow⟩ := sum_notional_le hsized hvalid
  have hδ : 0 ≤ 1 + self.policy.maximumEntryDriftFraction := by linarith [self.policy.revalidation.1]
  refine ⟨?_, hreference ▸ htotal, hfinal.trans (mul_le_mul_of_nonneg_right htotal hδ), ?_⟩
  · intro b hb
    obtain ⟨a, ha, hab⟩ := Effect.exists_of_forall₂ hvalid hb
    exact withinLimits_of_revalidated (hsized a ha) hab
  · exact fun hall => (hbelow hall).trans htotal

/-! ### A quote above the reference price -/

namespace Sample

open Risk.Sample

/-- A policy whose order, total and risk limits all bind at 100 shares of a price of 100. -/
def policy : AllocationPolicy where
  equity := 20000
  riskFractionPerTrade := 1 / 100
  maxOrderNotional := 10000
  maxTotalNewNotional := 10000
  maxPositions := 5
  maxSectorPositions := 5
  amounts_pos := by decide +kernel
  counts_pos := by decide
  correlation_mem := by decide +kernel
  revalidation := by decide +kernel

/-- A cycle with one bar, and a quote. -/
def quoted (quote : ℚ) : EStateM PyError ControlTables PipelineResult :=
  run Host.cpython (pipeline PostgresDecisionLedger.ledger policy) [context "RELIANCE" "gold-1" (by decide)]
    ⟨true, true, true, true⟩ now (Dict.empty.set (.nse, "RELIANCE") quote) [] .empty

end Sample

/-- With the quote at the reference price, the one allocation of the cycle uses up the limits. -/
theorem quote_at_the_limit :
    ∃ result tables, Sample.quoted 100 {} = .ok result tables ∧
      (∀ b ∈ result.allocations, WithinLimits Sample.policy b) ∧
      result.allocations.map PortfolioAllocation.notional = [10000] := by
  have hrun : ∃ result ∈ Effect.returned (Sample.quoted 100 {}),
      result.allocations.map PortfolioAllocation.notional = [10000] := by
    simp only [Sample.quoted, ← Host.evaluated_eq]
    decide +kernel
  obtain ⟨result, hreturned, hnotional⟩ := hrun
  obtain ⟨tables, hok⟩ := Effect.returned_eq_some.mp hreturned
  exact ⟨result, tables, hok, (allocations_keep_the_policy _ _ _ _ _ _ _ _ _ _ _ hok).1, hnotional⟩

/-- A quote of 100.2, two thousandths above the reference price and within the drift, takes the one
allocation of the cycle over the total, the order limit and the risk limit. -/
theorem quote_above_the_limit :
    ∃ result tables, Sample.quoted (1002 / 10) {} = .ok result tables ∧
      Sample.policy.maxTotalNewNotional < (result.allocations.map PortfolioAllocation.notional).sum ∧
      ∃ b ∈ result.allocations, Sample.policy.maxOrderNotional < b.quantity * b.expectedEntryPrice ∧
        Sample.policy.equity * Sample.policy.riskFractionPerTrade <
          b.quantity * |b.expectedEntryPrice - b.stopPrice| := by
  have hrun : ∃ result ∈ Effect.returned (Sample.quoted (1002 / 10) {}),
      Sample.policy.maxTotalNewNotional < (result.allocations.map PortfolioAllocation.notional).sum ∧
      ∃ b ∈ result.allocations, Sample.policy.maxOrderNotional < b.quantity * b.expectedEntryPrice ∧
        Sample.policy.equity * Sample.policy.riskFractionPerTrade <
          b.quantity * |b.expectedEntryPrice - b.stopPrice| := by
    simp only [Sample.quoted, ← Host.evaluated_eq]
    decide +kernel
  obtain ⟨result, hreturned, hover⟩ := hrun
  obtain ⟨tables, hok⟩ := Effect.returned_eq_some.mp hreturned
  exact ⟨result, tables, hok, hover⟩

end NanoDelta.Orchestration
