import NanoDelta.Library.Greedy
import NanoDelta.Orchestration.Allocation

/-!
# The portfolio that is chosen

`_allocate` goes through the scored candidates once, and counts as it goes: the symbols, the sectors and the notional of
what it has chosen. What it chooses is the greedy choice of the candidates that its policy admits.

* `Admissible`: the policy admits a candidate beside what is chosen.
* `allocate_greedy`: `_allocate` is the greedy choice.
* `portfolio_holds`: what the policy says of the whole choice, and why a candidate is left out.
-/

namespace NanoDelta.Orchestration

open Library Strategies Decisions

/-- The symbol of an allocation. -/
def PortfolioAllocation.symbol (allocation : PortfolioAllocation) : String := allocation.candidate.candidate.symbol

/-- The sector of an allocation. -/
def PortfolioAllocation.sector (allocation : PortfolioAllocation) : String := sectorOf allocation.candidate.candidate

/-- The value is recorded for a pair of symbols, in one order or the other. -/
def Recorded (correlations : Dict (String × String) ℚ) (symbol other : String) (value : ℚ) : Prop :=
  correlations.get? (symbol, other) = some value ∨ correlations.get? (other, symbol) = some value

/-- Every pair is recorded in one order at most. -/
def RecordedOnce (correlations : Dict (String × String) ℚ) : Prop :=
  ∀ symbol other, symbol ≠ other → correlations.get? (symbol, other) = none ∨ correlations.get? (other, symbol) = none

section Policy

variable (policy : AllocationPolicy) (existingSymbols : List (Market × String))
  (correlations : Dict (String × String) ℚ)

/-- The policy admits a candidate beside what is chosen. -/
structure Admissible (chosen : List PortfolioAllocation) (item : ScoredCandidate) : Prop where
  notHeld : item.key ∉ existingSymbols
  newSymbol : ∀ a ∈ chosen, a.symbol ≠ item.candidate.symbol
  capacity : chosen.length < policy.maxPositions
  sector : chosen.countP (fun a => a.sector = sectorOf item.candidate) < policy.maxSectorPositions
  correlation : ∀ a ∈ chosen, ∀ value, Recorded correlations item.candidate.symbol a.symbol value →
    |value| ≤ policy.maxPairwiseCorrelation
  capital : (chosen.map PortfolioAllocation.notional).sum + (allocationOf policy item).notional ≤
    policy.maxTotalNewNotional

/-- What the policy says of the whole choice. -/
structure Portfolio (allocations : List PortfolioAllocation) : Prop where
  capacity : allocations.length ≤ policy.maxPositions
  sectors : ∀ sector, allocations.countP (fun a => a.sector = sector) ≤ policy.maxSectorPositions
  symbols : allocations.Pairwise fun a b => a.symbol ≠ b.symbol
  notHeld : ∀ a ∈ allocations, a.candidate.key ∉ existingSymbols
  correlations : allocations.Pairwise fun a b => ∀ value, Recorded correlations a.symbol b.symbol value →
    |value| ≤ policy.maxPairwiseCorrelation
  price : ∀ a ∈ allocations, a.expectedEntryPrice = a.referencePrice
  quantity : ∀ a ∈ allocations, 0 < a.quantity
  order : ∀ a ∈ allocations, a.notional ≤ policy.maxOrderNotional
  risk : ∀ a ∈ allocations, a.quantity * |a.expectedEntryPrice - a.stopPrice| ≤
    policy.equity * policy.riskFractionPerTrade
  total : (allocations.map PortfolioAllocation.notional).sum ≤ policy.maxTotalNewNotional

/-- The variables of the loop say what is chosen. -/
structure Counted (chosen : Allocating) : Prop where
  sectors : ∀ sector, (chosen.sectors.get? sector).getD 0 = chosen.allocations.countP fun a => a.sector = sector
  total : chosen.totalNotional = (chosen.allocations.map PortfolioAllocation.notional).sum

end Policy

section Allocate

variable {host : Host} {Λ : Type} {self : StagedDecisionPipeline Λ} {cycleId : String} {t : Instant}
  {policy : AllocationPolicy} {existingSymbols : List (Market × String)} {correlations : Dict (String × String) ℚ}
  {chosen chosen' : Allocating} {item : ScoredCandidate}

theorem recorded_comm {symbol other : String} {value : ℚ} :
    Recorded correlations symbol other value ↔ Recorded correlations other symbol value := or_comm

/-- With a pair recorded once, what `_correlated` looks up is what is recorded, or zero. -/
theorem abs_correlationOf_le_iff (honce : RecordedOnce correlations) {symbol other : String} (hne : symbol ≠ other)
    {limit : ℚ} (hlimit : 0 ≤ limit) :
    |correlationOf correlations symbol other| ≤ limit ↔
      ∀ value, Recorded correlations symbol other value → |value| ≤ limit := by
  unfold correlationOf Recorded
  rcases honce symbol other hne with hnone | hnone
  · cases hother : correlations.get? (other, symbol) with
    | none => simp [hnone, hlimit]
    | some value => simp [hnone]
  · cases hsymbol : correlations.get? (symbol, other) with
    | none => simp [hnone, hlimit]
    | some value => simp [hnone]

variable (policy existingSymbols item) in
/-- The tests of the loop, with the counts as they are. -/
theorem admissible_iff (honce : RecordedOnce correlations) (hcounted : Counted chosen) :
    Admissible policy existingSymbols correlations chosen.allocations item ↔
      item.key ∉ existingSymbols ∧
      ¬ (chosen.allocations.any fun a => a.candidate.candidate.symbol = item.candidate.symbol) = true ∧
      ¬ policy.maxPositions ≤ chosen.allocations.length ∧
      ¬ policy.maxSectorPositions ≤ (chosen.sectors.get? (sectorOf item.candidate)).getD 0 ∧
      ¬ correlated policy item.candidate.symbol chosen.allocations correlations = true ∧
      ¬ policy.maxTotalNewNotional < chosen.totalNotional + (allocationOf policy item).notional := by
  have hsymbols : (¬ (chosen.allocations.any fun a => a.candidate.candidate.symbol = item.candidate.symbol) = true) ↔
      ∀ a ∈ chosen.allocations, a.symbol ≠ item.candidate.symbol := by
    simp [PortfolioAllocation.symbol]
  have hcorrelated : (∀ a ∈ chosen.allocations, a.symbol ≠ item.candidate.symbol) →
      ((¬ correlated policy item.candidate.symbol chosen.allocations correlations = true) ↔
        ∀ a ∈ chosen.allocations, ∀ value, Recorded correlations item.candidate.symbol a.symbol value →
          |value| ≤ policy.maxPairwiseCorrelation) := by
    intro hne
    simp only [correlated, List.any_eq_true, decide_eq_true_eq, not_exists, not_and, not_lt]
    apply forall₂_congr
    intro a ha
    exact abs_correlationOf_le_iff honce (hne a ha).symm policy.correlation_mem.1
  rw [hsymbols, not_le, not_le, not_lt, hcounted.sectors, hcounted.total]
  constructor
  · intro h
    exact ⟨h.notHeld, h.newSymbol, h.capacity, h.sector, (hcorrelated h.newSymbol).mpr h.correlation, h.capital⟩
  · rintro ⟨hheld, hnew, hcapacity, hsector, hcorrelation, hcapital⟩
    exact ⟨hheld, hnew, hcapacity, hsector, (hcorrelated hnew).mp hcorrelation, hcapital⟩

/-- **One candidate**: its allocation is added exactly if the policy admits it. -/
theorem allocateOne_admits (honce : RecordedOnce correlations) (hcounted : Counted chosen) {c c' : Cycle Λ}
    (h : allocateOne host self cycleId t existingSymbols correlations chosen item c = .ok chosen' c') :
    Counted chosen' ∧
      (Admissible self.policy existingSymbols correlations chosen.allocations item ∧
          chosen'.allocations = chosen.allocations ++ [allocationOf self.policy item] ∨
        ¬ Admissible self.policy existingSymbols correlations chosen.allocations item ∧
          chosen'.allocations = chosen.allocations) := by
  have hreject : ∀ {reason : String},
      (do portfolioReject host self cycleId t item reason; return chosen : EStateM PyError (Cycle Λ) Allocating) c =
        .ok chosen' c' → ¬ Admissible self.policy existingSymbols correlations chosen.allocations item →
      Counted chosen' ∧
        (Admissible self.policy existingSymbols correlations chosen.allocations item ∧
            chosen'.allocations = chosen.allocations ++ [allocationOf self.policy item] ∨
          ¬ Admissible self.policy existingSymbols correlations chosen.allocations item ∧
            chosen'.allocations = chosen.allocations) := by
    intro reason h hno
    obtain ⟨_, _, -, h⟩ := Effect.bind_eq_ok.mp h
    cases h
    exact ⟨hcounted, Or.inr ⟨hno, rfl⟩⟩
  have htests := admissible_iff self.policy existingSymbols item honce hcounted
  unfold allocateOne at h
  dsimp only at h
  split_ifs at h with hheld hsymbol hcapacity hsector hcorrelated hcapital
  · exact hreject h fun hok => hok.notHeld hheld
  · exact hreject h fun hok => (htests.mp hok).2.1 hsymbol
  · exact hreject h fun hok => (htests.mp hok).2.2.1 hcapacity
  · exact hreject h fun hok => (htests.mp hok).2.2.2.1 hsector
  · exact hreject h fun hok => (htests.mp hok).2.2.2.2.1 hcorrelated
  · exact hreject h fun hok => (htests.mp hok).2.2.2.2.2 hcapital
  · obtain ⟨_, _, -, h⟩ := Effect.bind_eq_ok.mp h
    cases h
    refine ⟨⟨fun sector => ?_, ?_⟩,
      Or.inl ⟨htests.mpr ⟨hheld, hsymbol, hcapacity, hsector, hcorrelated, hcapital⟩, rfl⟩⟩
    · show ((chosen.sectors.set (sectorOf item.candidate) _).get? sector).getD 0 = _
      have hsectorOf : (allocationOf self.policy item).sector = sectorOf item.candidate := rfl
      rw [Dict.get?_set, List.countP_append, List.countP_singleton, hsectorOf, ← hcounted.sectors]
      by_cases hsame : sector = sectorOf item.candidate
      · simp [hsame]
      · simp [hsame, Ne.symm hsame]
    · show chosen.totalNotional + _ = _
      rw [hcounted.total]
      simp

/-- **The loop** is the greedy choice. -/
theorem allocate_greedy (honce : RecordedOnce correlations) {candidates : List ScoredCandidate}
    {allocations : List PortfolioAllocation} {c c' : Cycle Λ}
    (h : allocate host self cycleId t candidates existingSymbols correlations c = .ok allocations c') :
    Greedy (Admissible self.policy existingSymbols correlations) (allocationOf self.policy) [] candidates allocations := by
  rw [allocate, Effect.map_eq_ok] at h
  obtain ⟨chosen, hfold, rfl⟩ := h
  have hstart : Counted ⟨[], .empty, 0⟩ := ⟨fun _ => rfl, rfl⟩
  exact Greedy.of_foldlM (fun _ _ _ _ _ hcounted h => allocateOne_admits honce hcounted h) hstart hfold

/-- The policy holds of nothing. -/
theorem portfolio_nil : Portfolio policy existingSymbols correlations [] := by
  constructor <;> simp [policy.amounts_pos.2.2.2.le]

/-- **An admissible candidate** keeps what the policy says. -/
theorem Portfolio.concat {allocations : List PortfolioAllocation}
    (h : Portfolio policy existingSymbols correlations allocations)
    (hok : Admissible policy existingSymbols correlations allocations item) :
    Portfolio policy existingSymbols correlations (allocations ++ [allocationOf policy item]) := by
  -- What is said of each allocation is said of the new one.
  have heach : ∀ {P : PortfolioAllocation → Prop}, (∀ a ∈ allocations, P a) → P (allocationOf policy item) →
      ∀ a ∈ allocations ++ [allocationOf policy item], P a := by
    intro P hold hnew a ha
    rcases List.mem_append.mp ha with ha | ha
    · exact hold a ha
    · rw [List.mem_singleton.mp ha]
      exact hnew
  have hpairs : ∀ {R : PortfolioAllocation → PortfolioAllocation → Prop}, allocations.Pairwise R →
      (∀ a ∈ allocations, R a (allocationOf policy item)) → (allocations ++ [allocationOf policy item]).Pairwise R := by
    intro R hold hnew
    refine List.pairwise_append.mpr ⟨hold, List.pairwise_singleton _ _, fun a ha b hb => ?_⟩
    rw [List.mem_singleton.mp hb]
    exact hnew a ha
  constructor
  case capacity =>
    rw [List.length_append]
    exact hok.capacity
  case sectors =>
    intro sector
    rw [List.countP_append, List.countP_singleton]
    by_cases hsame : (allocationOf policy item).sector = sector
    · rw [← hsame, if_pos (decide_eq_true rfl)]
      exact hok.sector
    · simpa [hsame] using h.sectors sector
  case symbols => exact hpairs h.symbols hok.newSymbol
  case notHeld => exact heach h.notHeld hok.notHeld
  case correlations =>
    apply hpairs h.correlations
    intro a ha value hvalue
    exact hok.correlation a ha value (recorded_comm.mp hvalue)
  case price => exact heach h.price rfl
  case quantity => exact heach h.quantity (sizeOf_pos policy item.candidate.signal)
  case order => exact heach h.order (sizeOf_mul_referencePrice_le policy item.candidate.signal)
  case risk => exact heach h.risk (sizeOf_mul_stopDistance_le policy item.candidate.signal)
  case total =>
    rw [List.map_append, List.sum_append]
    simpa using hok.capital

/-- **The portfolio**: what `_allocate` chooses is as the policy says, its divisors are not zero, and a candidate that is
left out was not admissible beside what had been chosen before it. -/
theorem portfolio_holds (honce : RecordedOnce correlations) {candidates : List ScoredCandidate}
    {allocations : List PortfolioAllocation} {c c' : Cycle Λ}
    (h : allocate host self cycleId t candidates existingSymbols correlations c = .ok allocations c') :
    Portfolio self.policy existingSymbols correlations allocations ∧
    (∀ item ∈ candidates, |item.candidate.signal.referencePrice - item.candidate.signal.stopPrice| ≠ 0 ∧
      item.candidate.signal.referencePrice ≠ 0) ∧
    ∀ items item items', candidates = items ++ item :: items' →
      ∃ before after : List ScoredCandidate, before.Sublist items ∧ after.Sublist items' ∧
        (allocations = (before ++ item :: after).map (allocationOf self.policy) ∨
          allocations = (before ++ after).map (allocationOf self.policy) ∧
            ¬ Admissible self.policy existingSymbols correlations (before.map (allocationOf self.policy)) item) := by
  have hgreedy := allocate_greedy honce h
  refine ⟨hgreedy.invariant (fun _ _ hportfolio hok => hportfolio.concat hok) portfolio_nil, ?_, ?_⟩
  · intro item _
    exact ⟨(stopDistance_pos item.candidate.signal).ne', item.candidate.signal.referencePrice_pos.ne'⟩
  · rintro items item items' rfl
    obtain ⟨before, after, hbefore, hafter, heq | ⟨hno, heq⟩⟩ := hgreedy.split
    · exact ⟨before, after, hbefore, hafter, Or.inl (by simpa using heq)⟩
    · exact ⟨before, after, hbefore, hafter, Or.inr ⟨by simpa using heq, hno⟩⟩

end Allocate

/-! ### Two correlated symbols -/

namespace Sample

open Risk.Sample

/-- A signal to buy at 100, with its stop at 99 and its target at 103. -/
def buySignal : StrategySignal where
  action := .buy
  confidence := 1 / 2
  referencePrice := 100
  stopPrice := 99
  targetPrice := 103
  confidence_mem := Amounts.half_mem
  referencePrice_pos := Amounts.hundred_pos
  cost_nonneg := Amounts.zero_nonneg
  geometry := by decide +kernel

/-- The scored candidate of that signal in a symbol. -/
def scored (symbol : String) : ScoredCandidate :=
  let candidate : DeterministicCandidate :=
    ⟨"candidate-" ++ symbol, momentumIdentity .nse, "approval-1", symbol, none, noon, ["gold-1"], buySignal, {}⟩
  ⟨candidate, scoreOf candidate⟩

/-- A limit of 4000 for an order. -/
def smallOrders : AllocationPolicy := { policy with maxOrderNotional := 4000, amounts_pos := by decide +kernel }

/-- The correlation of two symbols, recorded in one order. -/
def correlations : Dict (String × String) ℚ := Dict.empty.set ("HDFCBANK", "ICICIBANK") (9 / 10)

theorem correlations_recordedOnce : RecordedOnce correlations := by
  intro symbol other hne
  by_cases h : (symbol, other) = ("HDFCBANK", "ICICIBANK")
  · cases h
    exact Or.inr (by decide)
  · exact Or.inl (Dict.get?_set_of_ne _ h _)

end Sample

/-- The second of two correlated symbols is left out, the one after it is chosen. -/
theorem portfolio_holds_correlated :
    ∃ allocations c, allocate .cpython (Sample.pipeline PostgresDecisionLedger.ledger Sample.smallOrders) "cycle-1" 0
        [Sample.scored "HDFCBANK", Sample.scored "ICICIBANK", Sample.scored "RELIANCE"] [] Sample.correlations
        ⟨{}, []⟩ = .ok allocations c ∧
      allocations.map PortfolioAllocation.symbol = ["HDFCBANK", "RELIANCE"] ∧
      Portfolio Sample.smallOrders [] Sample.correlations allocations := by
  have hrun : ∃ allocations ∈ Effect.returned
      (allocate .cpython (Sample.pipeline PostgresDecisionLedger.ledger Sample.smallOrders) "cycle-1" 0
        [Sample.scored "HDFCBANK", Sample.scored "ICICIBANK", Sample.scored "RELIANCE"] [] Sample.correlations ⟨{}, []⟩),
      allocations.map PortfolioAllocation.symbol = ["HDFCBANK", "RELIANCE"] := by
    decide +kernel
  obtain ⟨allocations, hreturned, hsymbols⟩ := hrun
  obtain ⟨c, hok⟩ := Effect.returned_eq_some.mp hreturned
  exact ⟨allocations, c, hok, hsymbols, (portfolio_holds Sample.correlations_recordedOnce hok).1⟩

end NanoDelta.Orchestration
