import Mathlib.Tactic.FieldSimp
import Mathlib.Tactic.Linarith
import Mathlib.Tactic.NormNum
import Mathlib.Tactic.Positivity
import NanoDelta.Paper.Lifecycle
import NanoDelta.Strategies.Builtin
import NanoDelta.Strategies.Technical

/-!
# The signals of the plugins

What `generate` returns for a context that is compatible and has a positive close. Each plugin looks at the features and
has a side, or none (`trigger`); its stop and its target are at distances that grow with the volatility.

* `Proposed`: what a plugin returns.
* `registered_proposed`: each of the plugins that are registered.
* `generate_returns`: none of them raises.
* `prices_positive_iff`: when their prices are positive, as the table of the exit plans needs them.
-/

namespace NanoDelta.Strategies

open Library

/-- A feature; zero if it is missing. -/
def valueOf (features : Dict String ℚ) (name : String) : ℚ := (features.get? name).getD 0

/-- The features of a plugin are given. -/
def Given (required : List String) (features : Dict String ℚ) : Prop :=
  ∀ name ∈ required, (features.get? name).isSome = true

/-- The side of a plugin, how far its stop would be, and how far its target. -/
structure Outlook where
  action : Option AdvisoryAction
  stopReach : ℚ
  targetReach : ℚ

/-- There is room below the close: for the stop of a signal to buy, or the target of one to sell. -/
def Outlook.Room (outlook : Outlook) (close : ℚ) : Prop :=
  (outlook.action = some .buy → outlook.stopReach < close) ∧ (outlook.action = some .sell → outlook.targetReach < close)

/-- What `generate` returns: a signal at the close if the plugin has a side, its prices positive if there is room. -/
def Proposed (outlook : Outlook) (close : ℚ) (result : Except PyError (Option StrategySignal)) : Prop :=
  outlook.action = none ∧ result = .ok none ∨
    ∃ signal, result = .ok (some signal) ∧ outlook.action = some signal.action ∧ signal.referencePrice = close ∧
      (0 < signal.stopPrice ∧ 0 < signal.targetPrice ↔ outlook.Room close)

/-! ### Prices -/

section Prices

variable {close atr stopAtr rewardRisk confidence : ℚ} {features : Dict String ℚ} {name : String}
  {required : List String}

theorem featureValue_of_given (h : Given required features) (hname : name ∈ required) :
    featureValue features name = .ok (valueOf features name) := by
  obtain ⟨value, hvalue⟩ := Option.isSome_iff_exists.mp (h name hname)
  simp [featureValue, valueOf, hvalue]

/-- A distance that grows with the volatility, and is some part of the close at least. -/
theorem distance_lt_iff {reach : ℚ} (hclose : 0 < close) : max reach (close * (5 / 10000)) < close ↔ reach < close := by
  rw [max_lt_iff]
  apply and_iff_left
  linarith

theorem target_lt_iff {reach : ℚ} (hclose : 0 < close) (hreward : 0 < rewardRisk ∧ rewardRisk < 2000) :
    max reach (close * (5 / 10000)) * rewardRisk < close ↔ reach * rewardRisk < close := by
  rw [max_mul_of_nonneg _ _ hreward.1.le, max_lt_iff]
  apply and_iff_left
  nlinarith

theorem distance_pos {reach : ℚ} (hclose : 0 < close) : 0 < max reach (close * (5 / 10000)) := by
  apply lt_max_of_lt_right
  positivity

/-- The confidence of a signal is cut. -/
theorem cut_mem : 0 ≤ max 0 (min confidence (95 / 100)) ∧ max 0 (min confidence (95 / 100)) ≤ 1 := by
  constructor
  · exact le_max_left ..
  · apply max_le zero_le_one
    exact (min_le_right ..).trans (by norm_num)

/-- A signal with its stop and target on the two sides is built. -/
theorem create_of_geometry {action : AdvisoryAction} {stop target cost : ℚ}
    (hconfidence : 0 ≤ confidence ∧ confidence ≤ 1)
    (hclose : 0 < close) (hcost : 0 ≤ cost) (hgeometry : Geometry action stop close target) :
    ∃ signal, StrategySignal.create action confidence close stop target cost 0 0 = .ok signal ∧ signal.action = action ∧
      signal.referencePrice = close ∧ signal.stopPrice = stop ∧ signal.targetPrice = target := by
  have haction : action ≠ .abstain := by
    rintro rfl
    exact hgeometry
  unfold StrategySignal.create
  rw [if_neg haction, dif_neg (by simp [hconfidence, hclose]), dif_neg hcost.not_gt, dif_neg (not_not.mpr hgeometry)]
  exact ⟨_, rfl, rfl, rfl, rfl, rfl⟩

/-- A signal to buy: its target is positive, its stop if there is room for it. -/
theorem proposed_buy {stop target cost stopReach targetReach : ℚ} (hclose : 0 < close) (hstop : stop < close)
    (htarget : close < target) (hroom : 0 < stop ↔ stopReach < close) (hconfidence : 0 ≤ confidence ∧ confidence ≤ 1)
    (hcost : 0 ≤ cost) : Proposed ⟨some .buy, stopReach, targetReach⟩ close
      ((StrategySignal.create .buy confidence close stop target cost 0 0).map some) := by
  have hgeometry : Geometry .buy stop close target := ⟨hstop, htarget⟩
  obtain ⟨signal, hcreate, haction, hprice, rfl, rfl⟩ := create_of_geometry hconfidence hclose hcost hgeometry
  refine Or.inr ⟨signal, ?_, ?_, hprice, ?_⟩
  · rw [hcreate]
    rfl
  · rw [haction]
  · rw [and_iff_left (hclose.trans htarget), hroom]
    simp [Outlook.Room]

/-- A signal to sell: its stop is positive, its target if there is room for it. -/
theorem proposed_sell {stop target cost stopReach targetReach : ℚ} (hclose : 0 < close) (hstop : close < stop)
    (htarget : target < close) (hroom : 0 < target ↔ targetReach < close)
    (hconfidence : 0 ≤ confidence ∧ confidence ≤ 1)
    (hcost : 0 ≤ cost) : Proposed ⟨some .sell, stopReach, targetReach⟩ close
      ((StrategySignal.create .sell confidence close stop target cost 0 0).map some) := by
  have hgeometry : Geometry .sell stop close target := ⟨htarget, hstop⟩
  obtain ⟨signal, hcreate, haction, hprice, rfl, rfl⟩ := create_of_geometry hconfidence hclose hcost hgeometry
  refine Or.inr ⟨signal, ?_, ?_, hprice, ?_⟩
  · rw [hcreate]
    rfl
  · rw [haction]
  · rw [and_iff_right (hclose.trans hstop), hroom]
    simp [Outlook.Room]

/-- The signals that share `_signal`. -/
theorem proposed_signalOf {action : Option AdvisoryAction} (hside : action ≠ some .abstain) (hclose : 0 < close)
    (hreward : 0 < rewardRisk ∧ rewardRisk < 2000) :
    Proposed ⟨action, atr * stopAtr, atr * stopAtr * rewardRisk⟩ close
      (signalOf action close atr stopAtr rewardRisk confidence) := by
  have hpos : 0 < max (atr * stopAtr) (close * (5 / 10000)) := distance_pos hclose
  match action with
  | none => exact Or.inl ⟨rfl, rfl⟩
  | some .buy =>
    apply proposed_buy hclose (sub_lt_self _ hpos) _ _ cut_mem (by norm_num)
    · exact lt_add_of_pos_right _ (mul_pos hpos hreward.1)
    · exact sub_pos.trans (distance_lt_iff hclose)
  | some .sell =>
    apply proposed_sell hclose (lt_add_of_pos_right _ hpos) _ _ cut_mem (by norm_num)
    · exact sub_lt_self _ (mul_pos hpos hreward.1)
    · exact sub_pos.trans (target_lt_iff hclose hreward)
  | some .abstain => exact absurd rfl hside

end Prices

/-! ### Sides -/

/-- The outlook of a plugin whose target is a multiple of its risk away. -/
def multiple (action : Option AdvisoryAction) (reach rewardRisk : ℚ) : Outlook := ⟨action, reach, reach * rewardRisk⟩

/-- The side that `VwapPullbackStrategy` takes. -/
def VwapPullbackStrategy.trigger (self : VwapPullbackStrategy) (v : String → ℚ) : Option AdvisoryAction :=
  if v "volume_ratio_20" < self.minimumVolumeRatio then none
  else if (v "vwap" < v "close" ∧ v "ema_21" < v "close") ∧ v "low" ≤ v "vwap" * (1 + self.pullbackTolerance) then
    some .buy
  else if (v "close" < v "vwap" ∧ v "close" < v "ema_21") ∧ v "vwap" * (1 - self.pullbackTolerance) ≤ v "high" then
    some .sell
  else none

/-- The side that `EmaRsiContinuationStrategy` takes. -/
def EmaRsiContinuationStrategy.trigger (self : EmaRsiContinuationStrategy) (v : String → ℚ) : Option AdvisoryAction :=
  if v "ema_21" < v "ema_9" ∧ (self.buyRsiMinimum ≤ v "rsi_14" ∧ v "rsi_14" ≤ self.buyRsiMaximum) ∧
      0 < v "body_pct" then
    some .buy
  else if v "ema_9" < v "ema_21" ∧ (self.sellRsiMinimum ≤ v "rsi_14" ∧ v "rsi_14" ≤ self.sellRsiMaximum) ∧
      v "body_pct" < 0 then
    some .sell
  else none

/-- The side that `SuperTrendAdxStrategy` takes. -/
def SuperTrendAdxStrategy.trigger (self : SuperTrendAdxStrategy) (v : String → ℚ) : Option AdvisoryAction :=
  if v "adx_14" < self.minimumAdx then none
  else if 0 < v "supertrend_direction" ∧ v "supertrend" < v "close" then some .buy
  else if v "supertrend_direction" < 0 ∧ v "close" < v "supertrend" then some .sell
  else none

/-- The side that `MeanReversionStrategy` takes. -/
def MeanReversionStrategy.trigger (self : MeanReversionStrategy) (v : String → ℚ) : Option AdvisoryAction :=
  if v "atr_14" ≤ 0 then none
  else if v "rsi_14" ≤ self.oversoldRsi ∧ (v "close" - v "ema_21") / v "atr_14" ≤ -self.minimumStretchAtr then some .buy
  else if self.overboughtRsi ≤ v "rsi_14" ∧ self.minimumStretchAtr ≤ (v "close" - v "ema_21") / v "atr_14" then
    some .sell
  else none

/-- The side of a plugin that looks at a range, once there is enough volume. -/
def withVolume (v : String → ℚ) (minimumVolumeRatio : ℚ) (action : Option AdvisoryAction) : Option AdvisoryAction :=
  if v "volume_ratio_20" < minimumVolumeRatio then none else action

/-- What a technical plugin is about to trade. -/
def TechnicalStrategy.outlook (v : String → ℚ) : TechnicalStrategy → Outlook
  | .vwapPullback self => multiple (self.trigger v) (v "atr_14" * self.stopAtr) self.rewardRisk
  | .emaRsiContinuation self => multiple (self.trigger v) (v "atr_14" * self.stopAtr) self.rewardRisk
  | .superTrendAdx self => multiple (self.trigger v) (v "atr_14" * self.stopAtr) self.rewardRisk
  | .meanReversion self => ⟨self.trigger v, self.stopAtr * v "atr_14", v "close" - v "ema_21"⟩
  | .rangeReversal self =>
    multiple
      (touchAction (v "close") (v "high") (v "low") (v "range_high_20") (v "range_low_20") self.touchTolerancePct)
      (v "atr_14" * self.stopAtr) self.rewardRisk
  | .supportReversal self =>
    multiple (withVolume v self.minimumVolumeRatio
      (touchAction (v "close") (v "high") (v "low") (v "range_high_10") (v "range_low_10") self.touchTolerancePct))
      (v "atr_14" * self.stopAtr) self.rewardRisk
  | .breakout self =>
    multiple (withVolume v self.minimumVolumeRatio (breakAction (v "close") (v "range_high_20") (v "range_low_20")))
      (v "atr_14" * self.stopAtr) self.rewardRisk
  | .openingRangeBreakout self =>
    multiple (breakAction (v "close") (v "opening_range_high") (v "opening_range_low")) (v "atr_14" * self.stopAtr)
      self.rewardRisk
  | .volumeBreakout self =>
    multiple (withVolume v self.minimumVolumeRatio (breakAction (v "close") (v "range_high_5") (v "range_low_5")))
      (v "atr_14" * self.stopAtr) self.rewardRisk

/-- The parameters of a plugin are such that its target is above its close if it buys, and below it if it sells. -/
def TechnicalStrategy.Sound : TechnicalStrategy → Prop
  | .vwapPullback self => 0 < self.rewardRisk ∧ self.rewardRisk < 2000
  | .emaRsiContinuation self => 0 < self.rewardRisk ∧ self.rewardRisk < 2000
  | .superTrendAdx self => 0 < self.rewardRisk ∧ self.rewardRisk < 2000
  | .meanReversion self => 0 < self.minimumStretchAtr
  | .rangeReversal self => 0 < self.rewardRisk ∧ self.rewardRisk < 2000
  | .supportReversal self => 0 < self.rewardRisk ∧ self.rewardRisk < 2000
  | .breakout self => 0 < self.rewardRisk ∧ self.rewardRisk < 2000
  | .openingRangeBreakout self => 0 < self.rewardRisk ∧ self.rewardRisk < 2000
  | .volumeBreakout self => 0 < self.rewardRisk ∧ self.rewardRisk < 2000

theorem except_map_eq_bind {ε α β : Type} (x : Except ε α) (f : α → β) : x.map f = x.bind fun a => .ok (f a) := by
  cases x <;> rfl

section Rules

variable {features : Dict String ℚ}

theorem VwapPullbackStrategy.rule_eq (self : VwapPullbackStrategy)
    (hgiven : Given ["close", "high", "low", "vwap", "ema_21", "atr_14", "volume_ratio_20"] features)
    (hclose : valueOf features "close" ≠ 0) :
    self.rule features =
      signalOf (self.trigger (valueOf features)) (valueOf features "close") (valueOf features "atr_14") self.stopAtr
        self.rewardRisk
        (55 / 100 +
          min (|valueOf features "close" - valueOf features "vwap"| / valueOf features "close" * 20) (2 / 10)) := by
  have hvalue : ∀ name ∈ _, _ := fun _ => featureValue_of_given hgiven
  simp only [List.forall_mem_cons] at hvalue
  simp only [rule, hvalue, bind, Except.bind, trigger, divide, if_neg hclose]
  split_ifs
  · rfl
  · exact (except_map_eq_bind _ _).symm
  · exact (except_map_eq_bind _ _).symm
  · rfl

theorem EmaRsiContinuationStrategy.rule_eq (self : EmaRsiContinuationStrategy)
    (hgiven : Given ["close", "ema_9", "ema_21", "rsi_14", "atr_14", "body_pct"] features)
    (hclose : valueOf features "close" ≠ 0) :
    self.rule features =
      signalOf (self.trigger (valueOf features)) (valueOf features "close") (valueOf features "atr_14") self.stopAtr
        self.rewardRisk
        (55 / 100 +
          min (|valueOf features "ema_9" - valueOf features "ema_21"| / valueOf features "close" * 30) (2 / 10)) := by
  have hvalue : ∀ name ∈ _, _ := fun _ => featureValue_of_given hgiven
  simp only [List.forall_mem_cons] at hvalue
  simp only [rule, hvalue, bind, Except.bind, trigger, divide, if_neg hclose]
  split_ifs
  · exact (except_map_eq_bind _ _).symm
  · exact (except_map_eq_bind _ _).symm
  · rfl

theorem SuperTrendAdxStrategy.rule_eq (self : SuperTrendAdxStrategy)
    (hgiven : Given ["close", "supertrend", "supertrend_direction", "adx_14", "atr_14"] features) :
    self.rule features =
      signalOf (self.trigger (valueOf features)) (valueOf features "close") (valueOf features "atr_14") self.stopAtr
        self.rewardRisk (55 / 100 + min ((valueOf features "adx_14" - self.minimumAdx) / 100) (25 / 100)) := by
  have hvalue : ∀ name ∈ _, _ := fun _ => featureValue_of_given hgiven
  simp only [List.forall_mem_cons] at hvalue
  simp only [rule, hvalue, bind, Except.bind, trigger]
  split_ifs <;> rfl

theorem RangeReversalStrategy.rule_eq (self : RangeReversalStrategy)
    (hgiven : Given ["close", "high", "low", "range_high_20", "range_low_20", "atr_14"] features) :
    self.rule features =
      signalOf (touchAction (valueOf features "close") (valueOf features "high") (valueOf features "low")
        (valueOf features "range_high_20") (valueOf features "range_low_20") self.touchTolerancePct)
        (valueOf features "close") (valueOf features "atr_14") self.stopAtr self.rewardRisk self.confidence := by
  have hvalue : ∀ name ∈ _, _ := fun _ => featureValue_of_given hgiven
  simp only [List.forall_mem_cons] at hvalue
  simp only [rule, hvalue, bind, Except.bind]

theorem SupportReversalStrategy.rule_eq (self : SupportReversalStrategy)
    (hgiven : Given ["close", "high", "low", "range_high_10", "range_low_10", "atr_14", "volume_ratio_20"] features) :
    self.rule features =
      signalOf (withVolume (valueOf features) self.minimumVolumeRatio
        (touchAction (valueOf features "close") (valueOf features "high") (valueOf features "low")
          (valueOf features "range_high_10") (valueOf features "range_low_10") self.touchTolerancePct))
        (valueOf features "close") (valueOf features "atr_14") self.stopAtr self.rewardRisk self.confidence := by
  have hvalue : ∀ name ∈ _, _ := fun _ => featureValue_of_given hgiven
  simp only [List.forall_mem_cons] at hvalue
  simp only [rule, hvalue, bind, Except.bind, withVolume]
  split_ifs <;> rfl

theorem BreakoutStrategy.rule_eq (self : BreakoutStrategy)
    (hgiven : Given ["close", "range_high_20", "range_low_20", "atr_14", "volume_ratio_20"] features) :
    self.rule features =
      signalOf (withVolume (valueOf features) self.minimumVolumeRatio
        (breakAction (valueOf features "close") (valueOf features "range_high_20")
          (valueOf features "range_low_20")))
        (valueOf features "close") (valueOf features "atr_14") self.stopAtr self.rewardRisk self.confidence := by
  have hvalue : ∀ name ∈ _, _ := fun _ => featureValue_of_given hgiven
  simp only [List.forall_mem_cons] at hvalue
  simp only [rule, hvalue, bind, Except.bind, withVolume]
  split_ifs <;> rfl

theorem OpeningRangeBreakoutStrategy.rule_eq (self : OpeningRangeBreakoutStrategy)
    (hgiven : Given ["close", "opening_range_high", "opening_range_low", "atr_14"] features) :
    self.rule features =
      signalOf (breakAction (valueOf features "close") (valueOf features "opening_range_high")
        (valueOf features "opening_range_low"))
        (valueOf features "close") (valueOf features "atr_14") self.stopAtr self.rewardRisk self.confidence := by
  have hvalue : ∀ name ∈ _, _ := fun _ => featureValue_of_given hgiven
  simp only [List.forall_mem_cons] at hvalue
  simp only [rule, hvalue, bind, Except.bind]

theorem VolumeBreakoutStrategy.rule_eq (self : VolumeBreakoutStrategy)
    (hgiven : Given ["close", "range_high_5", "range_low_5", "atr_14", "volume_ratio_20"] features) :
    self.rule features =
      signalOf (withVolume (valueOf features) self.minimumVolumeRatio
        (breakAction (valueOf features "close") (valueOf features "range_high_5")
          (valueOf features "range_low_5")))
        (valueOf features "close") (valueOf features "atr_14") self.stopAtr self.rewardRisk self.confidence := by
  have hvalue : ∀ name ∈ _, _ := fun _ => featureValue_of_given hgiven
  simp only [List.forall_mem_cons] at hvalue
  simp only [rule, hvalue, bind, Except.bind, withVolume]
  split_ifs <;> rfl

theorem MeanReversionStrategy.proposed (self : MeanReversionStrategy) (hstretch : 0 < self.minimumStretchAtr)
    (hgiven : Given ["close", "rsi_14", "atr_14", "ema_21"] features) (hclose : 0 < valueOf features "close") :
    Proposed ⟨self.trigger (valueOf features), self.stopAtr * valueOf features "atr_14",
      valueOf features "close" - valueOf features "ema_21"⟩ (valueOf features "close") (self.rule features) := by
  have hvalue : ∀ name ∈ _, _ := fun _ => featureValue_of_given hgiven
  simp only [List.forall_mem_cons] at hvalue
  simp only [rule, hvalue, bind, Except.bind, trigger]
  generalize valueOf features "close" = close at *
  generalize valueOf features "ema_21" = mean at *
  generalize valueOf features "atr_14" = atr at *
  have hdistance : 0 < max (self.stopAtr * atr) (close * (5 / 10000)) := distance_pos hclose
  split_ifs with hatr hbuy hsell
  · exact Or.inl ⟨rfl, rfl⟩
  · -- The close is below the mean, by some ranges.
    have hmean : close < mean := by
      have hneg : (close - mean) / atr < 0 := by linarith [hbuy.2]
      rw [div_neg_iff] at hneg
      obtain ⟨_, hneg⟩ | ⟨hneg, _⟩ := hneg
      · exact absurd hneg.le hatr
      · linarith
    have hstop : close - max (self.stopAtr * atr) (close * (5 / 10000)) < close := by linarith
    unfold signal
    simp only [if_true, reduceCtorEq, false_and, if_false, hstop, hmean, and_self, not_true_eq_false, and_false]
    exact proposed_buy hclose hstop hmean (sub_pos.trans (distance_lt_iff hclose)) cut_mem (by norm_num)
  · have hmean : mean < close := by
      have hpos : 0 < (close - mean) / atr := by linarith [hsell.2]
      rw [div_pos_iff] at hpos
      obtain ⟨hpos, _⟩ | ⟨_, hneg⟩ := hpos
      · linarith
      · exact absurd hneg.le hatr
    have hstop : close < close + max (self.stopAtr * atr) (close * (5 / 10000)) := by linarith
    unfold signal
    simp only [reduceCtorEq, false_and, if_false, hstop, hmean, and_self, not_true_eq_false, and_false]
    exact proposed_sell hclose hstop hmean (by rw [sub_lt_self_iff]) cut_mem (by norm_num)
  · exact Or.inl ⟨rfl, rfl⟩

end Rules

/-- The side that `MomentumContinuationStrategy` takes. -/
def MomentumContinuationStrategy.trigger (self : MomentumContinuationStrategy) (v : String → ℚ) :
    Option AdvisoryAction :=
  if |v "return_1"| < self.minimumReturn ∨ |v "body_pct"| < self.minimumBody then none
  else if v "return_1" * v "body_pct" ≤ 0 then none
  else if 0 < v "return_1" then some .buy
  else some .sell

/-- What `MomentumContinuationStrategy` is about to trade. -/
def MomentumContinuationStrategy.outlook (self : MomentumContinuationStrategy) (v : String → ℚ) : Outlook :=
  multiple (self.trigger v) (v "close" * v "range_pct" * self.stopRangeMultiple) self.rewardRisk

/-- The parameters of the strategy are such that a bar without a range has room. -/
def MomentumContinuationStrategy.Sound (self : MomentumContinuationStrategy) : Prop :=
  0 < self.stopRangeMultiple ∧ self.stopRangeMultiple < 2000 ∧ 0 < self.rewardRisk ∧
    self.stopRangeMultiple * self.rewardRisk < 2000

theorem MomentumContinuationStrategy.proposed (self : MomentumContinuationStrategy) (hsound : self.Sound)
    {context : StrategyContext} (hgiven : Given ["close", "return_1", "range_pct", "body_pct"] context.features)
    (hclose : 0 < valueOf context.features "close") :
    Proposed (self.outlook (valueOf context.features)) (valueOf context.features "close") (self.generate context) := by
  obtain ⟨hmultiple, hsmall, hreward, hboth⟩ := hsound
  have hvalue : ∀ name ∈ ["close", "return_1", "range_pct", "body_pct"],
      feature context name = .ok (valueOf context.features name) := fun _ => featureValue_of_given hgiven
  simp only [List.forall_mem_cons] at hvalue
  simp only [generate, hvalue, bind, Except.bind, outlook, multiple, trigger]
  generalize valueOf context.features "close" = close at *
  generalize valueOf context.features "return_1" = change
  generalize valueOf context.features "body_pct" = body
  generalize valueOf context.features "range_pct" = range
  have hconfidence : 0 ≤ min (95 / 100) (1 / 2 + |change| * 20 + |body| * 10) ∧
      min (95 / 100) (1 / 2 + |change| * 20 + |body| * 10) ≤ 1 := by
    constructor
    · exact le_min (by norm_num) (by positivity)
    · exact (min_le_left ..).trans (by norm_num)
  have hdistance : 0 < close * max range (1 / 2000) * self.stopRangeMultiple := by
    have hrange : 0 < max range (1 / 2000) := lt_max_of_lt_right (by norm_num)
    positivity
  have hmax : close * max range (1 / 2000) * self.stopRangeMultiple =
      max (close * range * self.stopRangeMultiple) (close * (1 / 2000) * self.stopRangeMultiple) := by
    rw [mul_max_of_nonneg _ _ hclose.le, max_mul_of_nonneg _ _ hmultiple.le]
  have hstop : close * max range (1 / 2000) * self.stopRangeMultiple < close ↔
      close * range * self.stopRangeMultiple < close := by
    rw [hmax, max_lt_iff]
    apply and_iff_left
    nlinarith
  have htarget : close * max range (1 / 2000) * self.stopRangeMultiple * self.rewardRisk < close ↔
      close * range * self.stopRangeMultiple * self.rewardRisk < close := by
    rw [hmax, max_mul_of_nonneg _ _ hreward.le, max_lt_iff]
    apply and_iff_left
    nlinarith
  split_ifs
  · exact Or.inl ⟨rfl, rfl⟩
  · exact Or.inl ⟨rfl, rfl⟩
  · show Proposed _ _ (Except.bind (StrategySignal.create _ _ _ _ _ _ _ _) fun signal => .ok (some signal))
    rw [← except_map_eq_bind]
    apply proposed_buy hclose (sub_lt_self _ hdistance) _ _ hconfidence (by norm_num)
    · exact lt_add_of_pos_right _ (mul_pos hdistance hreward)
    · exact sub_pos.trans hstop
  · show Proposed _ _ (Except.bind (StrategySignal.create _ _ _ _ _ _ _ _) fun signal => .ok (some signal))
    rw [← except_map_eq_bind]
    apply proposed_sell hclose (lt_add_of_pos_right _ hdistance) _ _ hconfidence (by norm_num)
    · exact sub_lt_self _ (mul_pos hdistance hreward)
    · exact sub_pos.trans htarget

/-! ### The plugins that are registered -/

/-- `technical_strategies` and `builtin_strategies`. -/
def registeredStrategies : List (TechnicalStrategy ⊕ MomentumContinuationStrategy) :=
  technicalStrategies.map .inl ++ builtinStrategies.map .inr

/-- A strategy as a plugin. -/
def pluginOf (strategy : TechnicalStrategy ⊕ MomentumContinuationStrategy) : StrategyPlugin :=
  strategy.elim TechnicalStrategy.plugin MomentumContinuationStrategy.plugin

/-- What a strategy is about to trade. -/
def outlookOf (strategy : TechnicalStrategy ⊕ MomentumContinuationStrategy) (v : String → ℚ) : Outlook :=
  strategy.elim (TechnicalStrategy.outlook v) fun self => self.outlook v

theorem sound_technicalStrategies : ∀ strategy ∈ technicalStrategies, strategy.Sound := by
  intro strategy hstrategy
  simp only [technicalStrategies, List.mem_cons, List.not_mem_nil, or_false] at hstrategy
  rcases hstrategy with rfl | rfl | rfl | rfl | rfl | rfl | rfl | rfl | rfl | rfl | rfl | rfl | rfl | rfl <;>
    norm_num [TechnicalStrategy.Sound]

theorem sound_builtinStrategies : ∀ strategy ∈ builtinStrategies, strategy.Sound := by
  intro strategy hstrategy
  obtain ⟨market, -, rfl⟩ := List.mem_map.mp hstrategy
  norm_num [MomentumContinuationStrategy.Sound]

section Registered

variable {context : StrategyContext} {definition : StrategyDefinition} {required labels : List String}

/-- A context that is compatible has the features. -/
theorem given_of_compatible (h : (technicalCompatibility definition required labels context).1 = true) :
    Given required context.features := by
  unfold technicalCompatibility at h
  split_ifs at h with _ _ _ _ hrequired
  simpa [Given] using hrequired

theorem breakAction_ne_abstain {close high low : ℚ} : breakAction close high low ≠ some .abstain := by
  unfold breakAction
  split_ifs <;> simp

theorem touchAction_ne_abstain {close high low rangeHigh rangeLow tolerance : ℚ} :
    touchAction close high low rangeHigh rangeLow tolerance ≠ some .abstain := by
  unfold touchAction
  split_ifs <;> simp

theorem withVolume_ne_abstain {v : String → ℚ} {minimum : ℚ} {action : Option AdvisoryAction}
    (h : action ≠ some .abstain) :
    withVolume v minimum action ≠ some .abstain := by
  unfold withVolume
  split_ifs
  · simp
  · exact h

/-- **The technical plugins**: what they return for a context that is compatible. -/
theorem TechnicalStrategy.proposed (strategy : TechnicalStrategy) (hsound : strategy.Sound)
    (hcompatible : ∃ reason, strategy.plugin.compatibility context = .ok (true, reason))
    (hclose : 0 < valueOf context.features "close") :
    Proposed (strategy.outlook (valueOf context.features)) (valueOf context.features "close")
      (strategy.plugin.generate context) := by
  obtain ⟨reason, hreason⟩ := hcompatible
  have hgenerate : ∀ {definition required labels rule}, strategy.plugin = technicalPlugin definition required labels rule →
      Given required context.features ∧ strategy.plugin.generate context = rule context.features := by
    intro definition required labels rule hplugin
    rw [hplugin] at hreason ⊢
    have hcompatible : (technicalCompatibility definition required labels context).1 = true :=
      congrArg Prod.fst (Except.ok.inj hreason)
    exact ⟨given_of_compatible hcompatible, if_pos hcompatible⟩
  cases strategy with
  | vwapPullback self =>
    obtain ⟨hgiven, hrule⟩ := hgenerate rfl
    rw [hrule, self.rule_eq hgiven hclose.ne']
    apply proposed_signalOf _ hclose hsound
    unfold VwapPullbackStrategy.trigger
    split_ifs <;> simp
  | emaRsiContinuation self =>
    obtain ⟨hgiven, hrule⟩ := hgenerate rfl
    rw [hrule, self.rule_eq hgiven hclose.ne']
    apply proposed_signalOf _ hclose hsound
    unfold EmaRsiContinuationStrategy.trigger
    split_ifs <;> simp
  | superTrendAdx self =>
    obtain ⟨hgiven, hrule⟩ := hgenerate rfl
    rw [hrule, self.rule_eq hgiven]
    apply proposed_signalOf _ hclose hsound
    unfold SuperTrendAdxStrategy.trigger
    split_ifs <;> simp
  | meanReversion self =>
    obtain ⟨hgiven, hrule⟩ := hgenerate rfl
    rw [hrule]
    exact self.proposed hsound hgiven hclose
  | rangeReversal self =>
    obtain ⟨hgiven, hrule⟩ := hgenerate rfl
    rw [hrule, self.rule_eq hgiven]
    exact proposed_signalOf touchAction_ne_abstain hclose hsound
  | supportReversal self =>
    obtain ⟨hgiven, hrule⟩ := hgenerate rfl
    rw [hrule, self.rule_eq hgiven]
    exact proposed_signalOf (withVolume_ne_abstain touchAction_ne_abstain) hclose hsound
  | breakout self =>
    obtain ⟨hgiven, hrule⟩ := hgenerate rfl
    rw [hrule, self.rule_eq hgiven]
    exact proposed_signalOf (withVolume_ne_abstain breakAction_ne_abstain) hclose hsound
  | openingRangeBreakout self =>
    obtain ⟨hgiven, hrule⟩ := hgenerate rfl
    rw [hrule, self.rule_eq hgiven]
    exact proposed_signalOf breakAction_ne_abstain hclose hsound
  | volumeBreakout self =>
    obtain ⟨hgiven, hrule⟩ := hgenerate rfl
    rw [hrule, self.rule_eq hgiven]
    exact proposed_signalOf (withVolume_ne_abstain breakAction_ne_abstain) hclose hsound

/-- **All plugins**: what they return for a context that is compatible and has a positive close. -/
theorem registered_proposed {strategy : TechnicalStrategy ⊕ MomentumContinuationStrategy}
    (hstrategy : strategy ∈ registeredStrategies)
    (hcompatible : ∃ reason, (pluginOf strategy).compatibility context = .ok (true, reason))
    (hclose : 0 < valueOf context.features "close") :
    Proposed (outlookOf strategy (valueOf context.features)) (valueOf context.features "close")
      ((pluginOf strategy).generate context) := by
  obtain hstrategy | hstrategy := List.mem_append.mp hstrategy
  · obtain ⟨self, hself, rfl⟩ := List.mem_map.mp hstrategy
    exact self.proposed (sound_technicalStrategies self hself) hcompatible hclose
  · obtain ⟨self, hself, rfl⟩ := List.mem_map.mp hstrategy
    apply self.proposed (sound_builtinStrategies self hself) _ hclose
    obtain ⟨reason, hreason⟩ := hcompatible
    have hall : MomentumContinuationStrategy.compatibility context = .ok (true, reason) := hreason
    unfold MomentumContinuationStrategy.compatibility at hall
    split_ifs at hall with hrequired
    · simpa [Given] using hrequired
    · cases hall

end Registered

/-! ### Geometry and prices -/

namespace Sample

/-- A bar of NSE, up to a close of 20 from 10. -/
def context (range : ℚ) : StrategyContext where
  market := .nse
  symbol := "RELIANCE"
  sector := none
  timeframe := "1m"
  tradeHorizon := "intraday"
  featureSetVersion := 1
  eventTime := 0
  goldSnapshotIds := ["gold-1"]
  features := (((Dict.empty.set "close" 20).set "return_1" 1).set "range_pct" range).set "body_pct" 1
  texts := ⟨by decide, by decide, by decide⟩
  lineage := ⟨by decide, by simp⟩

/-- The built-in strategy of NSE. -/
def momentum : TechnicalStrategy ⊕ MomentumContinuationStrategy := .inr { definition := momentumDefinition .nse }

theorem momentum_mem : momentum ∈ registeredStrategies := by
  simp [registeredStrategies, builtinStrategies, momentum]

theorem momentum_compatible (range : ℚ) :
    ∃ reason, (pluginOf momentum).compatibility (context range) = .ok (true, reason) :=
  ⟨"COMPATIBLE", by simp [momentum, pluginOf, MomentumContinuationStrategy.plugin,
    MomentumContinuationStrategy.compatibility, context, Dict.get?_set]⟩

end Sample

/-- **No plugin raises** on a context that is compatible and has a positive close: it gives no signal, or one with its
stop and its target strictly on the two sides of the close. -/
theorem generate_returns {strategy : TechnicalStrategy ⊕ MomentumContinuationStrategy}
    (hstrategy : strategy ∈ registeredStrategies) {context : StrategyContext}
    (hcompatible : ∃ reason, (pluginOf strategy).compatibility context = .ok (true, reason))
    (hclose : 0 < valueOf context.features "close") :
    (pluginOf strategy).generate context = .ok none ∨
      ∃ signal, (pluginOf strategy).generate context = .ok (some signal) ∧
        (signal.action = .buy ∧ signal.stopPrice < signal.referencePrice ∧ signal.referencePrice < signal.targetPrice ∨
          signal.action = .sell ∧ signal.targetPrice < signal.referencePrice ∧
            signal.referencePrice < signal.stopPrice) ∧
        (0 ≤ signal.confidence ∧ signal.confidence ≤ 1) ∧ signal.referencePrice = valueOf context.features "close" := by
  obtain ⟨-, hnone⟩ | ⟨signal, hsignal, -, hprice, -⟩ := registered_proposed hstrategy hcompatible hclose
  · exact Or.inl hnone
  · refine Or.inr ⟨signal, hsignal, ?_, signal.confidence_mem, hprice⟩
    have hgeometry := signal.geometry
    cases haction : signal.action with
    | buy =>
      rw [haction] at hgeometry
      exact Or.inl ⟨rfl, hgeometry⟩
    | sell =>
      rw [haction] at hgeometry
      exact Or.inr ⟨rfl, hgeometry⟩
    | abstain =>
      rw [haction] at hgeometry
      exact hgeometry.elim

/-- A bar with a range of two percent: a signal to buy at its close. -/
theorem buys_at_close : ∃ signal, (pluginOf Sample.momentum).generate (Sample.context (1 / 50)) = .ok (some signal) ∧
    signal.action = .buy ∧ signal.referencePrice = 20 := by
  have hsome : ((pluginOf Sample.momentum).generate (Sample.context (1 / 50))).toOption.map
      (fun result => result.map StrategySignal.action) = some (some .buy) := by
    decide +kernel
  have hclose : valueOf (Sample.context (1 / 50)).features "close" = 20 := by decide +kernel
  obtain hnone | ⟨signal, hsignal, -, -, hprice⟩ :=
    generate_returns Sample.momentum_mem (Sample.momentum_compatible _)
      (show 0 < valueOf (Sample.context (1 / 50)).features "close" by decide +kernel)
  · rw [hnone] at hsome
    cases hsome
  · rw [hsignal] at hsome
    exact ⟨signal, hsignal, Option.some.inj (Option.some.inj hsome), hprice.trans hclose⟩

/-- The exit plan of a position that a signal opened can be stored, as far as its action and prices are checked. -/
def Registrable (signal : StrategySignal) : Prop :=
  ∀ row : Paper.ExitPlanRow, row.entryAction = signal.action.value → row.stopPrice = signal.stopPrice →
    row.targetPrice = signal.targetPrice → Paper.isMarket row.market → 0 < row.quantity →
    Paper.PostgresLifecycleStore.planChecks row

/-- Positive prices are all that the table asks of a signal. -/
theorem registrable_of_pos {signal : StrategySignal} (h : 0 < signal.stopPrice ∧ 0 < signal.targetPrice) :
    Registrable signal := by
  intro row haction hstop htarget hmarket hquantity
  refine ⟨hmarket, ?_, hquantity, hstop ▸ h.1, htarget ▸ h.2⟩
  have hgeometry := signal.geometry
  rw [haction]
  cases hside : signal.action with
  | buy => exact Or.inl rfl
  | sell => exact Or.inr rfl
  | abstain =>
    rw [hside] at hgeometry
    exact hgeometry.elim

/-- **Positive prices**: the signal that a plugin gives has a positive stop and a positive target, and its exit plan can
be stored, exactly if there is room below the close for what the plugin is about to trade. -/
theorem prices_positive_iff {strategy : TechnicalStrategy ⊕ MomentumContinuationStrategy}
    (hstrategy : strategy ∈ registeredStrategies) {context : StrategyContext}
    (hcompatible : ∃ reason, (pluginOf strategy).compatibility context = .ok (true, reason))
    (hclose : 0 < valueOf context.features "close") :
    (∀ signal, (pluginOf strategy).generate context = .ok (some signal) →
      (0 < signal.stopPrice ∧ 0 < signal.targetPrice) ∧ Registrable signal) ↔
    (outlookOf strategy (valueOf context.features)).Room (valueOf context.features "close") := by
  obtain ⟨haction, hnone⟩ | ⟨signal, hsignal, -, -, hroom⟩ := registered_proposed hstrategy hcompatible hclose
  · constructor
    · intro _
      simp [Outlook.Room, haction]
    · intro _ signal hsignal
      rw [hnone] at hsignal
      cases hsignal
  · rw [← hroom]
    constructor
    · intro h
      exact (h signal hsignal).1
    · intro h signal' hsignal'
      rw [hsignal] at hsignal'
      cases hsignal'
      exact ⟨h, registrable_of_pos h⟩

/-- A bar with a range of two percent has room. -/
theorem narrow_bar_positive :
    ∃ signal, (pluginOf Sample.momentum).generate (Sample.context (1 / 50)) = .ok (some signal) ∧
      (0 < signal.stopPrice ∧ 0 < signal.targetPrice) ∧ Registrable signal := by
  have hclose : 0 < valueOf (Sample.context (1 / 50)).features "close" := by decide +kernel
  have hroom : (outlookOf Sample.momentum (valueOf (Sample.context (1 / 50)).features)).Room
      (valueOf (Sample.context (1 / 50)).features "close") := by
    unfold Outlook.Room
    decide +kernel
  have hpositive := (prices_positive_iff Sample.momentum_mem (Sample.momentum_compatible _) hclose).mpr hroom
  have hsome : ((pluginOf Sample.momentum).generate (Sample.context (1 / 50))).toOption.map
      (fun result => result.map StrategySignal.action) = some (some .buy) := by
    decide +kernel
  cases hresult : (pluginOf Sample.momentum).generate (Sample.context (1 / 50)) with
  | error e =>
    rw [hresult] at hsome
    cases hsome
  | ok result =>
    cases result with
    | none =>
      rw [hresult] at hsome
      cases hsome
    | some signal => exact ⟨signal, rfl, hpositive signal hresult⟩

/-- A bar from 10 to 20, with a high of 25: the stop of the signal to buy is at -10. -/
theorem wide_bar_negative : ¬ ∀ strategy ∈ registeredStrategies, ∀ context : StrategyContext,
    (∃ reason, (pluginOf strategy).compatibility context = .ok (true, reason)) →
    0 < valueOf context.features "close" → 0 ≤ valueOf context.features "atr_14" →
    0 ≤ valueOf context.features "range_pct" →
    ∀ signal, (pluginOf strategy).generate context = .ok (some signal) →
      0 < signal.stopPrice ∧ 0 < signal.targetPrice := by
  intro h
  have hstop : ((pluginOf Sample.momentum).generate (Sample.context (3 / 2))).toOption.map
      (fun result => result.map StrategySignal.stopPrice) = some (some (-10)) := by
    decide +kernel
  cases hresult : (pluginOf Sample.momentum).generate (Sample.context (3 / 2)) with
  | error e =>
    rw [hresult] at hstop
    cases hstop
  | ok result =>
    cases result with
    | none =>
      rw [hresult] at hstop
      cases hstop
    | some signal =>
      rw [hresult] at hstop
      have hpos := (h Sample.momentum Sample.momentum_mem (Sample.context (3 / 2)) (Sample.momentum_compatible _)
        (by decide +kernel) (by decide +kernel) (by decide +kernel) signal hresult).1
      rw [Option.some.inj (Option.some.inj hstop)] at hpos
      norm_num at hpos

end NanoDelta.Strategies
