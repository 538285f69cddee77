import Mathlib.Algebra.BigOperators.Group.Finset.Basic
import Mathlib.Data.Finset.Powerset
import Mathlib.Data.Nat.Choose.Sum
import NanoDelta.Library.Falls
import NanoDelta.Strategies.Evaluation

/-!
# The statistics of a list of trades

`_one_sided_sign_test` and `_maximum_drawdown`, which `validation/nse.py` and `strategies/evaluation.py` have a copy of
each.

* `sign_test_iff`: the sign test is the tail of a binomial distribution, for at most 1023 trades.
* `drawdown_is_greatest_fall`: the drawdown is the greatest fall of the equity.
-/

namespace NanoDelta.Validation

open Library

/-! ### The sign test -/

/-- The two copies of `_one_sided_sign_test`. -/
def signTests : List (ℕ → ℕ → Except PyError ℚ) := [oneSidedSignTest, Strategies.Evaluator.oneSidedSignTest]

/-- The probability of `wins` heads or more among `sample` tosses of a fair coin: the share of the sets of tosses that
have so many. -/
def binomialTail (wins sample : ℕ) : ℚ :=
  (Finset.univ.filter fun heads : Finset (Fin sample) => wins ≤ heads.card).card / 2 ^ sample

/-- The sum of the sign test counts the sets. -/
theorem sum_choose_eq_card (wins sample : ℕ) :
    ((List.range' wins (sample + 1 - wins)).map fun index => sample.choose index).sum =
      (Finset.univ.filter fun heads : Finset (Fin sample) => wins ≤ heads.card).card := by
  have hlist : ((List.range' wins (sample + 1 - wins)).map fun index => sample.choose index).sum =
      ∑ index ∈ Finset.Icc wins sample, sample.choose index := by
    rw [Nat.Icc_eq_range']
    rfl
  rw [hlist, Finset.card_eq_sum_card_fiberwise (f := Finset.card) (t := Finset.Icc wins sample)]
  · refine Finset.sum_congr rfl fun index hindex => ?_
    have hfiber : ((Finset.univ.filter fun heads : Finset (Fin sample) => wins ≤ heads.card).filter
        fun heads => heads.card = index) = Finset.powersetCard index Finset.univ := by
      ext heads
      simp only [Finset.mem_filter, Finset.mem_univ, true_and, Finset.mem_powersetCard, Finset.subset_univ]
      constructor
      · exact fun h => h.2
      · rintro rfl
        exact ⟨(Finset.mem_Icc.mp hindex).1, rfl⟩
    rw [hfiber, Finset.card_powersetCard, Finset.card_univ, Fintype.card_fin]
  · intro heads hheads
    have hmany := (Finset.mem_filter.mp hheads).2
    exact Finset.mem_Icc.mpr ⟨hmany, (Finset.card_le_univ heads).trans_eq (Fintype.card_fin sample)⟩

theorem card_heads_le (wins sample : ℕ) :
    (Finset.univ.filter fun heads : Finset (Fin sample) => wins ≤ heads.card).card ≤ 2 ^ sample := by
  refine (Finset.card_filter_le _ _).trans_eq ?_
  rw [Finset.card_univ, Fintype.card_finset, Fintype.card_fin]

theorem binomialTail_mem (wins sample : ℕ) : 0 ≤ binomialTail wins sample ∧ binomialTail wins sample ≤ 1 := by
  have hpos : (0 : ℚ) < 2 ^ sample := by positivity
  constructor
  · exact div_nonneg (Nat.cast_nonneg _) hpos.le
  · apply (div_le_one hpos).mpr
    exact_mod_cast card_heads_le wins sample

/-- The integers up to `2 ^ 1023` are floats. -/
theorem floatOfNat_of_le {n : ℕ} (hn : n ≤ 2 ^ 1023) : floatOfNat n = .ok n := by
  have hhalf : 2 ^ 1024 = 2 ^ 1023 + 2 ^ 1023 := by rw [pow_succ, mul_two]
  have hless : 2 ^ 970 < 2 ^ 1023 := pow_lt_pow_right₀ one_lt_two (by decide)
  unfold floatOfNat
  rw [if_neg]
  rw [hhalf]
  generalize 2 ^ 1023 = half at hn hless
  generalize 2 ^ 970 = step at hless
  omega

/-- From `2 ^ 1024` on they are not. -/
theorem floatOfNat_of_ge {n : ℕ} (hn : 2 ^ 1024 ≤ n) :
    floatOfNat n = .error (.overflowError "int too large to convert to float") :=
  if_pos ((Nat.sub_le _ _).trans hn)

/-- For fewer than 1024 trades the sign test is the tail. -/
theorem oneSidedSignTest_eq {wins sample : ℕ} (hwins : wins ≤ sample) (hsample : sample < 1024) :
    oneSidedSignTest wins sample = .ok (binomialTail wins sample) := by
  unfold oneSidedSignTest
  split_ifs with hzero
  · subst hzero
    obtain rfl : wins = 0 := Nat.le_zero.mp hwins
    have hone : binomialTail 0 0 = 1 := by simp [binomialTail]
    rw [hone]
  · have htotal : 2 ^ sample ≤ 2 ^ 1023 := pow_le_pow_right₀ one_le_two (Nat.le_of_lt_succ hsample)
    rw [sum_choose_eq_card, floatOfNat_of_le ((card_heads_le wins sample).trans htotal), floatOfNat_of_le htotal]
    have htail : min 1 (binomialTail wins sample) = binomialTail wins sample := min_eq_right (binomialTail_mem wins sample).2
    unfold binomialTail at htail ⊢
    rw [← htail]
    push_cast
    rfl

/-- For more it raises. -/
theorem oneSidedSignTest_overflows {wins sample : ℕ} (hsample : 1024 ≤ sample) (p : ℚ) :
    oneSidedSignTest wins sample ≠ .ok p := by
  intro h
  unfold oneSidedSignTest at h
  rw [if_neg (by omega)] at h
  obtain ⟨tail, -, h⟩ := Effect.except_bind_eq_ok.mp h
  obtain ⟨total, htotal, -⟩ := Effect.except_bind_eq_ok.mp h
  rw [floatOfNat_of_ge (pow_le_pow_right₀ one_le_two hsample)] at htotal
  cases htotal

theorem eq_of_mem_signTests {signTest : ℕ → ℕ → Except PyError ℚ} (h : signTest ∈ signTests) :
    signTest = oneSidedSignTest := by
  rcases List.mem_pair.mp h with rfl | rfl <;> rfl

/-- **The sign test**: both copies return the tail of the binomial distribution, a probability, just for samples of less
than 1024 trades. For others they raise. -/
theorem sign_test_iff {wins sample : ℕ} (hwins : wins ≤ sample) :
    ∀ signTest ∈ signTests,
      (∃ p, signTest wins sample = .ok p ∧ p = binomialTail wins sample ∧ 0 ≤ p ∧ p ≤ 1) ↔ sample < 1024 := by
  intro signTest hmem
  rw [eq_of_mem_signTests hmem]
  constructor
  · rintro ⟨p, hp, -⟩
    by_contra hlarge
    exact oneSidedSignTest_overflows (not_lt.mp hlarge) p hp
  · intro hsample
    exact ⟨_, oneSidedSignTest_eq hwins hsample, rfl, binomialTail_mem wins sample⟩

/-- Two or three of three trades won: an even chance. -/
theorem two_of_three : ∃ p, oneSidedSignTest 2 3 = .ok p ∧ p = binomialTail 2 3 ∧ 0 ≤ p ∧ p ≤ 1 :=
  (sign_test_iff (by decide) oneSidedSignTest List.mem_cons_self).mpr (by decide)

/-- All of 1024 trades won: the sum is one, but there is no float for the number of outcomes. -/
theorem sign_test_overflows : 1024 ≤ 1024 ∧ ∀ signTest ∈ signTests,
    signTest 1024 1024 = .error (.overflowError "int too large to convert to float") := by
  refine ⟨le_rfl, ?_⟩
  intro signTest hmem
  rw [eq_of_mem_signTests hmem]
  unfold oneSidedSignTest
  rw [if_neg (by decide), floatOfNat_of_ge le_rfl]
  have hsum : ((List.range' 1024 (1024 + 1 - 1024)).map fun index => Nat.choose 1024 index).sum = 1 := by
    simp [List.range'_one]
  rw [hsum, floatOfNat_of_le (one_le_pow₀ one_le_two)]
  rfl

/-- So the validation has no evidence for a strategy with 1024 trades or more. -/
theorem tradeCount_lt {config : NseValidationConfig} {ordered : List Trade} {windows : List WalkForwardWindow}
    {metrics : Strategies.ValidationMetrics} (h : metricsOf config ordered windows = .ok metrics) :
    metrics.tradeCount < 1024 := by
  obtain ⟨p, hp, h⟩ := Effect.except_bind_eq_ok.mp h
  cases h
  by_contra hlarge
  exact oneSidedSignTest_overflows (not_lt.mp hlarge) p hp

/-! ### The drawdown -/

/-- The two copies of `_maximum_drawdown`. -/
def drawdowns : List (List ℚ → ℚ) := [maximumDrawdown, Strategies.Evaluator.maximumDrawdown]

/-- The equity after `k` returns, from one: a loss of everything leaves nothing. -/
def equity (returns : List ℚ) (k : ℕ) : ℚ := ((returns.take k).map fun value => max 0 (1 + value)).prod

@[simp] theorem equity_zero (returns : List ℚ) : equity returns 0 = 1 := by simp [equity]

theorem equity_succ {returns : List ℚ} {k : ℕ} {value : ℚ} (h : returns[k]? = some value) :
    equity returns (k + 1) = equity returns k * max 0 (1 + value) := by
  unfold equity
  rw [List.take_add_one, h]
  simp

theorem equity_nonneg (returns : List ℚ) (k : ℕ) : 0 ≤ equity returns k := by
  refine List.prod_induction (0 ≤ ·) (fun _ _ => mul_nonneg) zero_le_one ?_
  intro factor hfactor
  obtain ⟨value, -, rfl⟩ := List.mem_map.mp hfactor
  exact le_max_left _ _

/-- The equity so far does not depend on the returns that follow. -/
theorem equity_append {returns : List ℚ} (later : List ℚ) {k : ℕ} (hk : k ≤ returns.length) :
    equity (returns ++ later) k = equity returns k := by
  unfold equity
  rw [List.take_append_of_le_length hk]

/-- The equity comes to zero just by a return of minus one or less. -/
theorem equity_eq_zero_iff (returns : List ℚ) (k : ℕ) : equity returns k = 0 ↔ ∃ value ∈ returns.take k, value ≤ -1 := by
  unfold equity
  rw [List.prod_eq_zero_iff, List.mem_map]
  refine exists_congr fun value => and_congr_right fun _ => ?_
  rw [max_eq_left_iff]
  constructor <;> intro h <;> linarith

/-- The equity, its peak, and the greatest loss from a peak, after some returns. -/
def drawdownState (returns : List ℚ) : ℚ × ℚ × ℚ :=
  returns.foldl (fun (state : ℚ × ℚ × ℚ) value =>
    let equity := state.1 * max 0 (1 + value)
    let peak := max state.2.1 equity
    (equity, peak, max state.2.2 (if peak = 0 then 0 else (peak - equity) / peak))) (1, 1, 0)

/-- What the loop of `_maximum_drawdown` keeps. -/
structure Tracked (returns : List ℚ) (state : ℚ × ℚ × ℚ) : Prop where
  equity : state.1 = equity returns returns.length
  peak : IsGreatest (Validation.equity returns '' Set.Iic returns.length) state.2.1
  drawdown : IsGreatest (falls (Validation.equity returns) returns.length) state.2.2

theorem drawdownState_concat (returns : List ℚ) (value : ℚ) :
    drawdownState (returns ++ [value]) =
      let state := drawdownState returns
      let equity := state.1 * max 0 (1 + value)
      let peak := max state.2.1 equity
      (equity, peak, max state.2.2 (if peak = 0 then 0 else (peak - equity) / peak)) := by
  unfold drawdownState
  rw [List.foldl_append]
  rfl

theorem tracked (returns : List ℚ) : Tracked returns (drawdownState returns) := by
  induction returns using List.reverseRecOn with
  | nil =>
    refine ⟨rfl, ?_, ?_⟩
    · have hset : Validation.equity [] '' Set.Iic 0 = {1} := by
        rw [← Nat.bot_eq_zero, Set.Iic_bot, Set.image_singleton]
        rfl
      rw [List.length_nil, hset]
      exact isGreatest_singleton
    · exact isGreatest_falls_zero (by simp)
  | append_singleton returns value ih =>
    have hbefore : ∀ k ≤ returns.length, Validation.equity (returns ++ [value]) k = Validation.equity returns k :=
      fun k hk => equity_append [value] hk
    have hnew : (drawdownState returns).1 * max 0 (1 + value) =
        Validation.equity (returns ++ [value]) (returns.length + 1) := by
      rw [equity_succ List.getElem?_concat_length, hbefore _ le_rfl, ih.equity]
    have hpeak : IsGreatest (Validation.equity (returns ++ [value]) '' Set.Iic returns.length)
        (drawdownState returns).2.1 := by
      have himage : Validation.equity (returns ++ [value]) '' Set.Iic returns.length =
          Validation.equity returns '' Set.Iic returns.length := Set.image_congr fun k hk => hbefore k hk
      rw [himage]
      exact ih.peak
    have hpos : 0 < (drawdownState returns).2.1 := by
      have hone : Validation.equity returns 0 ≤ (drawdownState returns).2.1 := ih.peak.2 ⟨0, Nat.zero_le _, rfl⟩
      rw [equity_zero] at hone
      linarith
    have hdrawdown : IsGreatest (falls (Validation.equity (returns ++ [value])) returns.length)
        (drawdownState returns).2.2 := by
      rw [falls_congr hbefore]
      exact ih.drawdown
    have hpeak' := isGreatest_image_succ hpeak
    rw [drawdownState_concat]
    dsimp only
    rw [hnew, if_neg (hpos.trans_le (le_max_left _ _)).ne']
    refine ⟨?_, ?_, ?_⟩
    · rw [List.length_append, List.length_singleton]
    · rw [List.length_append, List.length_singleton]
      exact hpeak'
    · rw [List.length_append, List.length_singleton]
      exact isGreatest_falls_succ hdrawdown hpeak hpos (equity_nonneg _ _)

theorem maximumDrawdown_isGreatest (returns : List ℚ) :
    IsGreatest (falls (equity returns) returns.length) (maximumDrawdown returns) := (tracked returns).drawdown

/-- **The drawdown**: for every list of returns, both copies give the greatest fall of the equity over all pairs of places,
zero for no returns. It is between zero and one, one just if a return is minus one or less, and does not decrease with
more returns. -/
theorem drawdown_is_greatest_fall (returns : List ℚ) :
    ∀ drawdown ∈ drawdowns,
      IsGreatest {d | ∃ i j, i ≤ j ∧ j ≤ returns.length ∧ 0 < equity returns i ∧
        d = (equity returns i - equity returns j) / equity returns i} (drawdown returns) ∧
      drawdown [] = 0 ∧ 0 ≤ drawdown returns ∧ drawdown returns ≤ 1 ∧
      (drawdown returns = 1 ↔ ∃ value ∈ returns, value ≤ -1) ∧
      ∀ later, drawdown returns ≤ drawdown (returns ++ later) := by
  intro drawdown hmem
  obtain rfl : drawdown = maximumDrawdown := by rcases List.mem_pair.mp hmem with rfl | rfl <;> rfl
  have hgreatest := maximumDrawdown_isGreatest returns
  have hfirst : 0 < equity returns 0 := by simp
  have hone : maximumDrawdown returns ≤ 1 := le_one_of_mem_falls (fun k _ => equity_nonneg returns k) hgreatest.1
  refine ⟨hgreatest, rfl, ?_, hone, ?_, ?_⟩
  · exact hgreatest.2 (falls_mono (Nat.zero_le _) (isGreatest_falls_zero hfirst).1)
  · have hwhole : maximumDrawdown returns = 1 ↔ (1 : ℚ) ∈ falls (equity returns) returns.length := by
      constructor
      · intro h
        exact h ▸ hgreatest.1
      · intro h
        exact le_antisymm hone (hgreatest.2 h)
    rw [hwhole, one_mem_falls_iff hfirst]
    constructor
    · rintro ⟨k, -, hzero⟩
      obtain ⟨value, hvalue, hle⟩ := (equity_eq_zero_iff returns k).mp hzero
      exact ⟨value, List.mem_of_mem_take hvalue, hle⟩
    · rintro ⟨value, hvalue, hle⟩
      refine ⟨returns.length, le_rfl, (equity_eq_zero_iff returns _).mpr ⟨value, ?_, hle⟩⟩
      rwa [List.take_length]
  · intro later
    refine (maximumDrawdown_isGreatest (returns ++ later)).2 ?_
    have hlonger : returns.length ≤ (returns ++ later).length := by simp
    apply falls_mono hlonger
    rw [falls_congr fun k hk => equity_append later hk]
    exact hgreatest.1

/-- A gain of a tenth, then the loss of a half. -/
theorem half_lost :
    IsGreatest {d | ∃ i j, i ≤ j ∧ j ≤ 2 ∧ 0 < equity [1 / 10, -1 / 2] i ∧
      d = (equity [1 / 10, -1 / 2] i - equity [1 / 10, -1 / 2] j) / equity [1 / 10, -1 / 2] i} (1 / 2) := by
  have hvalue : maximumDrawdown [1 / 10, -1 / 2] = 1 / 2 := by decide +kernel
  rw [← hvalue]
  exact (drawdown_is_greatest_fall [1 / 10, -1 / 2] maximumDrawdown List.mem_cons_self).1

example : maximumDrawdown [1 / 10, -1 / 2, 1 / 5, -1 / 10] = 1 / 2 := by decide +kernel

end NanoDelta.Validation
