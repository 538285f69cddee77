import NanoDelta.Library.Table
import NanoDelta.Strategies.Technical
import NanoDelta.Validation.CandleWindow

/-!
# What the evidence is made of

`evaluate_nse_strategy` over two lists of candles. The candles after the end of the campaign, of other symbols, of
another timeframe or of another provider leave no trace in the evidence, and neither does the order of the list.

* `seriesOf_congr`: the series of the campaign are the same.
* `evidence_is_of_the_campaign`: so is the evidence, or the error.
-/

namespace NanoDelta.Validation

open Library Strategies

/-- A candle that is not of the campaign: later than its end, of another symbol, timeframe or provider. -/
def Foreign (campaign : NseValidationCampaign) (identity : StrategyIdentity) (candle : SettledCandle) : Prop :=
  campaign.requestedEnd < candle.openTime ∨ candle.symbol ∉ campaign.symbols ∨
    candle.timeframe ≠ identity.timeframe ∨ candle.provider ≠ .dhan

instance (campaign : NseValidationCampaign) (identity : StrategyIdentity) :
    DecidablePred (Foreign campaign identity) := fun _ => inferInstanceAs (Decidable (_ ∨ _ ∨ _ ∨ _))

/-- The candles of the campaign. -/
def own (campaign : NseValidationCampaign) (identity : StrategyIdentity) (candles : List SettledCandle) :
    List SettledCandle := candles.filter fun candle => ¬ Foreign campaign identity candle

section Evidence

variable {campaign : NseValidationCampaign} {identity : StrategyIdentity} {candles candles' : List SettledCandle}

/-- What the evaluation selects are the candles of the campaign. -/
theorem selected_eq_own : selected campaign identity candles = own campaign identity candles := by
  unfold selected own
  refine List.filter_congr fun candle _ => ?_
  rw [decide_eq_decide]
  unfold Foreign
  rw [← not_lt]
  tauto

/-- Candles of one symbol with different times are in one order only. -/
theorem byOpenTime_perm {rows rows' : List SettledCandle} (hperm : rows.Perm rows')
    (hdistinct : rows.Pairwise fun a b => a.openTime ≠ b.openTime) : byOpenTime rows = byOpenTime rows' := by
  have hle : ∀ a b : SettledCandle, a.openTime ≤ b.openTime ↔ a.openTime ≤ b.openTime := fun _ _ => Iff.rfl
  have htimes : (rows.map SettledCandle.openTime).Nodup := List.pairwise_map.mpr hdistinct
  exact insertionSort_eq_of_perm hle hperm fun a ha b hb heq => Table.eq_of_key_eq htimes ha hb heq

/-- **The series** of the campaign do not depend on foreign candles and on the order of the list. -/
theorem seriesOf_congr (hperm : (own campaign identity candles).Perm (own campaign identity candles'))
    (hdistinct : (own campaign identity candles).Pairwise fun a b => a.symbol = b.symbol → a.openTime ≠ b.openTime) :
    seriesOf campaign identity candles = seriesOf campaign identity candles' := by
  have hgroup : ∀ symbol, byOpenTime ((own campaign identity candles).filter fun c => c.symbol = symbol) =
      byOpenTime ((own campaign identity candles').filter fun c => c.symbol = symbol) := by
    intro symbol
    refine byOpenTime_perm (hperm.filter _) (List.pairwise_filter.mpr (hdistinct.imp fun h ha hb => ?_))
    exact h ((of_decide_eq_true ha).trans (of_decide_eq_true hb).symm)
  have hentries := groupBy_perm hperm hgroup
  have hsort : ∀ entries : List (String × List SettledCandle),
      ((entries.insertionSort fun a b => a.1 ≤ b.1).map fun e => (e.1, byOpenTime e.2)) =
        (entries.map fun e => (e.1, byOpenTime e.2)).insertionSort fun a b => a.1 ≤ b.1 :=
    fun entries => List.map_insertionSort _ _ _ _ fun _ _ _ _ => Iff.rfl
  have hle : ∀ a b : String × List SettledCandle, a.1 ≤ b.1 ↔ a.1 ≤ b.1 := fun _ _ => Iff.rfl
  unfold seriesOf
  rw [selected_eq_own, selected_eq_own, hsort, hsort]
  refine insertionSort_eq_of_perm hle hentries fun a ha b hb heq => ?_
  obtain ⟨e, he, rfl⟩ := List.mem_map.mp ha
  obtain ⟨e', he', rfl⟩ := List.mem_map.mp hb
  obtain rfl := Table.eq_of_key_eq (groupBy SettledCandle.symbol (own campaign identity candles)).nodup he he' heq
  rfl

end Evidence

/-- **The evidence is of the campaign**: with the same candles of the campaign, in any order, the evaluation gives the
same evidence, or raises the same. -/
theorem evidence_is_of_the_campaign (host : ResearchHost) {campaign : NseValidationCampaign} {plugin : StrategyPlugin}
    {candles candles' : List SettledCandle}
    (hperm : (own campaign plugin.definition.identity candles).Perm (own campaign plugin.definition.identity candles'))
    (hdistinct : (own campaign plugin.definition.identity candles).Pairwise fun a b =>
      a.symbol = b.symbol → a.openTime ≠ b.openTime)
    (readiness : List NseReadinessEvidence) :
    evaluateNseStrategy host campaign plugin candles readiness =
      evaluateNseStrategy host campaign plugin candles' readiness := by
  have hseries := seriesOf_congr hperm hdistinct
  have htrades : tradesOf host.toHost campaign plugin candles = tradesOf host.toHost campaign plugin candles' := by
    unfold tradesOf
    rw [hseries]
  unfold evaluateNseStrategy
  rw [htrades, hseries]

namespace Sample

/-- The runtime, on texts without quotes. -/
def host : ResearchHost := { Host.cpython with dumpStr := fun text => "\"" ++ text ++ "\"" }

/-- A strategy that buys at every close. -/
def buyer : StrategyPlugin where
  definition := technicalDefinition .nse "buyer" "5m" "buyer" [] "Buyer"
  compatibility _ := .ok (true, "COMPATIBLE")
  generate context := do
    let close ← featureValue context.features "close"
    let signal ← StrategySignal.create .buy 1 close (close - 1) (close + 1) 0 0 0
    return some signal

/-- A campaign up to the last of the hundred bars. -/
def day : NseValidationCampaign where
  campaignId := "campaign-1"
  evaluatedAt := (bar 99 100).openTime
  requestedStart := (bar 0 121).openTime
  requestedEnd := (bar 99 100).openTime
  symbols := ["RELIANCE"]
  config := {}

/-- A later bar, and a bar of the day from another provider. -/
def foreignBars : List SettledCandle := [lastBar, { bar 50 120 with provider := .truedata }]

end Sample

/-- A later bar, another provider and the order of the bars change nothing. -/
theorem foreign_bars_leave_no_trace :
    evaluateNseStrategy Sample.host Sample.day Sample.buyer Sample.bars [] =
      evaluateNseStrategy Sample.host Sample.day Sample.buyer (Sample.foreignBars ++ Sample.bars.reverse) [] := by
  have hown : own Sample.day Sample.buyer.definition.identity Sample.bars = Sample.bars :=
    List.filter_eq_self.mpr (by decide +kernel)
  refine evidence_is_of_the_campaign Sample.host ?_ ?_ []
  · have hforeign : own Sample.day Sample.buyer.definition.identity Sample.foreignBars = [] := by decide +kernel
    have hreverse : own Sample.day Sample.buyer.definition.identity Sample.bars.reverse = Sample.bars.reverse :=
      List.filter_eq_self.mpr (by decide +kernel)
    unfold own at hown hforeign hreverse ⊢
    rw [hown, List.filter_append, hforeign, hreverse, List.nil_append]
    exact (List.reverse_perm _).symm
  · rw [hown]
    refine (Sample.bars_distinct.sublist (List.sublist_append_left _ _)).imp ?_
    exact fun hne _ => hne

end NanoDelta.Validation
