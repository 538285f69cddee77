import Mathlib.Algebra.Order.BigOperators.Group.List
import Mathlib.Tactic.NormNum
import NanoDelta.Pipeline
import NanoDelta.Providers.Dhan
import NanoDelta.Readers
import NanoDelta.Runtime.Bars

/-!
# Bars as payloads

A settled candle goes to the pipeline as a payload of the provider whose quote settled it (`_candle_payload`), and the
adapter of the provider takes it apart again. The two use the same names, and the adapter reads the time of the open as
it was written: as a text in ISO format, or as a number of milliseconds, which is large enough to be taken as one from
1 May 1970 on.

* `read_back`: the candle that the adapter makes has the values of the settled candle, and is settled.
-/

namespace NanoDelta.Runtime

open Library Markets

/-! ### The labels of the bars -/

/-- `_BAR_SECONDS`. -/
def barSeconds : List (String × ℤ) :=
  [("1m", 60), ("5m", 300), ("15m", 900), ("30m", 1800), ("1h", 3600), ("4h", 14400)]

/-- `_bar_timeframes`, for the value of the variable. -/
def barTimeframes (host : Host) (reader : Reader) (name value : String) : Except PyError (List (String × ℤ)) :=
  let labels := (((value.toList.splitOn ',').map String.ofList).filter fun label => !isBlank label).map fun label =>
    reader.lower (Providers.strip label)
  let unsupported := labels.filter fun label => (barSeconds.lookup label).isNone
  if labels = [] ∨ ¬ labels.Nodup then .error (.runtimeError (name ++ " must contain unique timeframe labels"))
  else if unsupported ≠ [] then
    .error (.runtimeError (name ++ " contains unsupported timeframes: [" ++
      ", ".intercalate ((unsupported.insertionSort fun a b => a ≤ b).map host.reprStr) ++ "]"))
  else if "1m" ∉ labels then .error (.runtimeError (name ++ " must include 1m"))
  else .ok (labels.filterMap fun label => (barSeconds.lookup label).map fun seconds => (label, seconds))

/-- A label that is accepted. -/
def AcceptedLabel (host : Host) (reader : Reader) (label : String) : Prop :=
  ∃ name value accepted, barTimeframes host reader name value = .ok accepted ∧ label ∈ accepted.map Prod.fst

/-- A label that is accepted is one of `_BAR_SECONDS`. -/
theorem mem_barSeconds_of_accepted {host : Host} {reader : Reader} {label : String}
    (h : AcceptedLabel host reader label) : label ∈ barSeconds.map Prod.fst := by
  obtain ⟨name, value, accepted, hok, hlabel⟩ := h
  unfold barTimeframes at hok
  dsimp only at hok
  split_ifs at hok
  cases hok
  obtain ⟨⟨_, seconds⟩, hmem, rfl⟩ := List.mem_map.mp hlabel
  obtain ⟨label, -, hlookup⟩ := List.mem_filterMap.mp hmem
  obtain ⟨found, hfound, hpair⟩ := Option.map_eq_some_iff.mp hlookup
  cases hpair
  obtain ⟨before, after, hsplit, -⟩ := List.lookup_eq_some_iff.mp hfound
  rw [hsplit]
  simp

/-! ### What a candle of a builder is like -/

section Candles

variable {timeframeSeconds : ℤ} {label : String} {quotes : List QuoteEvent} {symbol : String} {candle : SettledCandle}

/-- A fold of quotes has its open and its close between its low and its high. -/
theorem IsFold.range (h : IsFold candle quotes) :
    candle.low ≤ min candle.openPrice candle.close ∧ max candle.openPrice candle.close ≤ candle.high := by
  have hopen := List.mem_of_mem_head? h.openPrice
  have hclose := List.mem_of_getLast? h.close
  obtain ⟨-, hhigh⟩ := List.max?_eq_some_iff.mp h.high
  obtain ⟨-, hlow⟩ := List.min?_eq_some_iff.mp h.low
  exact ⟨le_min (hlow _ hopen) (hlow _ hclose), max_le (hhigh _ hopen) (hhigh _ hclose)⟩

/-- The volume of a fold of quotes is not negative if theirs are not. -/
theorem IsFold.volume_nonneg (h : IsFold candle quotes) (hvolume : ∀ quote ∈ quotes, 0 ≤ quote.volume) :
    0 ≤ candle.volume := by
  rw [← h.volume]
  apply List.sum_nonneg
  intro volume hmem
  obtain ⟨quote, hquote, rfl⟩ := List.mem_map.mp hmem
  exact hvolume quote hquote

theorem mem_of_mem_accepted {self : CandleBuilder} {quote : QuoteEvent} (h : quote ∈ self.accepted quotes) :
    quote ∈ quotes := by
  induction quotes generalizing self with
  | nil => cases h
  | cons first quotes ih =>
    rcases List.mem_append.mp h with h | h
    · split_ifs at h
      · cases h
      · rw [List.mem_singleton.mp h]
        exact List.mem_cons_self ..
    · exact List.mem_cons_of_mem _ (ih h)

/-- The open of a bar is that of one of its quotes. -/
theorem exists_openOf (h : candle ∈ bars timeframeSeconds label quotes symbol) :
    ∃ quote ∈ quotes, openOf timeframeSeconds label quote = candle.openTime := by
  obtain ⟨-, -, hfold⟩ := isFold_of_mem_bars h
  obtain ⟨price, hprice⟩ := List.exists_mem_of_ne_nil _ (List.ne_nil_of_mem (List.mem_of_mem_head? hfold.openPrice))
  obtain ⟨quote, hquote, -⟩ := List.mem_map.mp hprice
  exact ⟨quote, mem_of_mem_accepted (List.mem_of_mem_filter hquote),
    (of_decide_eq_true (List.mem_filter.mp hquote).2).2⟩

/-- A bar opens on a whole second. -/
theorem whole_of_mem_bars (h : candle ∈ bars timeframeSeconds label quotes symbol) : candle.openTime % 1000000 = 0 := by
  obtain ⟨quote, -, hopen⟩ := exists_openOf h
  rw [← hopen]
  exact Int.mul_emod_left _ _

/-- The open of a bar is not after a time in it, but for times before the epoch. -/
theorem opened_le {bar : ℤ} (hpos : 0 < bar) (t : ℤ) :
    (t.tdiv 1000000 - t.tdiv 1000000 % bar) * 1000000 ≤ max t 0 := by
  have hmod := Int.emod_nonneg (t.tdiv 1000000) hpos.ne'
  generalize t.tdiv 1000000 % bar = r at *
  rw [Int.tdiv_eq_ediv]
  split_ifs with hwhole
  · omega
  · rw [show Int.sign 1000000 = 1 from rfl]
    omega

/-- A bar opens at a time that a `datetime` can be. -/
theorem lt_end_of_mem_bars (hpos : 0 < timeframeSeconds) (htimes : ∀ quote ∈ quotes, quote.eventTime.astimezone < datetimeEnd)
    (h : candle ∈ bars timeframeSeconds label quotes symbol) : candle.openTime < datetimeEnd := by
  obtain ⟨quote, hquote, hopen⟩ := exists_openOf h
  rw [← hopen]
  exact (opened_le hpos quote.eventTime.astimezone).trans_lt (max_lt (htimes quote hquote) (by decide))

end Candles

/-! ### Reading back -/

section ReadBack

variable {host : Host} {reader : Reader}

/-- The candle that goes into Silver for a settled candle. -/
structure ReadBack (candle : SettledCandle) (canonical : CanonicalCandle) : Prop where
  openTime : canonical.openTime = candle.openTime
  timeframe : canonical.timeframe = candle.timeframe
  openPrice : canonical.openPrice = candle.openPrice
  high : canonical.high = candle.high
  low : canonical.low = candle.low
  close : canonical.close = candle.close
  volume : canonical.volume = candle.volume
  settled : canonical.isSettled = true

/-- The candle of fields that read the values of a settled candle. -/
theorem candleOf_eq {raw : RawRecord} {candle : SettledCandle} (symbol : String) (hvolume : 0 ≤ candle.volume)
    (hrange : candle.low ≤ min candle.openPrice candle.close ∧ max candle.openPrice candle.close ≤ candle.high)
    {fields : CandleFields}
    (hfields : fields = ⟨symbol, candle.timeframe, .ok candle.openTime, .ok candle.openPrice, .ok candle.high,
      .ok candle.low, .ok candle.close, .ok candle.volume, true⟩) :
    ∃ canonical, candleOf host raw fields = .ok canonical ∧ ReadBack candle canonical := by
  subst hfields
  unfold candleOf CanonicalCandle.create
  have hvolume' : ¬ candle.volume < 0 := hvolume.not_gt
  have hrange' : ¬ (min candle.openPrice candle.close < candle.low ∨ candle.high < max candle.openPrice candle.close) :=
    not_or.mpr ⟨hrange.1.not_gt, hrange.2.not_gt⟩
  simp only [bind, Except.bind]
  rw [dif_neg hvolume', dif_neg hrange']
  exact ⟨_, rfl, ⟨rfl, rfl, rfl, rfl, rfl, rfl, rfl, rfl⟩⟩

/-- A time in ISO format is read back. -/
theorem timestamp_iso (hreader : reader.Documented) {t : Instant} (h : 0 ≤ t) (hend : t < datetimeEnd)
    (hwhole : t % 1000000 = 0) : timestamp reader (.str (isoformat t)) = .ok t := by
  unfold timestamp
  simp only [hreader.isdigit_isoformat t, Bool.false_eq_true, if_false]
  unfold fromIso
  rw [hreader.fromisoformat_isoformat t h hend hwhole]

/-- A time from 1970 on is a number of seconds. -/
theorem exists_seconds {t : ℤ} (h : 0 ≤ t) (hwhole : t % 1000000 = 0) :
    ∃ n : ℕ, t = seconds n ∧ t.tdiv 1000 = ((1000 * n : ℕ) : ℤ) := by
  refine ⟨(t / 1000000).toNat, ?_, ?_⟩
  · unfold seconds
    omega
  · rw [Int.tdiv_eq_ediv_of_nonneg h]
    omega

/-- A time in milliseconds is read back, if it is from 1 May 1970 on. -/
theorem timestamp_millis (hreader : reader.Documented) {t : Instant} (h : seconds 10368000 ≤ t) (hend : t < datetimeEnd)
    (hwhole : t % 1000000 = 0) : timestamp reader (.str (toString (t.tdiv 1000))) = .ok t := by
  obtain ⟨n, rfl, hmillis⟩ := exists_seconds (le_trans (by decide) h) hwhole
  have hn : 10368000 ≤ n := by
    unfold seconds at h
    omega
  have htext : toString ((1000 * n : ℕ) : ℤ) = toString (1000 * n) := rfl
  have hlarge : (10000000000 : ℚ) < ((1000 * n : ℕ) : ℚ) := by
    exact_mod_cast (by omega : 10000000000 < 1000 * n)
  have hsecond : ((1000 * n : ℕ) : ℚ) / 1000 = n := by
    push_cast
    exact mul_div_cancel_left₀ _ (by norm_num)
  unfold timestamp
  rw [hmillis, htext]
  simp only [hreader.isdigit_digits, if_true, Reader.number, hreader.float_digits]
  show fromEpoch reader ((1000 * n : ℕ) : ℚ) = _
  unfold fromEpoch
  rw [if_pos hlarge, hsecond]
  exact hreader.fromtimestamp_seconds n hend

@[simp] theorem text_str (text : String) : reader.text (.str text) = text := rfl

@[simp] theorem number_num (q : ℚ) : reader.number (.num q) = .ok q := rfl

@[simp] theorem truth_bool (b : Bool) : (Json.bool b).truth = b := rfl

/-- The text of the open in the payload of a provider. -/
def openText (candle : SettledCandle) : Provider → String
  | .dhan | .truedata | .oanda => isoformat candle.openTime
  | .okx | .poloniex => toString (candle.openTime.tdiv 1000)

/-- The timeframe that the adapter of a provider reads. -/
def timeframeText (reader : Reader) (candle : SettledCandle) : Provider → String
  | .poloniex => reader.lower candle.timeframe
  | _ => candle.timeframe

/-- What the adapter of a provider reads from the payload of a candle. -/
theorem adapters_candlePayload {provider : Provider} {candle : SettledCandle} {raw : RawRecord}
    (hpayload : raw.payload = candlePayload provider candle) :
    ∃ symbol, (adapters host reader provider).2 raw = candleOf host raw
      ⟨symbol, timeframeText reader candle provider, timestamp reader (.str (openText candle provider)),
        .ok candle.openPrice, .ok candle.high, .ok candle.low, .ok candle.close, .ok candle.volume, true⟩ := by
  cases provider with
  | dhan =>
    refine ⟨reader.upper raw.providerSymbol, congrArg (candleOf host raw) ?_⟩
    rw [hpayload]
    simp [candlePayload, payloadOf, entriesOf, textField, timeField, required, floatField, truthField, Dict.get?_set,
      bind, Except.bind, openText, timeframeText]
  | truedata =>
    refine ⟨reader.upper raw.providerSymbol, congrArg (candleOf host raw) ?_⟩
    rw [hpayload]
    simp [candlePayload, payloadOf, entriesOf, textField, timeField, required, floatField, truthField, Dict.get?_set,
      bind, Except.bind, openText, timeframeText]
  | oanda =>
    have hmid : raw.payload.get? "mid" = some (.obj [("o", .num candle.openPrice), ("h", .num candle.high),
        ("l", .num candle.low), ("c", .num candle.close)]) := by
      rw [hpayload]
      simp [candlePayload, payloadOf, entriesOf, Dict.get?_set]
    show ∃ symbol, oanda host reader raw = _
    unfold oanda
    dsimp only
    rw [hmid]
    refine ⟨pairSymbol reader raw, congrArg (candleOf host raw) ?_⟩
    rw [hpayload]
    simp [candlePayload, payloadOf, entriesOf, textField, timeField, required, floatField, truthField, Dict.get?_set,
      bind, Except.bind, openText, timeframeText]
  | okx =>
    refine ⟨pairSymbol reader raw, congrArg (candleOf host raw) ?_⟩
    rw [hpayload]
    simp [candlePayload, payloadOf, entriesOf, textField, timeField, required, floatField, Dict.get?_set,
      bind, Except.bind, openText, timeframeText]
  | poloniex =>
    refine ⟨pairSymbol reader raw, congrArg (candleOf host raw) ?_⟩
    rw [hpayload]
    simp [candlePayload, payloadOf, entriesOf, textField, timeField, required, floatField, truthField, Dict.get?_set,
      bind, Except.bind, openText, timeframeText]

/-- The open is read back, whatever the provider. -/
theorem timestamp_openText (hreader : reader.Documented) {candle : SettledCandle} (hopen : seconds 10368000 ≤ candle.openTime)
    (hend : candle.openTime < datetimeEnd) (hwhole : candle.openTime % 1000000 = 0) (provider : Provider) :
    timestamp reader (.str (openText candle provider)) = .ok candle.openTime := by
  have hiso := timestamp_iso hreader (le_trans (by decide) hopen) hend hwhole
  have hmillis := timestamp_millis hreader hopen hend hwhole
  cases provider with
  | dhan => exact hiso
  | truedata => exact hiso
  | oanda => exact hiso
  | okx => exact hmillis
  | poloniex => exact hmillis

/-- So is the timeframe. -/
theorem timeframeText_eq (hreader : reader.Documented) {candle : SettledCandle}
    (hlabel : candle.timeframe ∈ barSeconds.map Prod.fst) (provider : Provider) :
    timeframeText reader candle provider = candle.timeframe := by
  cases provider with
  | poloniex =>
    have hall : ∀ label ∈ barSeconds.map Prod.fst, ∀ c ∈ label.toList, c.isDigit ∨ c.isLower := by simp [barSeconds]
    exact hreader.lower_of_lower _ (hall _ hlabel)
  | dhan => rfl
  | truedata => rfl
  | oanda => rfl
  | okx => rfl

/-- A raw record of the market of its provider goes to the adapter of the provider. -/
theorem settledRaw_of_adapters {raw : RawRecord} {canonical : CanonicalCandle}
    (hmarket : raw.market = (adapters host reader raw.provider).1)
    (h : (adapters host reader raw.provider).2 raw = .ok canonical) (hsettled : canonical.isSettled = true) :
    settledRaw host reader raw = .ok (some canonical) := by
  have hcanonical : canonicalOf host reader raw = .ok canonical := by
    unfold canonicalOf adapterFor
    dsimp only
    rw [if_neg (not_not.mpr hmarket)]
    exact h
  unfold settledRaw
  rw [hcanonical]
  simp [hsettled]

/-! ### Errors that are caught -/

/-- A text that is no time is a `ValueError`. -/
theorem rejection_of_fromIso {text : String} {e : PyError} (h : fromIso reader text = .error e) : e.rejection ≠ none := by
  unfold fromIso at h
  split at h
  · cases h
    exact Option.some_ne_none _
  · cases h
    exact Option.some_ne_none _
  · cases h

theorem timestamp_of_not_isdigit {text : String} (h : reader.isdigit text = false) :
    timestamp reader (.str text) = fromIso reader text := by
  unfold timestamp
  simp [h]

/-- A text of milliseconds is read as some time, unless they are negative. -/
theorem rejection_of_millis (hreader : reader.Documented) {t : ℤ} (hend : t < datetimeEnd) (hwhole : t % 1000000 = 0)
    {e : PyError} (h : timestamp reader (.str (toString (t.tdiv 1000))) = .error e) : e.rejection ≠ none := by
  by_cases hneg : t < 0
  · obtain ⟨n, hn⟩ : ∃ n : ℕ, t.tdiv 1000 = Int.negSucc n := by
      refine ⟨(-(t / 1000) - 1).toNat, ?_⟩
      rw [Int.tdiv_eq_ediv_of_dvd (by omega), Int.negSucc_eq]
      omega
    have htext : toString (Int.negSucc n) = "-" ++ toString (n + 1) := rfl
    rw [hn, htext, timestamp_of_not_isdigit (hreader.isdigit_minus _)] at h
    exact rejection_of_fromIso h
  · obtain ⟨n, rfl, hmillis⟩ := exists_seconds (not_lt.mp hneg) hwhole
    have htext : toString ((1000 * n : ℕ) : ℤ) = toString (1000 * n) := rfl
    unfold timestamp at h
    rw [hmillis, htext] at h
    simp only [hreader.isdigit_digits, if_true, Reader.number, hreader.float_digits, bind, Except.bind] at h
    unfold fromEpoch at h
    have hsecond : ((1000 * n : ℕ) : ℚ) / 1000 = n := by
      push_cast
      exact mul_div_cancel_left₀ _ (by norm_num)
    split_ifs at h with hlarge
    · rw [hsecond, hreader.fromtimestamp_seconds n hend] at h
      cases h
    · have hsmall : 1000 * n ≤ 10000000000 := by
        exact_mod_cast not_lt.mp hlarge
      rw [hreader.fromtimestamp_seconds (1000 * n) (by unfold datetimeEnd seconds; push_cast; omega)] at h
      cases h

theorem rejection_of_openText (hreader : reader.Documented) {candle : SettledCandle} (hend : candle.openTime < datetimeEnd)
    (hwhole : candle.openTime % 1000000 = 0) (provider : Provider) {e : PyError}
    (h : timestamp reader (.str (openText candle provider)) = .error e) : e.rejection ≠ none := by
  have hiso : timestamp reader (.str (isoformat candle.openTime)) = .error e → e.rejection ≠ none := by
    rw [timestamp_of_not_isdigit (hreader.isdigit_isoformat _)]
    exact rejection_of_fromIso
  cases provider with
  | dhan => exact hiso h
  | truedata => exact hiso h
  | oanda => exact hiso h
  | okx => exact rejection_of_millis hreader hend hwhole h
  | poloniex => exact rejection_of_millis hreader hend hwhole h

/-- `ingest` catches every exception that the payload of a candle makes an adapter raise. -/
theorem rejection_of_candlePayload (hreader : reader.Documented) {raw : RawRecord} {candle : SettledCandle}
    (hpayload : raw.payload = candlePayload raw.provider candle) (hend : candle.openTime < datetimeEnd)
    (hwhole : candle.openTime % 1000000 = 0) {e : PyError} (h : canonicalOf host reader raw = .error e) :
    e.rejection ≠ none := by
  obtain ⟨symbol, hadapter⟩ := @adapters_candlePayload host reader _ _ _ hpayload
  unfold canonicalOf adapterFor at h
  dsimp only at h
  split_ifs at h with hmarket
  · cases h
    exact Option.some_ne_none _
  · have hcandle : candleOf host raw _ = .error e := hadapter.symm.trans h
    unfold candleOf at hcandle
    cases hread : timestamp reader (.str (openText candle raw.provider)) with
    | error e' =>
      simp only [hread, bind, Except.bind] at hcandle
      cases hcandle
      exact rejection_of_openText hreader hend hwhole _ hread
    | ok t =>
      simp only [hread, bind, Except.bind] at hcandle
      unfold CanonicalCandle.create at hcandle
      split_ifs at hcandle
      · cases hcandle
        exact Option.some_ne_none _
      · cases hcandle
        exact Option.some_ne_none _

end ReadBack

/-- **Bars are read back.** What `ingest` makes of the payload of a settled candle is a candle with the values of the
settled one, and it is settled. -/
theorem read_back (host : Host) {reader : Reader} (hreader : reader.Documented) (provider : Provider)
    {timeframeSeconds : ℤ} {label : String} (hlabel : AcceptedLabel host reader label) {quotes : List QuoteEvent}
    (hvolume : ∀ quote ∈ quotes, 0 ≤ quote.volume) {symbol : String} {candle : SettledCandle}
    (hcandle : candle ∈ settled timeframeSeconds label quotes symbol) (hopen : seconds 10368000 ≤ candle.openTime)
    (hend : candle.openTime < datetimeEnd) (now : Instant) :
    ∃ canonical, settledOf host reader (adapters host reader provider).1 provider symbol (candlePayload provider candle)
        (.aware now) = .ok (some canonical) ∧ ReadBack candle canonical := by
  have hbar : candle ∈ bars timeframeSeconds label quotes symbol := List.mem_append_left _ hcandle
  obtain ⟨-, hsame, hfold⟩ := isFold_of_mem_bars hbar
  have hvolume' : 0 ≤ candle.volume :=
    hfold.volume_nonneg fun quote hquote => hvolume quote (mem_of_mem_accepted (List.mem_of_mem_filter hquote))
  have hlabel' : candle.timeframe ∈ barSeconds.map Prod.fst := hsame ▸ mem_barSeconds_of_accepted hlabel
  obtain ⟨raw, hraw, hmarket, hprovider, hpayload⟩ :
      ∃ raw, RawRecord.create host reader (adapters host reader provider).1 provider .candle symbol (.aware now)
        (candlePayload provider candle) = .ok raw ∧ raw.market = (adapters host reader provider).1 ∧
        raw.provider = provider ∧ raw.payload = candlePayload provider candle :=
    ⟨_, rfl, rfl, rfl, rfl⟩
  obtain ⟨read, hread⟩ := adapters_candlePayload hpayload
  rw [timestamp_openText hreader hopen hend (whole_of_mem_bars hbar), timeframeText_eq hreader hlabel'] at hread
  obtain ⟨canonical, hcanonical, hback⟩ := candleOf_eq read hvolume' hfold.range rfl
  rw [← hread] at hcanonical
  refine ⟨canonical, ?_, hback⟩
  unfold settledOf
  rw [hraw]
  subst hprovider
  exact settledRaw_of_adapters hmarket hcanonical hback.settled

namespace Sample

/-- Two quotes in a minute of 2026-08-15, and one in the next. -/
def noonQuotes : List QuoteEvent :=
  [btcQuote (seconds 1786795200) 100, btcQuote (seconds 1786795230) 102, btcQuote (seconds 1786795260) 101]

/-- The candle of the minute. -/
def noonCandle : SettledCandle := ⟨"BTC_USDT", "1m", seconds 1786795200, 100, 102, 100, 102, 2⟩

end Sample

/-- The minute settles, and its candle is read back from a payload of Poloniex. -/
theorem noon_read_back : ∃ canonical, settledOf .cpython .plain .crypto .poloniex "BTC_USDT"
    (candlePayload .poloniex Sample.noonCandle) (.aware (seconds 1786795261)) = .ok (some canonical) ∧
      ReadBack Sample.noonCandle canonical := by
  have hlabel : AcceptedLabel .cpython .plain "1m" :=
    ⟨"NANODELTA_NSE_REALTIME_TIMEFRAMES", "1m", [("1m", 60)], by decide +kernel, by decide⟩
  have hcandle : Sample.noonCandle ∈ settled 60 "1m" Sample.noonQuotes "BTC_USDT" := by decide +kernel
  exact read_back .cpython documented_plain .poloniex hlabel (by decide +kernel) hcandle (by decide) (by decide) _

end NanoDelta.Runtime
