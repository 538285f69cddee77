import Mathlib.Algebra.Order.Field.Rat
import NanoDelta.Library.Windows
import NanoDelta.Runtime.CandleBuilder

/-!
# The bars of a builder

A `CandleBuilder` keeps the bars of a stream of quotes: for each symbol, the windows of `Library.Windows` over the quotes
of the symbol.

* `faithful_iff`: the bars of a symbol follow each other, each is the fold of the quotes that were accepted into it, and
  every accepted quote is in one of them. The quotes of a settled bar are within its time, but for those before the epoch
  in the second that ends where a bar opens: `int` rounds their times up into that bar.
-/

namespace NanoDelta.Runtime

open Library History

/-! ### Runs of a builder -/

/-- `CandleBuilder` as a machine: quotes go in, settled candles come out. -/
def candleBuilder : Machine CandleBuilder QuoteEvent (Option SettledCandle) where
  step self quote := ((self.add quote).2, (self.add quote).1)

/-- The bar of a quote is older than the forming one. -/
def CandleBuilder.IsOlder (self : CandleBuilder) (quote : QuoteEvent) : Prop :=
  ∃ current ∈ self.forming.get? quote.symbol, self.opened quote.eventTime.astimezone < current.openTime

instance (self : CandleBuilder) (quote : QuoteEvent) : Decidable (self.IsOlder quote) :=
  inferInstanceAs (Decidable (∃ current ∈ _, _))

/-- The quotes that are accepted: all but those whose bar is older than the forming one when they come. -/
def CandleBuilder.accepted (self : CandleBuilder) : List QuoteEvent → List QuoteEvent
  | [] => []
  | quote :: quotes => (if self.IsOlder quote then [] else [quote]) ++ (self.add quote).2.accepted quotes

section Bars

variable (timeframeSeconds : ℤ) (label : String)

/-- A new builder. -/
def newBuilder : CandleBuilder := { seconds := timeframeSeconds, label }

/-- The candles of a symbol that a builder settles. -/
def settled (quotes : List QuoteEvent) (symbol : String) : List SettledCandle :=
  ((candleBuilder.outputs (newBuilder timeframeSeconds label) quotes).filterMap id).filter fun candle =>
    candle.symbol = symbol

/-- The candle of a symbol that is forming. -/
def forming (quotes : List QuoteEvent) (symbol : String) : Option SettledCandle :=
  (candleBuilder.exec (newBuilder timeframeSeconds label) quotes).forming.get? symbol

/-- The settled candles of a symbol, and the forming one. -/
def bars (quotes : List QuoteEvent) (symbol : String) : List SettledCandle :=
  settled timeframeSeconds label quotes symbol ++ (forming timeframeSeconds label quotes symbol).toList

/-- The open of the bar that a quote is in. -/
def openOf (quote : QuoteEvent) : Instant :=
  (newBuilder timeframeSeconds label).opened quote.eventTime.astimezone

/-- The quotes that are accepted into the bar of a candle. -/
def quotesOf (quotes : List QuoteEvent) (candle : SettledCandle) : List QuoteEvent :=
  ((newBuilder timeframeSeconds label).accepted quotes).filter fun quote =>
    quote.symbol = candle.symbol ∧ openOf timeframeSeconds label quote = candle.openTime

end Bars

/-- A candle is the fold of quotes. -/
structure IsFold (candle : SettledCandle) (quotes : List QuoteEvent) : Prop where
  openPrice : (quotes.map QuoteEvent.price).head? = some candle.openPrice
  high : (quotes.map QuoteEvent.price).max? = some candle.high
  low : (quotes.map QuoteEvent.price).min? = some candle.low
  close : (quotes.map QuoteEvent.price).getLast? = some candle.close
  volume : (quotes.map QuoteEvent.volume).sum = candle.volume

/-- A quote is within the time of a bar. -/
def Within (timeframeSeconds : ℤ) (candle : SettledCandle) (quote : QuoteEvent) : Prop :=
  candle.openTime ≤ quote.eventTime.astimezone ∧
    quote.eventTime.astimezone < candle.openTime + seconds timeframeSeconds

/-- What the bars of a symbol are to be. -/
structure Faithful (timeframeSeconds : ℤ) (label : String) (quotes : List QuoteEvent) (symbol : String) : Prop where
  /-- The bars follow each other. -/
  increasing : (bars timeframeSeconds label quotes symbol).Pairwise fun a b => a.openTime < b.openTime
  /-- Each bar is the fold of the quotes that were accepted into it. -/
  folded : ∀ candle ∈ bars timeframeSeconds label quotes symbol, candle.symbol = symbol ∧ candle.timeframe = label ∧
    IsFold candle (quotesOf timeframeSeconds label quotes candle)
  /-- No accepted quote is lost or counted twice. -/
  conserved : (bars timeframeSeconds label quotes symbol).flatMap (quotesOf timeframeSeconds label quotes) =
    ((newBuilder timeframeSeconds label).accepted quotes).filter fun quote => quote.symbol = symbol
  /-- A quote whose bar is older than the forming one is ignored. -/
  ignored : ∀ before quote after, quotes = before ++ quote :: after →
    (candleBuilder.exec (newBuilder timeframeSeconds label) before).IsOlder quote →
      (candleBuilder.exec (newBuilder timeframeSeconds label) before).add quote =
        (none, candleBuilder.exec (newBuilder timeframeSeconds label) before)
  /-- The quotes of a settled bar are within its time. -/
  within : ∀ candle ∈ settled timeframeSeconds label quotes symbol,
    ∀ quote ∈ quotesOf timeframeSeconds label quotes candle, Within timeframeSeconds candle quote

/-- A time before the epoch, in the second that ends where a bar opens, and not at its start. -/
def RoundedUp (timeframeSeconds t : ℤ) : Prop :=
  t < 0 ∧ t % 1000000 ≠ 0 ∧ (t / 1000000 + 1) % timeframeSeconds = 0

/-- A quote of a symbol is counted in a settled bar that it is not in: its time is rounded up, no quote of a later bar was
before it, and one comes after it. -/
def Misplaced (timeframeSeconds : ℤ) (label : String) (quotes : List QuoteEvent) (symbol : String) : Prop :=
  ∃ before quote after, quotes = before ++ quote :: after ∧ quote.symbol = symbol ∧
    RoundedUp timeframeSeconds quote.eventTime.astimezone ∧
    (∀ other ∈ before, other.symbol = symbol →
      openOf timeframeSeconds label other ≤ openOf timeframeSeconds label quote) ∧
    ∃ other ∈ after, other.symbol = symbol ∧ openOf timeframeSeconds label quote < openOf timeframeSeconds label other

/-! ### The quotes of one symbol -/

section Windows

variable (timeframeSeconds : ℤ) (label : String)

/-- The bars of one symbol are windows over its quotes. -/
def barWindows : Windowing QuoteEvent Instant SettledCandle where
  key := openOf timeframeSeconds label
  start := (newBuilder timeframeSeconds label).first
  extend := SettledCandle.extend
  label := SettledCandle.openTime
  label_start _ := rfl
  label_extend _ _ := rfl

/-- The quotes of a symbol. -/
def ofSymbol (quotes : List QuoteEvent) (symbol : String) : List QuoteEvent :=
  quotes.filter fun quote => quote.symbol = symbol

variable {timeframeSeconds label} {self : CandleBuilder}

/-- What `add` does: the window of the symbol takes the quote, the other symbols stay as they are. -/
theorem add_eq (hseconds : self.seconds = timeframeSeconds) (hlabel : self.label = label) (quote : QuoteEvent) :
    (self.add quote).2.seconds = timeframeSeconds ∧ (self.add quote).2.label = label ∧
      (self.add quote).1 =
        ((barWindows timeframeSeconds label).place (self.forming.get? quote.symbol) quote).2 ∧
      ∀ symbol, (self.add quote).2.forming.get? symbol = if symbol = quote.symbol then
        ((barWindows timeframeSeconds label).place (self.forming.get? quote.symbol) quote).1
        else self.forming.get? symbol := by
  subst hseconds hlabel
  have hopen : self.opened quote.eventTime.astimezone = openOf self.seconds self.label quote := rfl
  have hfirst : self.first quote = (barWindows self.seconds self.label).start quote := rfl
  unfold CandleBuilder.add Windowing.place
  cases hcurrent : self.forming.get? quote.symbol with
  | none => exact ⟨rfl, rfl, rfl, fun symbol => Dict.get?_set ..⟩
  | some current =>
    dsimp only [barWindows]
    rw [hopen]
    rcases lt_trichotomy current.openTime (openOf self.seconds self.label quote) with h | h | h
    · simp only [h, if_true]
      exact ⟨trivial, trivial, trivial, fun symbol => Dict.get?_set ..⟩
    · simp only [h.not_lt, h.not_gt, if_false]
      exact ⟨trivial, trivial, trivial, fun symbol => Dict.get?_set ..⟩
    · simp only [h, h.not_gt, if_true, if_false]
      refine ⟨trivial, trivial, trivial, ?_⟩
      intro symbol
      by_cases hsymbol : symbol = quote.symbol
      · rw [if_pos hsymbol, hsymbol, hcurrent]
      · rw [if_neg hsymbol]

variable (timeframeSeconds label)

theorem exec_seconds_label (quotes : List QuoteEvent) :
    (candleBuilder.exec (newBuilder timeframeSeconds label) quotes).seconds = timeframeSeconds ∧
      (candleBuilder.exec (newBuilder timeframeSeconds label) quotes).label = label := by
  refine Machine.exec_invariant (P := fun self : CandleBuilder => self.seconds = timeframeSeconds ∧ self.label = label)
    ?_ ⟨rfl, rfl⟩ quotes
  rintro self quote ⟨hseconds, hlabel⟩
  exact ⟨(add_eq hseconds hlabel quote).1, (add_eq hseconds hlabel quote).2.1⟩

variable {timeframeSeconds label} in
theorem ofSymbol_concat (quotes : List QuoteEvent) (quote : QuoteEvent) (symbol : String) :
    ofSymbol (quotes ++ [quote]) symbol =
      if quote.symbol = symbol then ofSymbol quotes symbol ++ [quote] else ofSymbol quotes symbol := by
  unfold ofSymbol
  rw [List.filter_append]
  split_ifs with h
  · rw [List.filter_cons_of_pos (by simpa using h), List.filter_nil]
  · rw [List.filter_cons_of_neg (by simpa using h), List.filter_nil, List.append_nil]

/-- The forming candle of a symbol is the window that is open over its quotes. -/
theorem forming_eq (quotes : List QuoteEvent) (symbol : String) :
    forming timeframeSeconds label quotes symbol = (barWindows timeframeSeconds label).current (ofSymbol quotes symbol) := by
  induction quotes using List.reverseRecOn generalizing symbol with
  | nil => rfl
  | append_singleton quotes quote ih =>
    obtain ⟨hseconds, hlabel⟩ := exec_seconds_label timeframeSeconds label quotes
    obtain ⟨-, -, -, hforming⟩ := add_eq hseconds hlabel quote
    have hstep := hforming symbol
    unfold forming at *
    rw [Machine.exec_concat, ofSymbol_concat]
    refine hstep.trans ?_
    by_cases hsymbol : symbol = quote.symbol
    · rw [if_pos hsymbol, if_pos hsymbol.symm, hsymbol, ih quote.symbol, Windowing.current_concat]
    · rw [if_neg hsymbol, if_neg (Ne.symm hsymbol), ih symbol]

variable {timeframeSeconds label} in
/-- A candle of quotes of a symbol is of the symbol. -/
theorem of_fold {quotes : List QuoteEvent} {symbol : String} {candle : SettledCandle}
    (h : (barWindows timeframeSeconds label).fold quotes = some candle)
    (hsymbol : ∀ quote ∈ quotes, quote.symbol = symbol) : candle.symbol = symbol ∧ candle.timeframe = label := by
  cases quotes with
  | nil => cases h
  | cons first quotes =>
    have hextend : ∀ candle : SettledCandle, (quotes.foldl SettledCandle.extend candle).symbol = candle.symbol ∧
        (quotes.foldl SettledCandle.extend candle).timeframe = candle.timeframe := by
      clear h hsymbol
      induction quotes with
      | nil => exact fun _ => ⟨rfl, rfl⟩
      | cons quote quotes ih => exact fun candle => ih (candle.extend quote)
    obtain rfl := Option.some.inj h
    obtain ⟨hsame, htimeframe⟩ := hextend ((newBuilder timeframeSeconds label).first first)
    exact ⟨hsame.trans (hsymbol first (List.mem_cons_self ..)), htimeframe⟩

variable {timeframeSeconds label} in
/-- The windows over the quotes of a symbol are candles of the symbol. -/
theorem of_window {quotes : List QuoteEvent} {symbol : String} {candle : SettledCandle}
    (h : candle ∈ (barWindows timeframeSeconds label).closed (ofSymbol quotes symbol) ++
      ((barWindows timeframeSeconds label).current (ofSymbol quotes symbol)).toList) :
    candle.symbol = symbol ∧ candle.timeframe = label := by
  apply of_fold (((barWindows timeframeSeconds label).tiled (ofSymbol quotes symbol)).folded candle h)
  intro quote hquote
  obtain ⟨before, after, hsplit, -⟩ := Windowing.mem_taken_iff _ |>.mp (List.mem_of_mem_filter hquote)
  have hmem : quote ∈ ofSymbol quotes symbol := by
    rw [hsplit]
    simp
  simpa using (List.mem_filter.mp hmem).2

theorem settled_concat (quotes : List QuoteEvent) (quote : QuoteEvent) (symbol : String) :
    settled timeframeSeconds label (quotes ++ [quote]) symbol = settled timeframeSeconds label quotes symbol ++
      ((candleBuilder.exec (newBuilder timeframeSeconds label) quotes).add quote).1.toList.filter fun candle =>
        candle.symbol = symbol := by
  unfold settled
  rw [Machine.outputs_concat, List.filterMap_append, List.filter_append]
  show _ ++ ([((candleBuilder.exec _ quotes).add quote).1].filterMap id).filter _ = _
  cases ((candleBuilder.exec (newBuilder timeframeSeconds label) quotes).add quote).1 <;> rfl

/-- The settled candles of a symbol are the windows that its quotes close. -/
theorem settled_eq (quotes : List QuoteEvent) (symbol : String) :
    settled timeframeSeconds label quotes symbol = (barWindows timeframeSeconds label).closed (ofSymbol quotes symbol) := by
  induction quotes using List.reverseRecOn with
  | nil => rfl
  | append_singleton quotes quote ih =>
    obtain ⟨hseconds, hlabel⟩ := exec_seconds_label timeframeSeconds label quotes
    obtain ⟨-, -, hemitted, -⟩ := add_eq hseconds hlabel quote
    have hforming := forming_eq timeframeSeconds label quotes quote.symbol
    unfold forming at hforming
    rw [hforming] at hemitted
    have hof : ∀ candle ∈ ((barWindows timeframeSeconds label).place ((barWindows timeframeSeconds label).current
        (ofSymbol quotes quote.symbol)) quote).2.toList, candle.symbol = quote.symbol := by
      intro candle hcandle
      have hcurrent := (barWindows timeframeSeconds label).mem_of_mem_place (Option.mem_toList.mp hcandle)
      exact (of_window (List.mem_append_right _ (Option.mem_toList.mpr hcurrent))).1
    rw [settled_concat, ih, hemitted, ofSymbol_concat]
    split_ifs with hsymbol
    · subst hsymbol
      rw [Windowing.closed_concat]
      exact congrArg _ (List.filter_eq_self.mpr fun candle hcandle => decide_eq_true (hof candle hcandle))
    · rw [List.filter_eq_nil_iff.mpr, List.append_nil]
      intro candle hcandle
      rw [hof candle hcandle]
      simpa using hsymbol

theorem accepted_concat (self : CandleBuilder) (quotes : List QuoteEvent) (quote : QuoteEvent) :
    self.accepted (quotes ++ [quote]) =
      self.accepted quotes ++ if (candleBuilder.exec self quotes).IsOlder quote then [] else [quote] := by
  induction quotes generalizing self with
  | nil => exact List.append_nil _
  | cons first quotes ih =>
    rw [List.cons_append, CandleBuilder.accepted, CandleBuilder.accepted, ih, List.append_assoc]
    rfl

/-- A quote is older than the forming candle if it comes too late for its window. -/
theorem isOlder_iff (quotes : List QuoteEvent) (quote : QuoteEvent) :
    (candleBuilder.exec (newBuilder timeframeSeconds label) quotes).IsOlder quote ↔
      (barWindows timeframeSeconds label).Late
        ((barWindows timeframeSeconds label).current (ofSymbol quotes quote.symbol)) quote := by
  rw [← forming_eq]
  have hopen : ∀ t, (candleBuilder.exec (newBuilder timeframeSeconds label) quotes).opened t =
      (newBuilder timeframeSeconds label).opened t := by
    intro t
    unfold CandleBuilder.opened
    rw [(exec_seconds_label timeframeSeconds label quotes).1]
    rfl
  unfold CandleBuilder.IsOlder
  rw [hopen]
  rfl

/-- The quotes of a symbol that are accepted are those that its windows take. -/
theorem accepted_eq (quotes : List QuoteEvent) (symbol : String) :
    ofSymbol ((newBuilder timeframeSeconds label).accepted quotes) symbol =
      (barWindows timeframeSeconds label).taken (ofSymbol quotes symbol) := by
  induction quotes using List.reverseRecOn with
  | nil => rfl
  | append_singleton quotes quote ih =>
    have holder := isOlder_iff timeframeSeconds label quotes quote
    rw [accepted_concat, ofSymbol_concat]
    by_cases hsymbol : quote.symbol = symbol
    · rw [hsymbol] at holder
      rw [if_pos hsymbol, Windowing.taken_concat, ← ih]
      by_cases h : (candleBuilder.exec (newBuilder timeframeSeconds label) quotes).IsOlder quote
      · rw [if_pos h, if_pos (holder.mp h), List.append_nil, List.append_nil]
      · rw [if_neg h, if_neg (mt holder.mpr h), ofSymbol_concat, if_pos hsymbol]
    · rw [if_neg hsymbol, ← ih]
      split_ifs
      · rw [List.append_nil]
      · rw [ofSymbol_concat, if_neg hsymbol]

/-- The quotes of a candle are the part of its window. -/
theorem quotesOf_eq (quotes : List QuoteEvent) (candle : SettledCandle) :
    quotesOf timeframeSeconds label quotes candle = (barWindows timeframeSeconds label).part candle.openTime
      ((barWindows timeframeSeconds label).taken (ofSymbol quotes candle.symbol)) := by
  rw [← accepted_eq]
  unfold quotesOf Windowing.part ofSymbol
  rw [List.filter_filter]
  apply List.filter_congr
  intro quote _
  rw [Bool.and_comm, ← Bool.decide_and]
  rfl

end Windows

/-! ### Candles as folds -/

theorem IsFold.single (builder : CandleBuilder) (quote : QuoteEvent) : IsFold (builder.first quote) [quote] :=
  ⟨rfl, rfl, rfl, rfl, add_zero _⟩

theorem IsFold.extend {candle : SettledCandle} {quotes : List QuoteEvent} (h : IsFold candle quotes)
    (quote : QuoteEvent) : IsFold (candle.extend quote) (quotes ++ [quote]) := by
  cases quotes with
  | nil => cases h.openPrice
  | cons first quotes =>
    have hhigh := Option.some.inj h.high
    have hlow := Option.some.inj h.low
    refine ⟨h.openPrice, ?_, ?_, ?_, ?_⟩
    · rw [List.map_append, List.map_cons, List.cons_append]
      refine congrArg some ?_
      rw [List.foldl_append, hhigh]
      rfl
    · rw [List.map_append, List.map_cons, List.cons_append]
      refine congrArg some ?_
      rw [List.foldl_append, hlow]
      rfl
    · rw [List.map_append]
      exact List.getLast?_concat
    · rw [List.map_append, List.sum_append, h.volume]
      exact congrArg _ (add_zero _)

/-- What the windows sum up is the fold of the quotes. -/
theorem isFold_of_fold {timeframeSeconds : ℤ} {label : String} {quotes : List QuoteEvent} {candle : SettledCandle}
    (h : (barWindows timeframeSeconds label).fold quotes = some candle) : IsFold candle quotes := by
  induction quotes using List.reverseRecOn generalizing candle with
  | nil => cases h
  | append_singleton quotes quote ih =>
    cases hfold : (barWindows timeframeSeconds label).fold quotes with
    | none =>
      cases quotes with
      | nil =>
        obtain rfl := Option.some.inj h
        exact IsFold.single _ quote
      | cons => cases hfold
    | some before =>
      rw [Windowing.fold_concat _ hfold] at h
      obtain rfl := Option.some.inj h
      exact (ih hfold).extend quote

/-- A time that is rounded towards zero, and then down to a bar, is in this bar unless it is rounded up into it. -/
theorem rounded_within_iff {bar : ℤ} (hpos : 0 < bar) (t : ℤ) :
    (t.tdiv 1000000 - t.tdiv 1000000 % bar) * 1000000 ≤ t ∧
        t < (t.tdiv 1000000 - t.tdiv 1000000 % bar) * 1000000 + bar * 1000000 ↔ ¬ RoundedUp bar t := by
  unfold RoundedUp
  have hmod := Int.emod_nonneg (t / 1000000) hpos.ne'
  have hlt := Int.emod_lt_of_pos (t / 1000000) hpos
  have hmod' := Int.emod_nonneg (t / 1000000 + 1) hpos.ne'
  have hlt' := Int.emod_lt_of_pos (t / 1000000 + 1) hpos
  rw [Int.tdiv_eq_ediv]
  split_ifs with hwhole
  · rw [add_zero]
    generalize t / 1000000 % bar = r at *
    generalize (t / 1000000 + 1) % bar = r' at *
    omega
  · rw [show Int.sign 1000000 = 1 from rfl]
    generalize (t / 1000000 + 1) % bar = r at *
    omega

/-- A quote is within the time of its bar, unless its time is rounded up into it. -/
theorem within_iff {timeframeSeconds : ℤ} (hpos : 0 < timeframeSeconds) {label : String} {candle : SettledCandle}
    {quote : QuoteEvent} (h : openOf timeframeSeconds label quote = candle.openTime) :
    Within timeframeSeconds candle quote ↔ ¬ RoundedUp timeframeSeconds quote.eventTime.astimezone := by
  unfold Within
  rw [← h]
  exact rounded_within_iff hpos quote.eventTime.astimezone

section Bars

variable {timeframeSeconds : ℤ} {label : String} {quotes : List QuoteEvent} {symbol : String}

theorem bars_eq (quotes : List QuoteEvent) (symbol : String) :
    bars timeframeSeconds label quotes symbol = (barWindows timeframeSeconds label).closed (ofSymbol quotes symbol) ++
      ((barWindows timeframeSeconds label).current (ofSymbol quotes symbol)).toList := by
  unfold bars
  rw [settled_eq, forming_eq]

/-- The quotes of a bar of a symbol are the part of its window. -/
theorem quotesOf_bar {candle : SettledCandle} (h : candle ∈ bars timeframeSeconds label quotes symbol) :
    quotesOf timeframeSeconds label quotes candle = (barWindows timeframeSeconds label).part candle.openTime
      ((barWindows timeframeSeconds label).taken (ofSymbol quotes symbol)) := by
  rw [bars_eq] at h
  rw [quotesOf_eq, (of_window h).1]

/-- A bar of a symbol is the fold of its quotes. -/
theorem isFold_of_mem_bars {candle : SettledCandle} (h : candle ∈ bars timeframeSeconds label quotes symbol) :
    candle.symbol = symbol ∧ candle.timeframe = label ∧
      IsFold candle (quotesOf timeframeSeconds label quotes candle) := by
  rw [quotesOf_bar h]
  rw [bars_eq] at h
  have hfolded := ((barWindows timeframeSeconds label).tiled (ofSymbol quotes symbol)).folded candle h
  exact ⟨(of_window h).1, (of_window h).2, isFold_of_fold hfolded⟩

/-- A quote of a symbol is misplaced just if a settled bar has a quote whose time is rounded up into it. -/
theorem misplaced_iff : Misplaced timeframeSeconds label quotes symbol ↔
    ∃ candle ∈ settled timeframeSeconds label quotes symbol, ∃ quote ∈ quotesOf timeframeSeconds label quotes candle,
      RoundedUp timeframeSeconds quote.eventTime.astimezone := by
  have hclosed := (barWindows timeframeSeconds label).exists_closed_iff (ofSymbol quotes symbol) fun quote =>
    RoundedUp timeframeSeconds quote.eventTime.astimezone
  have hsettled : ∀ candle ∈ settled timeframeSeconds label quotes symbol,
      quotesOf timeframeSeconds label quotes candle = (barWindows timeframeSeconds label).part candle.openTime
        ((barWindows timeframeSeconds label).taken (ofSymbol quotes symbol)) :=
    fun candle hcandle => quotesOf_bar (List.mem_append_left _ hcandle)
  rw [← settled_eq] at hclosed
  constructor
  · rintro ⟨before, quote, after, rfl, hsymbol, hrounded, hbefore, other, hother, hother', hlt⟩
    have hsplit : ofSymbol (before ++ quote :: after) symbol =
        ofSymbol before symbol ++ quote :: ofSymbol after symbol := by
      unfold ofSymbol
      rw [List.filter_append, List.filter_cons_of_pos (by simpa using hsymbol)]
    have hle : ∀ earlier ∈ ofSymbol before symbol,
        openOf timeframeSeconds label earlier ≤ openOf timeframeSeconds label quote := by
      intro earlier hearlier
      obtain ⟨hmem, hsame⟩ := List.mem_filter.mp hearlier
      exact hbefore earlier hmem (by simpa using hsame)
    have hlater : other ∈ ofSymbol after symbol := List.mem_filter.mpr ⟨hother, by simpa using hother'⟩
    obtain ⟨candle, hcandle, quote', hquote', hrounded'⟩ :=
      hclosed.mpr ⟨_, quote, _, hsplit, hrounded, hle, other, hlater, hlt⟩
    refine ⟨candle, hcandle, quote', ?_, hrounded'⟩
    rw [hsettled candle hcandle]
    exact hquote'
  · rintro ⟨candle, hcandle, quote, hquote, hrounded⟩
    rw [hsettled candle hcandle] at hquote
    obtain ⟨before, quote, after, hsplit, hrounded, hbefore, other, hother, hlt⟩ :=
      hclosed.mp ⟨candle, hcandle, quote, hquote, hrounded⟩
    obtain ⟨quotes₁, rest, rfl, rfl, hrest⟩ := List.filter_eq_append_iff.mp hsplit
    obtain ⟨quotes₂, quotes₃, rfl, hnone, hsymbol, rfl⟩ := List.filter_eq_cons_iff.mp hrest
    obtain ⟨hother, hother'⟩ := List.mem_filter.mp hother
    refine ⟨quotes₁ ++ quotes₂, quote, quotes₃, ?_, by simpa using hsymbol, hrounded, ?_, other, hother,
      by simpa using hother', hlt⟩
    · rw [List.append_assoc]
    · intro earlier hearlier hsame
      rcases List.mem_append.mp hearlier with hearlier | hearlier
      · exact hbefore earlier (List.mem_filter.mpr ⟨hearlier, by simpa using hsame⟩)
      · exact absurd (decide_eq_true hsame) (hnone earlier hearlier)

theorem add_of_isOlder {self : CandleBuilder} {quote : QuoteEvent} (h : self.IsOlder quote) :
    self.add quote = (none, self) := by
  obtain ⟨current, hcurrent, hlt⟩ := h
  unfold CandleBuilder.add
  rw [Option.mem_def.mp hcurrent]
  simp only [hlt, hlt.not_gt, if_true, if_false]

/-- **The bars of a symbol**: exactly what they are to be, if no quote is counted in a settled bar that it is not in. -/
theorem faithful_iff (hpos : 0 < timeframeSeconds) (quotes : List QuoteEvent) (symbol : String) :
    Faithful timeframeSeconds label quotes symbol ↔ ¬ Misplaced timeframeSeconds label quotes symbol := by
  have htiled := (barWindows timeframeSeconds label).tiled (ofSymbol quotes symbol)
  have hwithin : ∀ candle, ∀ quote ∈ quotesOf timeframeSeconds label quotes candle,
      Within timeframeSeconds candle quote ↔ ¬ RoundedUp timeframeSeconds quote.eventTime.astimezone := by
    intro candle quote hquote
    exact within_iff hpos (of_decide_eq_true (List.mem_filter.mp hquote).2).2
  rw [misplaced_iff]
  constructor
  · rintro h ⟨candle, hcandle, quote, hquote, hrounded⟩
    exact (hwithin candle quote hquote).mp (h.within candle hcandle quote hquote) hrounded
  · intro h
    refine ⟨?_, ?_, ?_, ?_, ?_⟩
    · rw [bars_eq]
      exact htiled.increasing
    · exact fun candle => isFold_of_mem_bars
    · rw [List.flatMap_congr fun candle hcandle => quotesOf_bar hcandle, bars_eq]
      exact htiled.conserved.trans (accepted_eq ..).symm
    · rintro before quote after - holder
      exact add_of_isOlder holder
    · intro candle hcandle quote hquote
      rw [hwithin candle quote hquote]
      intro hrounded
      exact h ⟨candle, hcandle, quote, hquote, hrounded⟩

end Bars

namespace Sample

/-- A quote for one bitcoin, at a number of microseconds. -/
def btcQuote (t : Instant) (price : ℚ) : QuoteEvent where
  market := .crypto
  provider := .poloniex
  symbol := "BTC_USDT"
  eventTime := .aware t
  price
  volume := 1

/-- Two quotes in the first minute and one in the next. -/
def firstMinute : List QuoteEvent := [btcQuote 1000000 100, btcQuote 59500000 102, btcQuote 60000000 101]

/-- A quote half a second before the epoch, and one a minute after it. -/
def beforeEpoch : List QuoteEvent := [btcQuote (-500000) 100, btcQuote 60000000 101]

end Sample

/-- The first minute settles, with the two quotes in it. -/
theorem first_minute_faithful : settled 60 "1m" Sample.firstMinute "BTC_USDT" =
      [⟨"BTC_USDT", "1m", 0, 100, 102, 100, 102, 2⟩] ∧ Faithful 60 "1m" Sample.firstMinute "BTC_USDT" := by
  refine ⟨by decide +kernel, ?_⟩
  apply (faithful_iff (by decide) Sample.firstMinute "BTC_USDT").mpr
  rintro ⟨before, quote, after, hsplit, -, ⟨hneg, -⟩, -⟩
  have htimes : ∀ quote ∈ Sample.firstMinute, 0 ≤ quote.eventTime.astimezone := by decide
  have hquote := htimes quote (hsplit ▸ by simp)
  exact absurd hneg (not_lt.mpr hquote)

/-- The quote before the epoch is counted in the bar that opens at the epoch. -/
theorem before_epoch_misplaced : ¬ ∀ (timeframeSeconds : ℤ) (label : String) (quotes : List QuoteEvent) (symbol : String),
    0 < timeframeSeconds → Faithful timeframeSeconds label quotes symbol := by
  intro h
  have hwithin := (h 60 "1m" Sample.beforeEpoch "BTC_USDT" (by decide)).within
    ⟨"BTC_USDT", "1m", 0, 100, 100, 100, 100, 1⟩ (by decide +kernel) (Sample.btcQuote (-500000) 100)
  have hquote : quotesOf 60 "1m" Sample.beforeEpoch ⟨"BTC_USDT", "1m", 0, 100, 100, 100, 100, 1⟩ =
      [Sample.btcQuote (-500000) 100] := by
    rfl
  rw [hquote] at hwithin
  exact absurd (hwithin (List.mem_singleton_self _)).1 (by decide)

end NanoDelta.Runtime
