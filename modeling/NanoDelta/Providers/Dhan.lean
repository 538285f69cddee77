import Mathlib.Data.List.Sort
import NanoDelta.History.Timeframes
import NanoDelta.Library.Effect
import NanoDelta.Markets.Adapters

/-!
# The Dhan client

The historical side of `providers/dhan.py` and of `providers/base.py`. A request names whole days,
and every row of the response is marked as settled. Half-hour bars are made of pairs of
quarter-hour bars, anchored at the open of the session.

* `opened_of_resample30m`: the half-hour bars open at the anchored half hours that have two rows.
-/

namespace NanoDelta.Providers

open Library Markets History

/-! ### Requests -/

/-- `HistoricalRequest`. -/
structure HistoricalRequest where
  symbol : String
  timeframe : String
  start : Instant
  stop : Instant
  limit : ℤ

/-- The constructor of `HistoricalRequest`, with the checks of `__post_init__` in their order. -/
def HistoricalRequest.create (symbol timeframe : String) (start stop : Instant) (limit : ℤ) :
    Except PyError HistoricalRequest :=
  if stop ≤ start then .error (.valueError "historical start must be before end")
  else if isBlank symbol || isBlank timeframe then .error (.valueError "symbol and timeframe are required")
  else if limit < 1 ∨ 5000 < limit then .error (.valueError "limit must be between 1 and 5000")
  else .ok ⟨symbol, timeframe, start, stop, limit⟩

/-- What a request to Dhan asks for: the security, the days, and the interval of intraday bars. -/
structure DhanRequest where
  securityId : String
  fromDate : String
  toDate : String
  interval : Option String

/-- `DhanClient`, its transport a function from requests to JSON. -/
structure DhanClient where
  securityId : Option String
  securityIds : Dict String String
  transport : DhanRequest → Except PyError Json

/-- `_INTERVALS`. -/
def intervals : String → Option String
  | "1m" => some "1"
  | "5m" => some "5"
  | "15m" => some "15"
  | "30m" => some "15"
  | "1h" => some "60"
  | "60m" => some "60"
  | _ => none

section Client

variable (reader : Reader)

/-- `text.strip()`. -/
def strip (text : String) : String :=
  String.ofList ((text.toList.dropWhile isSpace).reverse.dropWhile isSpace).reverse

/-- The constructor of `DhanClient`, with its checks in their order. -/
def DhanClient.create (securityId : Option String) (securityIds : Dict String String)
    (transport : DhanRequest → Except PyError Json) : Except PyError DhanClient :=
  if securityId = none ∧ securityIds.entries = [] then
    .error (.valueError "security_id or security_ids mapping is required")
  else
    let mapped := securityIds.entries.foldl (fun mapped e => mapped.set (reader.upper (strip e.1)) (strip e.2)) .empty
    if mapped.entries.any fun e => e.1 = "" || e.2 = "" then
      .error (.valueError "Dhan security ID mappings cannot be empty")
    else .ok ⟨securityId, mapped, transport⟩

/-- `_security_id`. -/
def DhanClient.securityIdOf (self : DhanClient) (symbol : String) : Except PyError String :=
  match self.securityIds.get? (reader.upper (strip symbol)) with
  | some mapped => .ok mapped
  | none =>
    match self.securityId with
    | some securityId => .ok securityId
    | none => .error (.lookupError ("no Dhan security ID mapping for " ++ symbol))

/-- `history_request`. -/
def DhanClient.historyRequest (self : DhanClient) (request : HistoricalRequest) : Except PyError DhanRequest :=
  if request.timeframe ≠ "1d" ∧ intervals request.timeframe = none then
    .error (.valueError ("Dhan does not directly support " ++ request.timeframe))
  else do
    let securityId ← self.securityIdOf reader request.symbol
    return ⟨securityId, dateText request.start, dateText request.stop,
      if request.timeframe = "1d" then none else intervals request.timeframe⟩

/-! ### Half hours -/

/-- `int(number)`. -/
def truncate (q : ℚ) : ℤ := q.num.tdiv q.den

/-- The time of a row, in seconds. -/
def rowSecond (raw : Json) : Except PyError ℤ :=
  let number (q : ℚ) := if 10000000000 < truncate q then truncate q / 1000 else truncate q
  let parsed (text : String) : Except PyError ℤ :=
    match reader.fromisoformat (reader.replace text "Z" "+00:00") with
    | none => .error (.valueError ("Invalid isoformat string: '" ++ text ++ "'"))
    | some (.naive _) => .error (.providerClientError "Dhan timestamp must include timezone")
    | some (.aware t) => .ok (epochSecond t)
  match raw with
  | .num q => .ok (number q)
  | .bool b => .ok (number (if b then 1 else 0))
  | .str text => if reader.isdigit text then (reader.number (.str text)).map number else parsed text
  | value => parsed (reader.str value)

/-- 09:15 in India, in seconds of the day in UTC. -/
def anchorSeconds : ℤ := 3 * 3600 + 45 * 60

/-- The half hour of a time, counted from the anchor. -/
def bucketOf (second : ℤ) : ℤ := anchorSeconds + (second - anchorSeconds) / 1800 * 1800

/-- The rows by half hour, in the order of their first rows. -/
def bucketsOf (stamped : List (ℤ × Payload)) : Dict ℤ (List (ℤ × Payload)) :=
  stamped.foldl (fun buckets e =>
    buckets.set (bucketOf e.1) ((buckets.get? (bucketOf e.1)).getD [] ++ [e])) .empty

/-- `float(row[key])`. -/
def numberAt (row : Payload) (key : String) : Except PyError ℚ := do reader.number (← required row key)

/-- The bar of two rows. -/
def halfHour (opened : ℤ) (first last : Payload) : Except PyError Payload := do
  let openPrice ← required first "open"
  let high := max (← numberAt reader first "high") (← numberAt reader last "high")
  let low := min (← numberAt reader first "low") (← numberAt reader last "low")
  let close ← required last "close"
  let volume := (← numberAt reader first "volume") + (← numberAt reader last "volume")
  return (((((((Dict.empty.set "timestamp" (.num opened)).set "open" openPrice).set "high" (.num high)).set "low"
    (.num low)).set "close" close).set "volume" (.num volume)).set "timeframe" (.str "30m")).set "settled" (.bool true)

/-- The bar of a half hour, if it has two rows. -/
def barOf (bucket : ℤ × List (ℤ × Payload)) : Except PyError (Option Payload) :=
  match (bucket.2.insertionSort fun a b => a.1 ≤ b.1).map Prod.snd with
  | [first, last] => some <$> halfHour reader bucket.1 first last
  | _ => .ok none

/-- The rows with their times. -/
def stampedRows (rows : List Payload) : Except PyError (List (ℤ × Payload)) :=
  rows.mapM fun row => do
    let second ← rowSecond reader (← required row "timestamp")
    return (second, row)

/-- `_resample_30m`. -/
def resample30m (rows : List Payload) : Except PyError (List Payload) := do
  let stamped ← stampedRows reader rows
  let bars ← ((bucketsOf stamped).entries.insertionSort fun a b => a.1 ≤ b.1).mapM (barOf reader)
  return bars.filterMap id

/-- The group of a half hour has the rows in it, in their order. -/
theorem get?_bucketsOf (stamped : List (ℤ × Payload)) (bucket : ℤ) :
    ((bucketsOf stamped).get? bucket).getD [] = stamped.filter fun e => bucketOf e.1 = bucket := by
  have hfold : ∀ (rest : List (ℤ × Payload)) (buckets : Dict ℤ (List (ℤ × Payload))),
      ((rest.foldl (fun buckets e => buckets.set (bucketOf e.1) ((buckets.get? (bucketOf e.1)).getD [] ++ [e]))
        buckets).get? bucket).getD [] = (buckets.get? bucket).getD [] ++ rest.filter fun e => bucketOf e.1 = bucket := by
    intro rest
    induction rest with
    | nil => simp
    | cons e rest ih =>
      intro buckets
      rw [List.foldl_cons, ih, Dict.get?_set]
      by_cases he : bucketOf e.1 = bucket
      · simp [he]
      · simp [he, Ne.symm he]
  exact (hfold stamped .empty).trans (List.nil_append _)

variable {reader}

/-- A half hour has a bar only if it has two rows, and the bar opens there. -/
theorem barOf_ok {bucket : ℤ × List (ℤ × Payload)} {bar : Payload} (h : barOf reader bucket = .ok (some bar)) :
    bucket.2.length = 2 ∧ bar.get? "timestamp" = some (.num bucket.1) := by
  unfold barOf at h
  split at h
  · rename_i first last hrows
    have hlength : bucket.2.length = 2 := by
      have := congrArg List.length hrows
      simpa using this
    refine ⟨hlength, ?_⟩
    cases hbar : halfHour reader bucket.1 first last with
    | error e => rw [hbar] at h; cases h
    | ok bar' =>
      rw [hbar] at h
      cases h
      unfold halfHour at hbar
      obtain ⟨openPrice, -, h₁⟩ := Effect.except_bind_eq_ok.mp hbar
      obtain ⟨high, -, h₂⟩ := Effect.except_bind_eq_ok.mp h₁
      obtain ⟨high', -, h₃⟩ := Effect.except_bind_eq_ok.mp h₂
      obtain ⟨low, -, h₄⟩ := Effect.except_bind_eq_ok.mp h₃
      obtain ⟨low', -, h₅⟩ := Effect.except_bind_eq_ok.mp h₄
      obtain ⟨close, -, h₆⟩ := Effect.except_bind_eq_ok.mp h₅
      obtain ⟨volume, -, h₇⟩ := Effect.except_bind_eq_ok.mp h₆
      obtain ⟨volume', -, h₈⟩ := Effect.except_bind_eq_ok.mp h₇
      cases h₈
      simp [Dict.get?_set]
  · cases h

/-- A half hour with two rows has a bar. -/
theorem exists_of_barOf_ok {bucket : ℤ × List (ℤ × Payload)} {result : Option Payload}
    (h : barOf reader bucket = .ok result) (hlength : bucket.2.length = 2) : ∃ bar, result = some bar := by
  unfold barOf at h
  split at h
  · cases hbar : halfHour reader bucket.1 _ _ with
    | error e => rw [hbar] at h; cases h
    | ok bar =>
      rw [hbar] at h
      cases h
      exact ⟨bar, rfl⟩
  · rename_i hnot
    have hrows : ((bucket.2.insertionSort fun a b => a.1 ≤ b.1).map Prod.snd).length = 2 := by
      simpa using hlength
    obtain ⟨first, last, heq⟩ := List.length_eq_two.mp hrows
    exact absurd heq (hnot first last)

/-- The half-hour bars open at the anchored half hours that have two rows. -/
theorem opened_of_resample30m {rows bars : List Payload} {stamped : List (ℤ × Payload)}
    (hstamped : stampedRows reader rows = .ok stamped) (h : resample30m reader rows = .ok bars) (opened : ℤ) :
    (∃ bar ∈ bars, bar.get? "timestamp" = some (.num opened)) ↔
      (stamped.filter fun e => bucketOf e.1 = opened).length = 2 := by
  unfold resample30m at h
  obtain ⟨stamped', hstamped', h₁⟩ := Effect.except_bind_eq_ok.mp h
  rw [hstamped] at hstamped'
  cases hstamped'
  obtain ⟨results, hresults, h₂⟩ := Effect.except_bind_eq_ok.mp h₁
  cases h₂
  have hbars := Effect.forall₂_of_mapM hresults
  constructor
  · rintro ⟨bar, hbar, htime⟩
    obtain ⟨result, hresult, hsome⟩ := List.mem_filterMap.mp hbar
    obtain ⟨bucket, hbucket, hof⟩ := Effect.exists_of_forall₂ hbars hresult
    obtain ⟨hlength, hopened⟩ := barOf_ok (hof.trans (congrArg _ hsome))
    rw [hopened] at htime
    obtain rfl : bucket.1 = opened := by exact_mod_cast Json.num.inj (Option.some.inj htime)
    have hget := Dict.get?_eq_some_iff.mpr ((List.mem_insertionSort _).mp hbucket)
    have hgroup := get?_bucketsOf stamped bucket.1
    rw [hget, Option.getD_some] at hgroup
    rw [← hgroup, hlength]
  · intro hlength
    rw [← get?_bucketsOf] at hlength
    cases hget : (bucketsOf stamped).get? opened with
    | none =>
      rw [hget] at hlength
      cases hlength
    | some group =>
      rw [hget, Option.getD_some] at hlength
      have hmem := (List.mem_insertionSort (fun a b : ℤ × List (ℤ × Payload) => a.1 ≤ b.1)).mpr
        (Dict.get?_eq_some_iff.mp hget)
      obtain ⟨result, hresult, hof⟩ := Effect.exists_of_forall₂ hbars.flip hmem
      obtain ⟨bar, rfl⟩ := exists_of_barOf_ok hof hlength
      exact ⟨bar, List.mem_filterMap.mpr ⟨_, hresult, rfl⟩, (barOf_ok hof).2⟩

variable (reader)

/-! ### Responses -/

/-- The columns of a response. -/
def fields : List String := ["timestamp", "open", "high", "low", "close", "volume"]

/-- A column of the response, if it is an array. -/
def column (payload : Payload) (field : String) : Option (List Json) :=
  match payload.get? field with
  | some (.arr items) => some items
  | _ => none

/-- The rows of columns of one length. -/
def rowsOf (timeframe : String) (columns : List (List Json)) : List Payload :=
  columns.transpose.map fun values =>
    (((fields.zip values).foldl (fun row e => row.set e.1 e.2) Dict.empty).set "timeframe" (.str timeframe)).set
      "settled" (.bool true)

/-- `fetch_candles`. -/
def DhanClient.fetchCandles (self : DhanClient) (request : HistoricalRequest) : Except PyError (List Payload) := do
  let response ← self.transport (← self.historyRequest reader request)
  match response with
  | .obj entries =>
    match fields.mapM (column (entriesOf entries)) with
    | none => .error (.providerClientError "Dhan candle response has missing arrays")
    | some columns =>
      if (columns.map List.length).dedup.length ≠ 1 then
        .error (.providerClientError "Dhan candle arrays have inconsistent lengths")
      else
        let rows := rowsOf request.timeframe columns
        if request.timeframe = "30m" then resample30m reader rows else .ok rows
  | _ => .error (.providerClientError "Dhan candle response must be an object")

end Client

end NanoDelta.Providers
