import NanoDelta.Library.Effect
import NanoDelta.Records

/-!
# Candle adapters

`markets/adapters.py`: from the payload of each provider to a canonical candle. Whether a
candle is settled is what the payload says, or the adapter's default.
-/

namespace NanoDelta.Markets

open Library

section Adapters

variable (host : Host) (reader : Reader)

/-- `payload.get(key)` as a number, or an error (`_float`). -/
def floatField (payload : Payload) (key : String) : Except PyError ℚ :=
  match payload.get? key with
  | none | some .null | some (.str "") => .error (.valueError ("missing required field: " ++ key))
  | some value => reader.number value

/-- `payload[key]`. -/
def required (payload : Payload) (key : String) : Except PyError Json :=
  match payload.get? key with
  | some value => .ok value
  | none => .error (.keyError key)

/-- A number of seconds, or of milliseconds if it is large, as a time. -/
def fromEpoch (number : ℚ) : Except PyError Instant :=
  reader.fromtimestamp (if 10000000000 < number then number / 1000 else number)

/-- A text with a time in ISO format. -/
def fromIso (text : String) : Except PyError Instant :=
  match reader.fromisoformat (reader.replace text "Z" "+00:00") with
  | none => .error (.valueError ("Invalid isoformat string: '" ++ text ++ "'"))
  | some (.naive _) => .error (.valueError "provider timestamp must include a timezone")
  | some (.aware t) => .ok t

/-- `_timestamp`, of a JSON value. -/
def timestamp : Json → Except PyError Instant
  | .num q => fromEpoch reader q
  | .bool b => fromEpoch reader (if b then 1 else 0)
  | .str text =>
    if reader.isdigit text then do fromEpoch reader (← reader.number (.str text)) else fromIso reader text
  | value => fromIso reader (reader.str value)

/-- The fields of a candle, by the names that a provider gives them. -/
structure CandleFields where
  symbol : String
  timeframe : String
  openTime : Except PyError Instant
  openPrice : Except PyError ℚ
  high : Except PyError ℚ
  low : Except PyError ℚ
  close : Except PyError ℚ
  volume : Except PyError ℚ
  settled : Bool

/-- `_candle`, its arguments evaluated in order. -/
def candleOf (raw : RawRecord) (fields : CandleFields) : Except PyError CanonicalCandle := do
  let openTime ← fields.openTime
  let openPrice ← fields.openPrice
  let high ← fields.high
  let low ← fields.low
  let close ← fields.close
  let volume ← fields.volume
  let identity := stableId host [raw.market.value, fields.symbol, fields.timeframe, isoformat openTime]
  CanonicalCandle.create identity raw.recordId raw.market raw.provider fields.symbol fields.timeframe openTime
    openPrice high low close volume fields.settled

/-- `str(payload.get(key, default))`. -/
def textField (payload : Payload) (key default : String) : String :=
  match payload.get? key with
  | some value => reader.text value
  | none => default

/-- `bool(payload.get(key, default))`. -/
def truthField (payload : Payload) (key : String) (default : Bool) : Bool :=
  match payload.get? key with
  | some value => value.truth
  | none => default

/-- `provider_symbol.upper().replace("-", "_")`. -/
def pairSymbol (raw : RawRecord) : String := reader.replace (reader.upper raw.providerSymbol) "-" "_"

/-- The time that a payload gives under a key. -/
def timeField (payload : Payload) (key : String) : Except PyError Instant := do timestamp reader (← required payload key)

/-- `_dhan`. -/
def dhan (raw : RawRecord) : Except PyError CanonicalCandle :=
  let p := raw.payload
  candleOf host raw
    { symbol := reader.upper raw.providerSymbol
      timeframe := textField reader p "timeframe" "1m"
      openTime := timeField reader p "timestamp"
      openPrice := floatField reader p "open"
      high := floatField reader p "high"
      low := floatField reader p "low"
      close := floatField reader p "close"
      volume := floatField reader p "volume"
      settled := truthField p "settled" true }

/-- `_truedata`. -/
def truedata (raw : RawRecord) : Except PyError CanonicalCandle :=
  let p := raw.payload
  candleOf host raw
    { symbol := reader.upper raw.providerSymbol
      timeframe := textField reader p "interval" "1m"
      openTime := timeField reader p "time"
      openPrice := floatField reader p "o"
      high := floatField reader p "h"
      low := floatField reader p "l"
      close := floatField reader p "c"
      volume := floatField reader p "v"
      settled := truthField p "complete" true }

/-- An object, as the dictionary of its entries. -/
def entriesOf (entries : List (String × Json)) : Payload := entries.foldl (fun d e => d.set e.1 e.2) .empty

/-- `_oanda`. -/
def oanda (raw : RawRecord) : Except PyError CanonicalCandle :=
  let p := raw.payload
  match p.get? "mid" with
  | some (.obj entries) =>
    let mid := entriesOf entries
    candleOf host raw
      { symbol := pairSymbol reader raw
        timeframe := textField reader p "timeframe" "1m"
        openTime := timeField reader p "time"
        openPrice := floatField reader mid "o"
        high := floatField reader mid "h"
        low := floatField reader mid "l"
        close := floatField reader mid "c"
        volume := floatField reader p "volume"
        settled := truthField p "complete" false }
  | _ => .error (.valueError "missing required field: mid")

/-- `_okx`. -/
def okx (raw : RawRecord) : Except PyError CanonicalCandle :=
  let p := raw.payload
  candleOf host raw
    { symbol := pairSymbol reader raw
      timeframe := textField reader p "bar" "1m"
      openTime := timeField reader p "ts"
      openPrice := floatField reader p "o"
      high := floatField reader p "h"
      low := floatField reader p "l"
      close := floatField reader p "c"
      volume := floatField reader p "vol"
      settled := textField reader p "confirm" "0" = "1" }

/-- `_poloniex`. -/
def poloniex (raw : RawRecord) : Except PyError CanonicalCandle :=
  let p := raw.payload
  candleOf host raw
    { symbol := pairSymbol reader raw
      timeframe := reader.lower (textField reader p "interval" "MINUTE_1")
      openTime := timeField reader p "startTime"
      openPrice := floatField reader p "open"
      high := floatField reader p "high"
      low := floatField reader p "low"
      close := floatField reader p "close"
      volume := floatField reader p "quantity"
      settled := truthField p "settled" true }

/-- `_ADAPTERS`. -/
def adapters : Provider → Market × (RawRecord → Except PyError CanonicalCandle)
  | .dhan => (.nse, dhan host reader)
  | .truedata => (.nse, truedata host reader)
  | .oanda => (.forex, oanda host reader)
  | .okx => (.crypto, okx host reader)
  | .poloniex => (.crypto, poloniex host reader)

/-- `adapter_for`. -/
def adapterFor (market : Market) (provider : Provider) : Except PyError (RawRecord → Except PyError CanonicalCandle) :=
  let (expected, adapter) := adapters host reader provider
  if market ≠ expected then .error (.valueError (provider.value ++ " cannot ingest " ++ market.value ++ " data"))
  else .ok adapter

variable {host reader}

/-- A candle is of the market of its raw record, and its id is that of its market, symbol, timeframe and open time. -/
theorem of_candleOf {raw : RawRecord} {fields : CandleFields} {candle : CanonicalCandle}
    (h : candleOf host raw fields = .ok candle) : candle.market = raw.market ∧ candle.recordId =
      stableId host [candle.market.value, candle.symbol, candle.timeframe, isoformat candle.openTime] := by
  unfold candleOf at h
  obtain ⟨openTime, -, h₁⟩ := Effect.except_bind_eq_ok.mp h
  obtain ⟨openPrice, -, h₂⟩ := Effect.except_bind_eq_ok.mp h₁
  obtain ⟨high, -, h₃⟩ := Effect.except_bind_eq_ok.mp h₂
  obtain ⟨low, -, h₄⟩ := Effect.except_bind_eq_ok.mp h₃
  obtain ⟨close, -, h₅⟩ := Effect.except_bind_eq_ok.mp h₄
  obtain ⟨volume, -, h₆⟩ := Effect.except_bind_eq_ok.mp h₅
  unfold CanonicalCandle.create at h₆
  split_ifs at h₆
  cases h₆
  exact ⟨rfl, rfl⟩

/-- So is the candle that the adapter of a provider makes. -/
theorem of_adapters {provider : Provider} {raw : RawRecord} {candle : CanonicalCandle}
    (h : (adapters host reader provider).2 raw = .ok candle) : candle.market = raw.market ∧ candle.recordId =
      stableId host [candle.market.value, candle.symbol, candle.timeframe, isoformat candle.openTime] := by
  cases provider with
  | oanda =>
    have hoanda : oanda host reader raw = .ok candle := h
    unfold oanda at hoanda
    dsimp only at hoanda
    split at hoanda
    · exact of_candleOf hoanda
    · cases hoanda
  | dhan => exact of_candleOf h
  | truedata => exact of_candleOf h
  | okx => exact of_candleOf h
  | poloniex => exact of_candleOf h

end Adapters

end NanoDelta.Markets
