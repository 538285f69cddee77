import NanoDelta.History.Timeframes
import NanoDelta.Markets.Adapters

/-!
# Candles from quotes

The quotes, the candles and the builder of `runtime/realtime.py`. A payload of a provider becomes
a quote, unless it has no symbol or no price. A builder keeps one forming candle for each symbol; a
quote of a later bar settles it. Bars are aligned with the epoch. A settled candle goes to the
pipeline as a payload of the provider whose quote settled it.
-/

namespace NanoDelta.Runtime

open Library History

/-- `QuoteEvent`. -/
structure QuoteEvent where
  market : Market
  provider : Provider
  symbol : String
  eventTime : DateTime
  price : ℚ
  volume : ℚ := 0
  sequence : Option ℤ := none

/-- `SettledCandle`. -/
structure SettledCandle where
  symbol : String
  timeframe : String
  openTime : Instant
  openPrice : ℚ
  high : ℚ
  low : ℚ
  close : ℚ
  volume : ℚ
  deriving DecidableEq

/-- `CandleBuilder`. -/
structure CandleBuilder where
  seconds : ℤ
  label : String
  forming : Dict String SettledCandle := .empty

/-- The open of the bar that a time is in. -/
def CandleBuilder.opened (self : CandleBuilder) (t : Instant) : Instant :=
  NanoDelta.seconds (epochSecond t - epochSecond t % self.seconds)

/-- The candle that a quote begins. -/
def CandleBuilder.first (self : CandleBuilder) (quote : QuoteEvent) : SettledCandle :=
  ⟨quote.symbol, self.label, self.opened quote.eventTime.astimezone, quote.price, quote.price, quote.price, quote.price,
    quote.volume⟩

/-- The candle after one more quote. -/
def SettledCandle.extend (candle : SettledCandle) (quote : QuoteEvent) : SettledCandle :=
  { candle with
    high := max candle.high quote.price
    low := min candle.low quote.price
    close := quote.price
    volume := candle.volume + quote.volume }

/-- `CandleBuilder.add`: what it returns, and the builder after it. -/
def CandleBuilder.add (self : CandleBuilder) (quote : QuoteEvent) : Option SettledCandle × CandleBuilder :=
  let opened := self.opened quote.eventTime.astimezone
  match self.forming.get? quote.symbol with
  | none => (none, { self with forming := self.forming.set quote.symbol (self.first quote) })
  | some current =>
    if current.openTime < opened then
      (some current, { self with forming := self.forming.set quote.symbol (self.first quote) })
    else if opened < current.openTime then (none, self)
    else (none, { self with forming := self.forming.set quote.symbol (current.extend quote) })

/-! ### Quotes from payloads -/

section Quotes

variable (reader : Reader)

/-- `payload.get(key)`: nothing if it is `None`. -/
def field (payload : Payload) (key : String) : Option Json :=
  match payload.get? key with
  | none | some .null => none
  | some value => some value

/-- `payload.get(key, payload.get(other))`. -/
def fieldOr (payload : Payload) (key other : String) : Option Json :=
  match payload.get? key with
  | none => field payload other
  | some _ => field payload key

/-- `float(str(value))`. -/
def floatOfText (value : Json) : Except PyError ℚ := reader.number (.str (reader.text value))

/-- `_time`. -/
def quoteTime (fallback : Instant) : Option Json → Except PyError Instant
  | none => .ok fallback
  | some value =>
    let number : Except PyError Instant := do Markets.fromEpoch reader (← floatOfText reader value)
    let parsed : Except PyError Instant :=
      match reader.fromisoformat (reader.replace (reader.text value) "Z" "+00:00") with
      | none => .error (.valueError ("Invalid isoformat string: '" ++ reader.text value ++ "'"))
      | some (.naive _) => .error (.valueError "provider event time must include a timezone")
      | some (.aware t) => .ok t
    match value with
    | .num _ | .bool _ => number
    | value => if reader.isdigit (reader.text value) then number else parsed

/-- What `normalize_quote` takes from a payload. -/
structure QuoteFields where
  providerSymbol : Option Json := none
  price : Option Json := none
  volume : Json := .num 0
  eventTime : Option Json := none
  sequence : Option Json := none

/-- `float(levels[0]["price"])`. -/
def firstPrice : Json → Except PyError ℚ
  | .arr (.obj level :: _) => do reader.number (← Markets.required (Markets.entriesOf level) "price")
  | .obj _ => .error (.keyError "0")
  | _ => .error (.typeError "string indices must be integers, not 'str'")

/-- The mean of the first prices. -/
def midPrice (bids asks : Json) : Except PyError (Option Json) := do
  return some (.num (((← firstPrice reader bids) + (← firstPrice reader asks)) / 2))

/-- `int(str(sequence)) if sequence is not None else None`. -/
def sequenceOf : Option Json → Except PyError (Option ℤ)
  | none => .ok none
  | some value =>
    match parseInt (reader.text value) with
    | some n => .ok (some n)
    | none => .error (.valueError ("invalid literal for int() with base 10: '" ++ reader.text value ++ "'"))

/-- `payload.get(key, default)`, as an object; without entries if it is something else. -/
def objectField (payload : Payload) (key : String) : Payload :=
  match payload.get? key with
  | some (.obj entries) => Markets.entriesOf entries
  | _ => .empty

/-- The fields of a payload, by provider. -/
def quoteFields (provider : Provider) (payload : Payload) : Except PyError QuoteFields :=
  let volume (payload : Payload) (key : String) := (payload.get? key).getD (.num 0)
  match provider with
  | .dhan => .ok
    { providerSymbol := field payload "security_id", price := field payload "ltp"
      volume := volume payload "last_trade_quantity", eventTime := field payload "last_trade_time" }
  | .truedata => .ok
    { providerSymbol := fieldOr payload "symbol" "symbol_id", price := field payload "ltp"
      volume := volume payload "ltq", eventTime := field payload "ltt" }
  | .oanda => do
    let bids := (payload.get? "bids").getD (.arr [])
    let asks := (payload.get? "asks").getD (.arr [])
    let price ← if bids.truth && asks.truth then midPrice reader bids asks else pure none
    return { providerSymbol := field payload "instrument", price, eventTime := field payload "time" }
  | .okx =>
    let data := objectField payload "data"
    let volume := match payload.get? "data" with
      | some (.obj _) => volume data "lastSz"
      | _ => .num 0
    .ok { providerSymbol := field (objectField payload "arg") "instId", price := field data "last", volume
          eventTime := field data "ts", sequence := field data "seqId" }
  | .poloniex => .ok
    { providerSymbol := field payload "symbol", price := fieldOr payload "price" "close"
      volume := match payload.get? "quantity" with
        | some value => value
        | none => volume payload "amount"
      eventTime := fieldOr payload "ts" "time", sequence := fieldOr payload "id" "sequence" }

/-- `normalize_quote`: nothing for heartbeats and control frames. -/
def normalizeQuote (market : Market) (provider : Provider) (payload : Payload) (receivedAt : Instant)
    (symbols : Dict String String) : Except PyError (Option QuoteEvent) := do
  let fields ← quoteFields reader provider payload
  match fields.providerSymbol, fields.price with
  | some providerSymbol, some price =>
    let rawSymbol := reader.text providerSymbol
    let symbol := (symbols.get? rawSymbol).getD (reader.replace rawSymbol "-" "_")
    let eventTime ← quoteTime reader receivedAt fields.eventTime
    let price ← floatOfText reader price
    let volume ← floatOfText reader fields.volume
    let sequence ← sequenceOf reader fields.sequence
    return some { market, provider, symbol, eventTime := .aware eventTime, price, volume, sequence }
  | _, _ => return none

/-- A quote is of the market that it is normalized for. -/
theorem market_of_normalizeQuote {reader : Reader} {market : Market} {provider : Provider} {payload : Payload}
    {receivedAt : Instant} {symbols : Dict String String} {quote : QuoteEvent}
    (h : normalizeQuote reader market provider payload receivedAt symbols = .ok (some quote)) :
    quote.market = market := by
  unfold normalizeQuote at h
  obtain ⟨fields, -, h⟩ := Effect.except_bind_eq_ok.mp h
  split at h
  · obtain ⟨eventTime, -, h⟩ := Effect.except_bind_eq_ok.mp h
    obtain ⟨price, -, h⟩ := Effect.except_bind_eq_ok.mp h
    obtain ⟨volume, -, h⟩ := Effect.except_bind_eq_ok.mp h
    obtain ⟨sequence, -, h⟩ := Effect.except_bind_eq_ok.mp h
    cases h
    rfl
  · cases h

end Quotes

/-! ### Payloads from candles -/

/-- A payload with the given members. -/
def payloadOf (members : List (String × Json)) : Payload := Markets.entriesOf members

/-- `_candle_payload`. -/
def candlePayload (provider : Provider) (candle : SettledCandle) : Payload :=
  let millis : Json := .str (toString (candle.openTime.tdiv 1000))
  let opened : Json := .str (isoformat candle.openTime)
  let common := [("open", Json.num candle.openPrice), ("high", .num candle.high), ("low", .num candle.low),
    ("close", .num candle.close)]
  let short := [("o", Json.num candle.openPrice), ("h", .num candle.high), ("l", .num candle.low),
    ("c", .num candle.close)]
  match provider with
  | .dhan => payloadOf (common ++ [("timestamp", opened), ("volume", .num candle.volume),
      ("timeframe", .str candle.timeframe), ("settled", .bool true)])
  | .truedata => payloadOf (("time", opened) :: short ++ [("v", .num candle.volume),
      ("interval", .str candle.timeframe), ("complete", .bool true)])
  | .oanda => payloadOf [("time", opened), ("mid", .obj short), ("volume", .num candle.volume),
      ("timeframe", .str candle.timeframe), ("complete", .bool true)]
  | .okx => payloadOf (("ts", millis) :: short ++ [("vol", .num candle.volume), ("bar", .str candle.timeframe),
      ("confirm", .str "1")])
  | .poloniex => payloadOf (common ++ [("quantity", .num candle.volume), ("interval", .str candle.timeframe),
      ("startTime", millis), ("settled", .bool true)])

end NanoDelta.Runtime
