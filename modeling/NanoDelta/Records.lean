import Mathlib.Algebra.Order.Field.Rat
import Mathlib.Data.List.Sort
import NanoDelta.Contracts
import NanoDelta.Library.Dict

/-!
# Raw records and candles

The records of the Bronze and Silver layers (`contracts.py`), and the JSON payloads that
providers send. How the runtime reads a text (as a number, as a time, in upper case) is a
parameter, `Reader`; nothing is assumed about it.
-/

namespace NanoDelta

open Library

/-! ### Payloads -/

/-- A JSON value. -/
inductive Json where
  | null
  | bool (value : Bool)
  | num (value : ℚ)
  | str (value : String)
  | arr (items : List Json)
  | obj (entries : List (String × Json))

/-- A JSON object, as a provider sends it for one record. -/
abbrev Payload := Dict String Json

/-- What the model takes from the Python runtime to read payloads. -/
structure Reader where
  /-- `float(text)`: nothing if the text is not a finite number. -/
  float : String → Option ℚ
  /-- `text.isdigit()`. -/
  isdigit : String → Bool
  /-- `datetime.fromisoformat(text)`: nothing if it raises. -/
  fromisoformat : String → Option DateTime
  /-- `datetime.fromtimestamp(number, UTC)`. -/
  fromtimestamp : ℚ → Except PyError Instant
  /-- `str(value)` of a value that is not a text. -/
  str : Json → String
  /-- `text.upper()`. -/
  upper : String → String
  /-- `text.lower()`. -/
  lower : String → String
  /-- `text.replace(old, new)`. -/
  replace : String → String → String → String
  /-- `json.dumps(payload, sort_keys=True, separators=(",", ":"))`. -/
  dumps : Payload → String

/-- `str(value)`. -/
def Reader.text (reader : Reader) : Json → String
  | .str text => text
  | value => reader.str value

/-- `float(value)`. -/
def Reader.number (reader : Reader) : Json → Except PyError ℚ
  | .num q => .ok q
  | .bool b => .ok (if b then 1 else 0)
  | .str text =>
    match reader.float text with
    | some q => .ok q
    | none => .error (.valueError ("could not convert string to float: '" ++ text ++ "'"))
  | .null => .error (.typeError "float() argument must be a string or a real number, not 'NoneType'")
  | .arr _ => .error (.typeError "float() argument must be a string or a real number, not 'list'")
  | .obj _ => .error (.typeError "float() argument must be a string or a real number, not 'dict'")

/-- `bool(value)`. -/
def Json.truth : Json → Bool
  | .null => false
  | .bool b => b
  | .num q => q ≠ 0
  | .str text => text ≠ ""
  | .arr items => !items.isEmpty
  | .obj entries => !entries.isEmpty

/-! ### The runtime on plain payloads -/

/-- The value of ASCII digits. -/
def digitsValue (digits : List Char) : ℕ := digits.foldl (fun n c => 10 * n + (c.toNat - 48)) 0

/-- A decimal number without an exponent. -/
def parseDecimal (text : String) : Option ℚ :=
  let (sign, digits) := match text.toList with
    | '-' :: cs => (-1, cs)
    | cs => (1, cs)
  let whole := digits.takeWhile Char.isDigit
  let fraction := (digits.dropWhile Char.isDigit).drop 1
  if whole.isEmpty || !fraction.all Char.isDigit || !(["", "."].contains (String.ofList ((digits.dropWhile Char.isDigit).take 1)))
  then none
  else some (sign * (digitsValue (whole ++ fraction) / 10 ^ fraction.length))

/-- The day of a date, counted from the epoch. -/
def dayOf (year month day : ℤ) : ℤ :=
  let y := if month ≤ 2 then year - 1 else year
  let era := y / 400
  let yoe := y - era * 400
  let doy := (153 * (if month ≤ 2 then month + 9 else month - 3) + 2) / 5 + day - 1
  era * 146097 + (yoe * 365 + yoe / 4 - yoe / 100 + doy) - 719468

/-- A time as `isoformat` writes it, to the second and in UTC. -/
def parseIso (text : String) : Option DateTime :=
  match text.toList with
  | [y₁, y₂, y₃, y₄, '-', m₁, m₂, '-', d₁, d₂, 'T', h₁, h₂, ':', n₁, n₂, ':', s₁, s₂, '+', '0', '0', ':', '0', '0'] =>
    if [y₁, y₂, y₃, y₄, m₁, m₂, d₁, d₂, h₁, h₂, n₁, n₂, s₁, s₂].all Char.isDigit then
      let day := dayOf (digitsValue [y₁, y₂, y₃, y₄]) (digitsValue [m₁, m₂]) (digitsValue [d₁, d₂])
      some (.aware (seconds (day * 86400 + digitsValue [h₁, h₂] * 3600 + digitsValue [n₁, n₂] * 60 +
        digitsValue [s₁, s₂])))
    else none
  | _ => none

/-- The members of a JSON object, sorted by key. -/
def dumpMembers (members : List (String × String)) : String :=
  let sorted := members.insertionSort fun a b => a.1 ≤ b.1
  "\x7b" ++ ",".intercalate (sorted.map fun e => "\"" ++ e.1 ++ "\":" ++ e.2) ++ "\x7d"

mutual

/-- A JSON value as text, compact and with sorted keys. -/
def Json.dump : Json → String
  | .null => "null"
  | .bool b => if b then "true" else "false"
  | .num q => if q.den = 1 then toString q.num else reprDecimal q
  | .str text => "\"" ++ text ++ "\""
  | .arr items => "[" ++ ",".intercalate (dumpItems items) ++ "]"
  | .obj entries => dumpMembers (dumpEntries entries)

/-- The items of an array as texts. -/
def dumpItems : List Json → List String
  | [] => []
  | item :: items => item.dump :: dumpItems items

/-- The entries of an object, with their values as texts. -/
def dumpEntries : List (String × Json) → List (String × String)
  | [] => []
  | (key, value) :: entries => (key, value.dump) :: dumpEntries entries

end

/-- The runtime on payloads of ASCII texts, plain decimal numbers and times to the second in UTC, where what is replaced
in a text is one character. -/
def Reader.plain : Reader where
  float := parseDecimal
  isdigit text := text ≠ "" && text.toList.all Char.isDigit
  fromisoformat := parseIso
  fromtimestamp q := .ok (q * 1000000).floor
  str
    | .null => "None"
    | .bool b => if b then "True" else "False"
    | .num q => reprDecimal q
    | _ => ""
  upper text := String.ofList (text.toList.map Char.toUpper)
  lower text := String.ofList (text.toList.map Char.toLower)
  replace text old new := String.ofList (text.toList.flatMap fun c => if old.toList = [c] then new.toList else [c])
  dumps payload := dumpMembers (dumpEntries payload.entries)

example : parseIso (isoformat (seconds 1786795200)) = some (.aware (seconds 1786795200)) := by decide +kernel

/-! ### Records -/

/-- `Provider`. -/
inductive Provider where
  | dhan
  | truedata
  | oanda
  | okx
  | poloniex
  deriving DecidableEq

/-- `Provider.value`. -/
def Provider.value : Provider → String
  | .dhan => "dhan"
  | .truedata => "truedata"
  | .oanda => "oanda"
  | .okx => "okx"
  | .poloniex => "poloniex"

/-- `EventType`, without the types that nothing here writes. -/
inductive EventType where
  | candle
  | quote
  deriving DecidableEq

/-- `EventType.value`. -/
def EventType.value : EventType → String
  | .candle => "candle"
  | .quote => "quote"

/-- `RawRecord`. -/
structure RawRecord where
  recordId : String
  market : Market
  provider : Provider
  eventType : EventType
  providerSymbol : String
  receivedAt : Instant
  payload : Payload

/-- `RawRecord.create`. What `json.loads` gives back of a JSON object is that object. -/
def RawRecord.create (host : Host) (reader : Reader) (market : Market) (provider : Provider) (eventType : EventType)
    (providerSymbol : String) (receivedAt : DateTime) (payload : Payload) : Except PyError RawRecord := do
  let receivedAt ← utc receivedAt "received_at"
  let recordId := stableId host [market.value, provider.value, eventType.value, providerSymbol, reader.dumps payload]
  return ⟨recordId, market, provider, eventType, providerSymbol, receivedAt, payload⟩

/-- `CanonicalCandle`. -/
structure CanonicalCandle where
  recordId : String
  rawRecordId : String
  market : Market
  provider : Provider
  symbol : String
  timeframe : String
  openTime : Instant
  openPrice : ℚ
  high : ℚ
  low : ℚ
  close : ℚ
  volume : ℚ
  isSettled : Bool
  /-- The volume is not negative. -/
  volume_nonneg : 0 ≤ volume
  /-- The open and the close are between the low and the high. -/
  range : low ≤ min openPrice close ∧ max openPrice close ≤ high
  deriving DecidableEq

/-- The constructor of `CanonicalCandle`, with the checks of `__post_init__` in their order. A low above the high is
excluded by the check before it. -/
def CanonicalCandle.create (recordId rawRecordId : String) (market : Market) (provider : Provider)
    (symbol timeframe : String) (openTime : Instant) (openPrice high low close volume : ℚ) (isSettled : Bool) :
    Except PyError CanonicalCandle :=
  if h₁ : volume < 0 then .error (.valueError "volume cannot be negative")
  else if h₂ : min openPrice close < low ∨ high < max openPrice close then
    .error (.valueError "OHLC values are inconsistent")
  else .ok
    { recordId, rawRecordId, market, provider, symbol, timeframe, openTime, openPrice, high, low, close, volume,
      isSettled, volume_nonneg := not_lt.mp h₁, range := by simpa [not_or] using h₂ }

/-- What identifies a candle in the Silver layer. -/
def CanonicalCandle.key (candle : CanonicalCandle) : Market × String × String × Instant :=
  (candle.market, candle.symbol, candle.timeframe, candle.openTime)

end NanoDelta
