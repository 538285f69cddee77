import Mathlib
import NanoDelta.History.Engine
import NanoDelta.Providers.DhanAuth

/-!
# The NSE universe

`universe/nse.py`: the symbols of a CSV file, the security ids that Dhan's instrument master has for them, and the
history jobs and the client that are made of both. A CSV file is what `csv.DictReader` makes of it: the names of its
first record, and the cells of the others.

The loader takes one `-EQ` from the end of a symbol, and so does the resolver of each symbol that it is asked for and
of each name in the master.
-/

namespace NanoDelta.Universe

open Library Providers History

/-! ### Tables -/

/-- A CSV file: its first record, if it has one, and the others. -/
structure Table where
  fieldnames : Option (List String)
  records : List (List String)

/-- A row of a `csv.DictReader`: its cells by their names, and the cells beyond the last name. -/
structure Row where
  cells : Dict String (Option String)
  surplus : List String

/-- The row of a record. A name that occurs twice has its last cell. -/
def rowOf (fieldnames record : List String) : Row where
  cells := fieldnames.zipIdx.foldl (fun cells name => cells.set name.1 record[name.2]?) .empty
  surplus := record.drop fieldnames.length

/-- The rows, without the empty lines. -/
def Table.rows (self : Table) : List Row :=
  (self.records.filter fun record => record ≠ []).map (rowOf (self.fieldnames.getD []))

/-- `text.removesuffix(suffix)`. -/
def removesuffix (text suffix : String) : String :=
  if suffix.toList <:+ text.toList then String.ofList (text.toList.take (text.toList.length - suffix.toList.length))
  else text

/-- `value or default`. -/
def orElse (value : Option String) (default : String) : String :=
  match value with
  | none | some "" => default
  | some value => value

/-! ### Symbols -/

/-- `NseSymbolSpec`. -/
structure NseSymbolSpec where
  symbol : String
  securityId : Option String
  exchangeSegment : String
  instrument : String
  timeframes : List String
  tradeHorizon : String
  deriving DecidableEq

/-- `DhanClient.SUPPORTED_HISTORY_TIMEFRAMES`. -/
def supportedHistoryTimeframes : List String := ["1m", "5m", "15m", "30m", "1h", "60m", "1d"]

section Universe

variable (host : Host) (reader : Reader)

/-- The row with its names and its values cleaned. -/
def cleaned (raw : Row) : Except PyError (Dict String String) :=
  if raw.surplus ≠ [] then .error (.attributeError "'list' object has no attribute 'strip'")
  else .ok (raw.cells.entries.foldl (fun row e => row.set (reader.lower (strip e.1)) (strip (e.2.getD ""))) .empty)

/-- The labels of `timeframes`. -/
def timeframesOf (rawTimeframes : String) : List String :=
  let values := ((rawTimeframes.toList.map fun c => if c = ';' then '|' else c).splitOn '|').map String.ofList
  (values.filter fun value => !isBlank value).map fun value => reader.lower (strip value)

/-- What a row says: nothing if it is disabled, and otherwise its symbol. -/
def loadRow (seen : List String) (line : ℕ) (row : Dict String String) : Except PyError (Option NseSymbolSpec) :=
  let enabled := reader.lower ((row.get? "enabled").getD "true")
  let symbol := removesuffix (reader.upper ((row.get? "symbol").getD "")) "-EQ"
  let timeframes := timeframesOf reader ((row.get? "timeframes").getD "5m|15m|1h|1d")
  let unsupported := (timeframes.filter fun timeframe => timeframe ∉ supportedHistoryTimeframes).dedup
  if enabled ∈ ["false", "0", "no", "n"] then .ok none
  else if enabled ∉ ["true", "1", "yes", "y", ""] then
    .error (.valueError ("invalid enabled value on symbols.csv line " ++ toString line))
  else if symbol = "" then .error (.valueError ("empty symbol on symbols.csv line " ++ toString line))
  else if symbol ∈ seen then .error (.valueError ("duplicate NSE symbol in symbols.csv: " ++ symbol))
  else if timeframes = [] then .error (.valueError ("no timeframes configured for " ++ symbol))
  else if unsupported ≠ [] then
    .error (.valueError ("Dhan direct history does not support [" ++
      ", ".intercalate ((unsupported.insertionSort fun a b => a ≤ b).map host.reprStr) ++ "] for " ++ symbol))
  else .ok (some ⟨symbol, (row.get? "security_id").filter fun securityId => securityId ≠ "",
    orElse (row.get? "exchange_segment") "NSE_EQ", orElse (row.get? "instrument") "EQUITY", timeframes,
    orElse (row.get? "trade_horizon") "intraday"⟩)

/-- The symbols of the rows from a line on, after those of `result`. -/
def loadRows : List Row → ℕ → List NseSymbolSpec → Except PyError (List NseSymbolSpec)
  | [], _, result => .ok result
  | raw :: rows, line, result => do
    match ← loadRow host reader (result.map NseSymbolSpec.symbol) line (← cleaned reader raw) with
    | none => loadRows rows (line + 1) result
    | some spec => loadRows rows (line + 1) (result ++ [spec])

/-- `load_nse_symbols`, of the file at a path if there is one. -/
def loadNseSymbols (path : String) (file : Option Table) : Except PyError (List NseSymbolSpec) :=
  match file with
  | none => .error (.fileNotFoundError ("NSE symbols CSV does not exist: " ++ path))
  | some table =>
    if "symbol" ∉ (table.fieldnames.getD []).map fun name => reader.lower (strip name) then
      .error (.valueError "symbols.csv requires a symbol column")
    else do
      let result ← loadRows host reader table.rows 2 []
      if result = [] then throw (.valueError "symbols.csv contains no enabled NSE symbols")
      return result

/-! ### The instrument master -/

/-- `DhanInstrument`. -/
structure DhanInstrument where
  symbol : String
  securityId : String
  exchangeSegment : String
  instrument : String
  deriving DecidableEq

/-- `_value`. -/
def valueOf (row : Row) (names : List String) : String :=
  match names.filterMap fun name => ((row.cells.get? name).join).filter fun value => !isBlank value with
  | value :: _ => strip value
  | [] => ""

/-- `_symbol`. -/
def symbolOf (value : String) : String := removesuffix (reader.upper (strip value)) "-EQ"

/-- `_is_nse_equity`. -/
def isNseEquity (row : Row) : Bool :=
  let exchange := reader.upper (valueOf row ["EXCH_ID", "SEM_EXM_EXCH_ID"])
  let segment := reader.upper (valueOf row ["SEGMENT", "SEM_SEGMENT"])
  let instrument := reader.upper
    (valueOf row ["INSTRUMENT", "SEM_INSTRUMENT_NAME", "INSTRUMENT_TYPE", "SEM_EXCH_INSTRUMENT_TYPE"])
  exchange = "NSE" ∧ segment ∈ ["E", "EQ", "NSE_EQ"] ∧ (instrument = "" ∨ "EQUITY".toList <:+: instrument.toList)

/-- The security id of a row. -/
def securityIdOfRow (row : Row) : String := valueOf row ["SECURITY_ID", "SEM_SMST_SECURITY_ID"]

/-- The names of a row, as symbols. -/
def aliases (row : Row) : List String :=
  ([valueOf row ["SYMBOL_NAME", "SM_SYMBOL_NAME"], valueOf row ["TRADING_SYMBOL", "SEM_TRADING_SYMBOL"],
    valueOf row ["DISPLAY_NAME", "SEM_CUSTOM_SYMBOL"], valueOf row ["UNDERLYING_SYMBOL"]].filter (· ≠ "")).map
    (symbolOf reader)

/-- The symbols that are asked for, by their normal forms. -/
def requestedOf (symbols : List String) : Dict String String :=
  symbols.foldl (fun requested symbol => requested.set (symbolOf reader symbol) symbol) .empty

/-- The matches after a row of the master. -/
def matchRow (requested : Dict String String) (found : Dict String (List DhanInstrument)) (row : Row) :
    Dict String (List DhanInstrument) :=
  if !isNseEquity reader row || securityIdOfRow row = "" then found
  else (requested.entries.filter fun e => e.1 ∈ aliases reader row).foldl (fun found e =>
    found.set e.1 ((found.get? e.1).getD [] ++ [⟨symbolOf reader e.2, securityIdOfRow row, "NSE_EQ", "EQUITY"⟩])) found

/-- The matches with different security ids, the last of each. -/
def uniqueOf (found : List DhanInstrument) : Dict String DhanInstrument :=
  found.foldl (fun unique item => unique.set item.securityId item) .empty

/-- The instrument of a symbol that is asked for. -/
def chosen (original : String) (found : List DhanInstrument) : Except PyError DhanInstrument :=
  match (uniqueOf found).values with
  | [] => .error (.lookupError ("NSE symbol not found in Dhan instrument master: " ++ original))
  | [item] => .ok item
  | _ => .error (.valueError ("NSE symbol is ambiguous in Dhan instrument master: " ++ original))

/-- `resolve`, with the master that was downloaded. -/
def resolve (symbols : List String) (master : Table) : Except PyError (Dict String DhanInstrument) :=
  let requested := requestedOf reader symbols
  if master.fieldnames = none then .error (.valueError "Dhan instrument master has no header")
  else
    let found := master.rows.foldl (matchRow reader requested) (requested.mapValues fun _ => [])
    requested.entries.foldlM (fun resolved e => do
      let item ← chosen e.2 ((found.get? e.1).getD [])
      return resolved.set (symbolOf reader e.2) item) .empty

/-! ### The builder -/

/-- `DhanUniverse`. -/
structure DhanUniverse where
  instruments : List DhanInstrument
  jobs : List HistoryJob
  client : DhanClient

/-- `DhanNseUniverseBuilder`: its token source, and what its client asks. -/
structure DhanNseUniverseBuilder where
  token : Instant → Except PyError DhanAuth.DhanAccessToken
  transport : DhanRequest → Except PyError Json

/-- The symbols without a security id. -/
def unresolvedOf (specs : List NseSymbolSpec) : List String :=
  (specs.filter fun spec => spec.securityId = none).map NseSymbolSpec.symbol

/-- What `build` asks the master for. -/
def resolving (specs : List NseSymbolSpec) (master : Table) : Except PyError (Dict String DhanInstrument) :=
  if unresolvedOf specs = [] then .ok .empty else resolve reader (unresolvedOf specs) master

/-- The instrument of a symbol. -/
def instrumentOf (resolved : Dict String DhanInstrument) (spec : NseSymbolSpec) : Except PyError DhanInstrument :=
  match spec.securityId.filter fun securityId => securityId ≠ "", resolved.get? spec.symbol with
  | some securityId, _ => .ok ⟨spec.symbol, securityId, spec.exchangeSegment, spec.instrument⟩
  | none, some found => .ok ⟨spec.symbol, found.securityId, spec.exchangeSegment, spec.instrument⟩
  | none, none => .error (.keyError spec.symbol)

/-- The job of a symbol and a timeframe. -/
def jobOf (spec : NseSymbolSpec) (timeframe : String) : Except PyError HistoryJob :=
  HistoryJob.create .nse spec.symbol timeframe (Dict.empty.set .dhan spec.symbol) 730 3 1000 none none

/-- `build`, of the file at a path and the master that is downloaded if it is needed. -/
def DhanNseUniverseBuilder.build (self : DhanNseUniverseBuilder) (path : String) (file : Option Table) (master : Table)
    (now : DateTime) : Except PyError DhanUniverse := do
  let now ← utc now "now"
  let specs ← loadNseSymbols host reader path file
  let resolved ← resolving reader specs master
  let instruments ← specs.mapM (instrumentOf resolved)
  let _ ← self.token now
  let securityIds := instruments.foldl (fun ids item => ids.set item.symbol item.securityId) Dict.empty
  let client ← DhanClient.create reader none securityIds self.transport
  let jobs ← specs.mapM fun spec => spec.timeframes.mapM (jobOf spec)
  return ⟨instruments, jobs.flatten, client⟩

end Universe

end NanoDelta.Universe
