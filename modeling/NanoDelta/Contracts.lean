import Mathlib.Data.Rat.Defs
import NanoDelta.Library.Sha256
import NanoDelta.Library.Text

/-!
# Contracts

The records shared by the layers of NanoDelta (`contracts.py`), and the parts of
Python that its other modules use: exceptions, times, and the texts that
`stable_id` joins and hashes.

Numbers are exact rationals. A time is a whole number of microseconds since the
epoch; an aware `datetime` is kept as its instant, which is all that `utc` leaves
of it. What the runtime computes from texts and floats is the parameter `Host`:
every theorem that does not say otherwise holds for every hash function, and
`Host.cpython` is the one a run really has.
-/

namespace NanoDelta

open Library

/-! ### Numbers -/

theorem nonneg_of_not_neg {q : ℚ} (h : ¬ q < 0) : 0 ≤ q := Rat.not_lt.mp h

namespace Amounts

theorem zero_nonneg : (0 : ℚ) ≤ 0 := by decide

theorem zeros_nonneg : (0 : ℚ) ≤ 0 ∧ (0 : ℚ) ≤ 0 := by decide

theorem one_nonneg : (0 : ℚ) ≤ 1 := by decide

theorem ten_nonneg : (0 : ℚ) ≤ 10 := by decide

theorem hundred_pos : (0 : ℚ) < 100 := by decide

theorem equity_pos : (0 : ℚ) < 20000 := by decide

theorem half_mem : (0 : ℚ) ≤ 1 / 2 ∧ (1 / 2 : ℚ) ≤ 1 := by decide +kernel

end Amounts

/-! ### Enumerations -/

/-- `Market`. -/
inductive Market where
  | nse
  | forex
  | crypto
  deriving DecidableEq, Repr

/-- `Market.value`. -/
def Market.value : Market → String
  | .nse => "nse"
  | .forex => "forex"
  | .crypto => "crypto"

/-- `AdvisoryAction`. -/
inductive AdvisoryAction where
  | buy
  | sell
  | abstain
  deriving DecidableEq, Repr

/-- `AdvisoryAction.value`. -/
def AdvisoryAction.value : AdvisoryAction → String
  | .buy => "BUY"
  | .sell => "SELL"
  | .abstain => "ABSTAIN"

/-! ### Exceptions -/

/-- The exceptions the modelled code raises, with their messages. -/
inductive PyError where
  /-- `ValueError`. -/
  | valueError (message : String)
  /-- `PermissionError`. -/
  | permissionError (message : String)
  /-- `LookupError`. -/
  | lookupError (message : String)
  /-- `KeyError`. -/
  | keyError (key : String)
  /-- `RuntimeError`. -/
  | runtimeError (message : String)
  /-- `IndexError`. -/
  | indexError (message : String)
  /-- `TypeError`. -/
  | typeError (message : String)
  /-- `OverflowError`. -/
  | overflowError (message : String)
  /-- `ZeroDivisionError`. -/
  | zeroDivisionError (message : String)
  /-- `AttributeError`. -/
  | attributeError (message : String)
  /-- `FileNotFoundError`. -/
  | fileNotFoundError (message : String)
  /-- `ProviderClientError`. -/
  | providerClientError (message : String)
  /-- `TimeoutError`. -/
  | timeoutError (message : String)
  /-- `ConnectionError`. -/
  | connectionError (message : String)
  /-- An error of the database driver. -/
  | databaseError (message : String)
  /-- The process was killed: no exception, and no handler runs. -/
  | killed
  deriving DecidableEq, Repr

/-- `type(exc).__name__`. -/
def PyError.typeName : PyError → String
  | .valueError _ => "ValueError"
  | .permissionError _ => "PermissionError"
  | .lookupError _ => "LookupError"
  | .keyError _ => "KeyError"
  | .runtimeError _ => "RuntimeError"
  | .indexError _ => "IndexError"
  | .typeError _ => "TypeError"
  | .overflowError _ => "OverflowError"
  | .zeroDivisionError _ => "ZeroDivisionError"
  | .attributeError _ => "AttributeError"
  | .fileNotFoundError _ => "FileNotFoundError"
  | .providerClientError _ => "ProviderClientError"
  | .timeoutError _ => "TimeoutError"
  | .connectionError _ => "ConnectionError"
  | .databaseError _ => "DatabaseError"
  | .killed => ""

/-- `str(exc)`. -/
def PyError.text : PyError → String
  | .valueError message => message
  | .permissionError message => message
  | .lookupError message => message
  | .keyError key => "'" ++ key ++ "'"
  | .runtimeError message => message
  | .indexError message => message
  | .typeError message => message
  | .overflowError message => message
  | .zeroDivisionError message => message
  | .attributeError message => message
  | .fileNotFoundError message => message
  | .providerClientError message => message
  | .timeoutError message => message
  | .connectionError message => message
  | .databaseError message => message
  | .killed => ""

/-- `Market(text)`. -/
def Market.ofValue (text : String) : Except PyError Market :=
  if text = "nse" then .ok .nse
  else if text = "forex" then .ok .forex
  else if text = "crypto" then .ok .crypto
  else .error (.valueError "not a valid Market")

@[simp] theorem Market.ofValue_value (m : Market) : Market.ofValue m.value = .ok m := by
  cases m <;> rfl

theorem Market.value_injective : Function.Injective Market.value := by
  intro a b h
  cases a <;> cases b <;> first | rfl | exact absurd h (by decide)

/-- `AdvisoryAction(text)`. -/
def AdvisoryAction.ofValue (text : String) : Except PyError AdvisoryAction :=
  if text = "BUY" then .ok .buy
  else if text = "SELL" then .ok .sell
  else if text = "ABSTAIN" then .ok .abstain
  else .error (.valueError "not a valid AdvisoryAction")

@[simp] theorem AdvisoryAction.ofValue_value (a : AdvisoryAction) :
    AdvisoryAction.ofValue a.value = .ok a := by
  cases a <;> rfl

/-! ### Numbers -/

/-- `a / b`, of floats. -/
def divide (a b : ℚ) : Except PyError ℚ :=
  if b = 0 then .error (.zeroDivisionError "float division by zero") else .ok (a / b)

/-- `float(n)`, but for rounding: the integers that would round to `2 ^ 1024` or more are too large. -/
def floatOfNat (n : ℕ) : Except PyError ℚ :=
  if 2 ^ 1024 - 2 ^ 970 ≤ n then .error (.overflowError "int too large to convert to float") else .ok n

/-! ### Times -/

/-- An instant: microseconds since 1970-01-01T00:00:00Z. -/
abbrev Instant := ℤ

/-- A `datetime`: naive, or aware and then an instant. -/
inductive DateTime where
  /-- Without `tzinfo`. -/
  | naive (wall : ℤ)
  /-- With `tzinfo`. -/
  | aware (instant : Instant)
  deriving DecidableEq, Repr

/-- `utc(value, name)`. -/
def utc (value : DateTime) (name : String) : Except PyError Instant :=
  match value with
  | .naive _ => .error (.valueError (name ++ " must be timezone-aware"))
  | .aware t => .ok t

/-- `value.astimezone(UTC)`, on a host whose local time is UTC. -/
def DateTime.astimezone : DateTime → Instant
  | .naive wall => wall
  | .aware t => t

/-- `timedelta(seconds=n)`. -/
def seconds (n : ℤ) : ℤ := n * 1000000

/-- A number in decimal, padded with zeros to `width` digits. -/
def padded (width n : ℕ) : String :=
  let digits := (Nat.toDigits 10 n)
  String.ofList (List.replicate (width - digits.length) '0' ++ digits)

/-- The Gregorian date of a day counted from the epoch: year, month and day. -/
def civil (days : ℤ) : ℕ × ℕ × ℕ :=
  let z := days + 719468
  let era := z / 146097
  let doe := (z - era * 146097).toNat
  let yoe := (doe - doe / 1460 + doe / 36524 - doe / 146096) / 365
  let doy := doe - (365 * yoe + yoe / 4 - yoe / 100)
  let mp := (5 * doy + 2) / 153
  let month := if mp < 10 then mp + 3 else mp - 9
  let year := (yoe + era * 400).toNat + if month ≤ 2 then 1 else 0
  (year, month, doy - (153 * mp + 2) / 5 + 1)

/-- `datetime.isoformat()` of a time in UTC. -/
def isoformat (t : Instant) : String :=
  let days := t / 86400000000
  let micros := (t - days * 86400000000).toNat
  let (year, month, day) := civil days
  let secs := micros / 1000000
  let fraction := if micros % 1000000 = 0 then "" else "." ++ padded 6 (micros % 1000000)
  padded 4 year ++ "-" ++ padded 2 month ++ "-" ++ padded 2 day ++ "T" ++ padded 2 (secs / 3600) ++ ":" ++
    padded 2 (secs / 60 % 60) ++ ":" ++ padded 2 (secs % 60) ++ fraction ++ "+00:00"

example : isoformat (seconds 1786795200) = "2026-08-15T12:00:00+00:00" := by decide +kernel

/-! ### Texts -/

/-- The white space that `str.strip()` removes. -/
def isSpace (c : Char) : Bool :=
  let n := c.toNat
  (9 ≤ n && n ≤ 13) || (28 ≤ n && n ≤ 32) || n == 0x85 || n == 0xa0 || n == 0x1680 ||
    (0x2000 ≤ n && n ≤ 0x200a) || n == 0x2028 || n == 0x2029 || n == 0x202f || n == 0x205f || n == 0x3000

/-- `not text.strip()`. -/
def isBlank (text : String) : Bool := text.toList.all isSpace

/-- `text.startswith(start)`. -/
def startsWith (text start : String) : Bool := start.toList.isPrefixOf text.toList

/-- `text.rsplit(":", 1)[-1]`: what follows the last colon. -/
def afterLastColon (text : String) : String :=
  String.ofList (text.toList.reverse.takeWhile (· ≠ ':')).reverse

/-! ### Records -/

/-- `FeatureRecord`: a row of the Gold layer. -/
structure FeatureRecord where
  recordId : String
  candleRecordId : String
  market : Market
  symbol : String
  timeframe : String
  eventTime : DateTime
  close : ℚ
  return1 : ℚ
  rangePct : ℚ
  bodyPct : ℚ
  volumeChange : Option ℚ
  featureVersion : ℕ := 1
  deriving DecidableEq

/-! ### Identifiers -/

/-- What the model takes from the Python runtime. -/
structure Host where
  /-- `hashlib.sha256(text.encode()).hexdigest()`. -/
  sha256 : String → String
  /-- `repr` of a float. -/
  reprFloat : ℚ → String
  /-- `repr` of a string. -/
  reprStr : String → String

/-- `stable_id(*parts)`, the parts already as texts. -/
def stableId (host : Host) (parts : List String) : String := host.sha256 ("|".intercalate parts)

/-- `repr` of a tuple, its items already as texts. -/
def reprTuple : List String → String
  | [] => "()"
  | [item] => "(" ++ item ++ ",)"
  | items => "(" ++ ", ".intercalate items ++ ")"

/-- `repr` of a float that is a decimal fraction of at most six places, below `10 ^ 16`. -/
def reprDecimal (q : ℚ) : String :=
  let scaled := (q.num.natAbs * 1000000) / q.den
  let sign := if q < 0 then "-" else ""
  let zeros := ((padded 6 (scaled % 1000000)).toList.reverse.dropWhile (· = '0')).reverse
  sign ++ padded 1 (scaled / 1000000) ++ "." ++ (if zeros = [] then "0" else String.ofList zeros)

/-- The runtime itself: SHA-256, floats that are short decimal fractions, and strings of
printable characters without quotes. -/
def Host.cpython : Host where
  sha256 := Sha256.hexdigest
  reprFloat := reprDecimal
  reprStr := fun text => "'" ++ text ++ "'"

/-- The runtime with the digests of a table, and on all other texts a digest that cannot collide. -/
def Host.recorded (table : List (String × String)) : Host :=
  { Host.cpython with sha256 := Text.recorded table }

/-- If the table has different SHA-256 digests, there are no collisions. -/
theorem Host.recorded_collisionFree {table : List (String × String)} (hnodup : (table.map Prod.snd).Nodup)
    (htable : ∀ e ∈ table, Sha256.hexdigest e.1 = e.2) : Text.CollisionFree (Host.recorded table).sha256 := by
  refine Text.recorded_collisionFree hnodup ?_
  intro e he
  rw [← htable e he]
  constructor
  · intro h
    exact absurd (Sha256.mem_hexdigest h) (by decide)
  · intro h
    exact absurd (Sha256.mem_hexdigest h) (by decide)

/-- The runtime itself, in a form that is evaluated quickly. -/
def Host.evaluated : Host := { Host.cpython with sha256 := Sha256.byteDigest }

theorem Host.evaluated_eq : Host.evaluated = .cpython := by
  rw [Host.evaluated, Sha256.byteDigest_eq]
  rfl

/-- The runtime with the digests of a table, by the characters of the table. -/
def Host.spelled (cs : List (List Char × List Char)) : Host := { Host.cpython with sha256 := Text.recordedChars cs }

theorem Host.spelled_eq {table : List (String × String)} (s : Text.Spelling table) :
    Host.recorded table = Host.spelled s.chars := by
  rw [Host.recorded, Text.recorded_eq s]
  rfl

example : reprDecimal (-1 / 4) = "-0.25" := by decide +kernel

end NanoDelta
