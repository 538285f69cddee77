import Mathlib.Tactic.Linarith
import Mathlib.Tactic.Ring
import NanoDelta.Contracts

/-!
# Timeframes and market calendars

`history/timeframes.py`: the length of a timeframe, the open of the last bar that is settled at a
time, and the opens that the calendar of a market expects in a window. A bar of a timeframe opens
at a multiple of its length, counted from the epoch; the opens that are expected are counted from
the start of the window.

* `mem_expectedOpens_iff`: the expected opens are the session times of the window, in steps from
  its start.
-/

namespace NanoDelta.History

/-! ### Timeframes -/

/-- The value of decimal digits, with single underscores between them. -/
def parseDigits (acc : ℕ) : List Char → Option ℕ
  | [] => some acc
  | '_' :: c :: cs => if c.isDigit then parseDigits (10 * acc + (c.toNat - 48)) cs else none
  | c :: cs => if c.isDigit then parseDigits (10 * acc + (c.toNat - 48)) cs else none

/-- Digits that begin with a digit. -/
def parseNatural : List Char → Option ℕ
  | c :: cs => if c.isDigit then parseDigits 0 (c :: cs) else none
  | [] => none

/-- `int(text)`, of ASCII texts: nothing if it raises. -/
def parseInt (text : String) : Option ℤ :=
  let strip (cs : List Char) := cs.dropWhile isSpace
  match (strip (strip text.toList).reverse).reverse with
  | '-' :: cs => (parseNatural cs).map fun n => -(n : ℤ)
  | '+' :: cs => (parseNatural cs).map fun n => (n : ℤ)
  | cs => (parseNatural cs).map fun n => (n : ℤ)

/-- The seconds of a unit. -/
def unitSeconds : Option Char → Option ℤ
  | some 'm' => some 60
  | some 'h' => some 3600
  | some 'd' => some 86400
  | _ => none

/-- `timeframe_delta`. -/
def timeframeDelta (timeframe : String) : Except PyError ℤ :=
  let unsupported := PyError.valueError ("unsupported timeframe: " ++ timeframe)
  match parseInt (String.ofList timeframe.toList.dropLast), unitSeconds timeframe.toList.getLast? with
  | some value, some unit => if value < 1 then .error unsupported else .ok (seconds (value * unit))
  | _, _ => .error unsupported

/-- A timeframe is a positive number of seconds. -/
theorem timeframeDelta_ok {timeframe : String} {step : ℤ} (h : timeframeDelta timeframe = .ok step) :
    ∃ n : ℤ, 0 < n ∧ step = seconds n := by
  unfold timeframeDelta at h
  split at h
  · rename_i value unit _ hunit
    split_ifs at h with hvalue
    cases h
    have hpos : 0 < unit := by
      unfold unitSeconds at hunit
      split at hunit
      all_goals simp_all
      all_goals omega
    exact ⟨value * unit, mul_pos (by omega) hpos, rfl⟩
  · cases h

/-- `int(value.timestamp())`. -/
def epochSecond (t : Instant) : ℤ := t.tdiv 1000000

/-- `last_settled_open`. -/
def lastSettledOpen (now : DateTime) (timeframe : String) : Except PyError Instant := do
  let now ← utc now "now"
  let step ← timeframeDelta timeframe
  let boundary := epochSecond now - epochSecond now % (step / 1000000)
  return seconds boundary - step

example : timeframeDelta "30m" = .ok (seconds 1800) := by decide +kernel

/-! ### Calendars -/

/-- `MarketCalendar`. -/
structure MarketCalendar where
  market : Market
  holidays : List String := []

/-- `value.weekday()`: Monday is 0. -/
def weekday (t : Instant) : ℤ := (t / seconds 86400 + 3) % 7

/-- `value.date().isoformat()`. -/
def dateText (t : Instant) : String :=
  let (year, month, day) := civil (t / seconds 86400)
  padded 4 year ++ "-" ++ padded 2 month ++ "-" ++ padded 2 day

/-- `MarketCalendar.is_expected`, of a time in UTC. -/
def MarketCalendar.isExpected (self : MarketCalendar) (t : Instant) (timeframe : String) : Bool :=
  if self.market = .crypto then true
  else if 5 ≤ weekday t then false
  else if dateText t ∈ self.holidays then false
  else if self.market = .forex then true
  else if timeframe = "1d" then true
  else seconds 13500 ≤ t % seconds 86400 && t % seconds 86400 < seconds 36000

/-- The loop of `expected_opens`, for a number of steps. -/
def MarketCalendar.expectedFrom (self : MarketCalendar) (stop step : ℤ) (timeframe : String) : ℕ → Instant → List Instant
  | 0, _ => []
  | n + 1, cursor =>
    if cursor ≤ stop then
      (if self.isExpected cursor timeframe then [cursor] else []) ++
        self.expectedFrom stop step timeframe n (cursor + step)
    else []

/-- `MarketCalendar.expected_opens`. The loop takes at most as many steps as fit into the window. -/
def MarketCalendar.expectedOpens (self : MarketCalendar) (start stop : Instant) (timeframe : String) :
    Except PyError (List Instant) := do
  let step ← timeframeDelta timeframe
  return self.expectedFrom stop step timeframe ((stop - start) / step + 1).toNat start

theorem mem_expectedFrom_iff {self : MarketCalendar} {stop step : ℤ} {timeframe : String} (hstep : 0 < step) {n : ℕ}
    {start : Instant} (hn : stop < start + n * step) {t : Instant} :
    t ∈ self.expectedFrom stop step timeframe n start ↔
      (∃ k : ℕ, t = start + k * step) ∧ t ≤ stop ∧ self.isExpected t timeframe = true := by
  induction n generalizing start with
  | zero =>
    simp only [MarketCalendar.expectedFrom, List.not_mem_nil, false_iff]
    rintro ⟨⟨k, rfl⟩, hle, -⟩
    have hk : (0 : ℤ) ≤ k * step := by positivity
    simp only [Nat.cast_zero, zero_mul, add_zero] at hn
    linarith
  | succ n ih =>
    rw [MarketCalendar.expectedFrom]
    split_ifs with hcursor hexpected
    · rw [List.mem_append, ih (by push_cast at hn; linarith), List.mem_singleton]
      constructor
      · rintro (rfl | ⟨⟨k, rfl⟩, hrest⟩)
        · exact ⟨⟨0, by simp⟩, hcursor, hexpected⟩
        · exact ⟨⟨k + 1, by push_cast; ring⟩, hrest⟩
      · rintro ⟨⟨k, rfl⟩, hrest⟩
        cases k with
        | zero => exact Or.inl (by simp)
        | succ k => exact Or.inr ⟨⟨k, by push_cast; ring⟩, hrest⟩
    · rw [List.nil_append, ih (by push_cast at hn; linarith)]
      constructor
      · rintro ⟨⟨k, rfl⟩, hrest⟩
        exact ⟨⟨k + 1, by push_cast; ring⟩, hrest⟩
      · rintro ⟨⟨k, rfl⟩, hrest⟩
        cases k with
        | zero =>
          simp only [Nat.cast_zero, zero_mul, add_zero] at hrest
          exact absurd hrest.2 hexpected
        | succ k => exact ⟨⟨k, by push_cast; ring⟩, hrest⟩
    · simp only [List.not_mem_nil, false_iff]
      rintro ⟨⟨k, rfl⟩, hle, -⟩
      have hk : (0 : ℤ) ≤ k * step := by positivity
      linarith

/-- The opens that a calendar expects are the session times of the window, in steps from its start. -/
theorem mem_expectedOpens_iff {self : MarketCalendar} {start stop : Instant} {timeframe : String} {step : ℤ}
    (hstep : timeframeDelta timeframe = .ok step) {opens : List Instant}
    (h : self.expectedOpens start stop timeframe = .ok opens) {t : Instant} :
    t ∈ opens ↔ (∃ k : ℕ, t = start + k * step) ∧ t ≤ stop ∧ self.isExpected t timeframe = true := by
  obtain ⟨n, hn, rfl⟩ := timeframeDelta_ok hstep
  have hpos : 0 < seconds n := by
    unfold seconds
    positivity
  unfold MarketCalendar.expectedOpens at h
  rw [hstep] at h
  cases h
  refine mem_expectedFrom_iff hpos ?_
  have hdiv : (stop - start) < seconds n * ((stop - start) / seconds n + 1) :=
    Int.lt_mul_ediv_self_add hpos |>.trans_le (by rw [mul_add, mul_one])
  have hcast : (stop - start) / seconds n + 1 ≤ ((((stop - start) / seconds n + 1).toNat : ℕ) : ℤ) := Int.self_le_toNat _
  have hmul := mul_le_mul_of_nonneg_left hcast hpos.le
  linarith

end NanoDelta.History
