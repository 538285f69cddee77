import Mathlib
import NanoDelta.Isoformat
import NanoDelta.Markets.Adapters

/-!
# What a runtime reads back

`Reader.Documented` is what the documentation of the runtime says about texts that the runtime wrote: the digits of a
number, a time in ISO format, and a number of seconds.

* `parseIso_isoformat`: a time that `isoformat` wrote, read back.
* `documented_plain`: the runtime on plain payloads is one of those that are documented.
-/

namespace NanoDelta

open Library

/-- The first time that is not a `datetime`. -/
def datetimeEnd : Instant := seconds 253402300800

/-- The runtime reads what it wrote. -/
structure Reader.Documented (reader : Reader) : Prop where
  /-- `float(str(n))`. -/
  float_digits : ∀ n : ℕ, reader.float (toString n) = some (n : ℚ)
  /-- `str(n).isdigit()`. -/
  isdigit_digits : ∀ n : ℕ, reader.isdigit (toString n) = true
  /-- A minus sign is no digit. -/
  isdigit_minus : ∀ text, reader.isdigit ("-" ++ text) = false
  /-- Neither are the marks in a time. -/
  isdigit_isoformat : ∀ t, reader.isdigit (isoformat t) = false
  /-- `datetime.fromisoformat(t.isoformat())`, on a whole second from 1970 on. -/
  fromisoformat_isoformat : ∀ t, 0 ≤ t → t < datetimeEnd → t % 1000000 = 0 →
    reader.fromisoformat (reader.replace (isoformat t) "Z" "+00:00") = some (.aware t)
  /-- `datetime.fromtimestamp(n, UTC)`. -/
  fromtimestamp_seconds : ∀ n : ℕ, seconds n < datetimeEnd → reader.fromtimestamp n = .ok (seconds n)
  /-- `label.lower()`, of a text in lower case. -/
  lower_of_lower : ∀ text : String, (∀ c ∈ text.toList, c.isDigit ∨ c.isLower) → reader.lower text = text

/-! ### Dates -/

/-- A date: the year of the era and the day of the year, which begins in March. -/
theorem civil_of_day (z : ℕ) : ∃ yoe doy : ℕ, yoe < 400 ∧ doy ≤ 365 ∧
    z % 146097 = 365 * yoe + yoe / 4 - yoe / 100 + doy ∧
    civil ((z : ℤ) - 719468) =
      (yoe + z / 146097 * 400 + (if (5 * doy + 2) / 153 < 10 then 0 else 1),
        (if (5 * doy + 2) / 153 < 10 then (5 * doy + 2) / 153 + 3 else (5 * doy + 2) / 153 - 9),
        doy - (153 * ((5 * doy + 2) / 153) + 2) / 5 + 1) := by
  obtain ⟨yoe, hyoe⟩ : ∃ yoe, (z % 146097 - z % 146097 / 1460 + z % 146097 / 36524 - z % 146097 / 146096) / 365 = yoe :=
    ⟨_, rfl⟩
  obtain ⟨hlt, hle, hdoy⟩ := year_of_day (Nat.mod_lt z (by decide)) hyoe
  refine ⟨yoe, z % 146097 - (365 * yoe + yoe / 4 - yoe / 100), hlt, hdoy, by omega, ?_⟩
  have hsum : (z : ℤ) - 719468 + 719468 = z := by omega
  have hera : ((z : ℤ) - (z : ℤ) / 146097 * 146097).toNat = z % 146097 := by omega
  have hyear : ((yoe : ℤ) + (z : ℤ) / 146097 * 400).toNat = yoe + z / 146097 * 400 := by omega
  unfold civil
  rw [hsum]
  dsimp only
  rw [hera, hyoe, hyear]
  have hmonth : (5 * (z % 146097 - (365 * yoe + yoe / 4 - yoe / 100)) + 2) / 153 < 12 := by omega
  generalize (5 * (z % 146097 - (365 * yoe + yoe / 4 - yoe / 100)) + 2) / 153 = mp at hmonth ⊢
  by_cases hmp : mp < 10
  · simp only [hmp, if_true]
    rw [if_neg (by omega)]
  · simp only [hmp, if_false]
    rw [if_pos (by omega)]

/-- The day of the date of a day. -/
theorem dayOf_civil {days : ℤ} (h : 0 ≤ days) (hend : days < 2932897) :
    dayOf (civil days).1 (civil days).2.1 (civil days).2.2 = days ∧ (civil days).1 < 10000 ∧ (civil days).2.1 < 100 ∧
      (civil days).2.2 < 100 := by
  obtain ⟨z, rfl⟩ : ∃ z : ℕ, days = z - 719468 := ⟨(days + 719468).toNat, by omega⟩
  obtain ⟨yoe, doy, hyoe, hdoy, hz, hcivil⟩ := civil_of_day z
  rw [hcivil]
  have hmonth : (5 * doy + 2) / 153 < 12 := by omega
  have hday : (153 * ((5 * doy + 2) / 153) + 2) / 5 ≤ doy ∧ doy - (153 * ((5 * doy + 2) / 153) + 2) / 5 < 31 := by omega
  have hlast : (5 * doy + 2) / 153 = 10 ∨ (5 * doy + 2) / 153 = 11 → 305 < doy := by omega
  unfold dayOf
  dsimp only
  generalize (5 * doy + 2) / 153 = mp at *
  obtain ⟨dom, hdom⟩ : ∃ dom, dom = doy - (153 * mp + 2) / 5 := ⟨_, rfl⟩
  rw [← hdom]
  obtain ⟨era, hera⟩ : ∃ era, era = z / 146097 := ⟨_, rfl⟩
  rw [← hera]
  have hdiv : ((yoe : ℤ) + era * 400) / 400 = era := by omega
  have hrest : (yoe : ℤ) + era * 400 - era * 400 = yoe := by omega
  by_cases hmp : mp < 10
  · simp only [hmp, if_true]
    have hlate : ¬ ((mp + 3 : ℕ) : ℤ) ≤ 2 := by omega
    have hyear : ((yoe + era * 400 + 0 : ℕ) : ℤ) = yoe + era * 400 := by omega
    rw [if_neg hlate, if_neg hlate, hyear, hdiv, hrest]
    refine ⟨?_, by omega, by omega, by omega⟩
    omega
  · simp only [hmp, if_false]
    have hearly : ((mp - 9 : ℕ) : ℤ) ≤ 2 := by omega
    have hyear : ((yoe + era * 400 + 1 : ℕ) : ℤ) - 1 = yoe + era * 400 := by omega
    rw [if_pos hearly, if_pos hearly, hyear, hdiv, hrest]
    refine ⟨?_, by omega, by omega, by omega⟩
    omega

/-! ### Texts -/

theorem digitsValue_padded (width n : ℕ) : digitsValue (padded width n).toList = n := by
  unfold padded
  rw [String.toList_ofList]
  exact Text.ofDigitChars_padded ..

theorem length_padded {width n : ℕ} (hwidth : 0 < width) (h : n < 10 ^ width) : (padded width n).toList.length = width := by
  have hle : (Nat.toDigits 10 n).length ≤ width := (Nat.length_toDigits_le_iff (by decide) hwidth).mpr h
  unfold padded
  rw [String.toList_ofList, List.length_append, List.length_replicate]
  omega

/-- Two digits. -/
theorem padded_two {n : ℕ} (h : n < 100) :
    ∃ a b, (padded 2 n).toList = [a, b] ∧ ([a, b].all Char.isDigit) = true ∧ digitsValue [a, b] = n := by
  obtain ⟨a, b, hlist⟩ := List.length_eq_two.mp (length_padded (by decide) h)
  refine ⟨a, b, hlist, List.all_eq_true.mpr ?_, ?_⟩
  · rw [← hlist]
    exact padded_made 2 n
  · rw [← hlist]
    exact digitsValue_padded 2 n

/-- Four digits. -/
theorem padded_four {n : ℕ} (h : n < 10000) : ∃ a b c d, (padded 4 n).toList = [a, b, c, d] ∧
    ([a, b, c, d].all Char.isDigit) = true ∧ digitsValue [a, b, c, d] = n := by
  have hlength : (padded 4 n).toList.length = 4 := length_padded (by decide) h
  obtain ⟨a, rest, hrest⟩ := List.exists_cons_of_length_eq_add_one hlength
  rw [hrest, List.length_cons, Nat.add_right_cancel_iff] at hlength
  obtain ⟨b, c, d, rfl⟩ := List.length_eq_three.mp hlength
  refine ⟨a, b, c, d, hrest, List.all_eq_true.mpr ?_, ?_⟩
  · rw [← hrest]
    exact padded_made 4 n
  · rw [← hrest]
    exact digitsValue_padded 4 n

/-- The microseconds of the day, of a whole second. -/
theorem microsOfDay_of_whole {t : ℤ} (h : t % 1000000 = 0) :
    microsOfDay t < 86400000000 ∧ microsOfDay t % 1000000 = 0 := by
  unfold microsOfDay
  omega

/-- The day, the hour, the minute and the second of a time. -/
theorem seconds_of_day {t day : ℤ} {micros : ℕ} (h : t = day * 86400000000 + micros) (hwhole : micros % 1000000 = 0) :
    (day * 86400 + (micros / 1000000 / 3600 : ℕ) * 3600 + (micros / 1000000 / 60 % 60 : ℕ) * 60 +
      (micros / 1000000 % 60 : ℕ)) * 1000000 = t := by
  omega

/-- **Times are read back.** -/
theorem parseIso_isoformat {t : Instant} (h : 0 ≤ t) (hend : t < datetimeEnd) (hwhole : t % 1000000 = 0) :
    parseIso (isoformat t) = some (.aware t) := by
  have hdays : 0 ≤ t / 86400000000 ∧ t / 86400000000 < 2932897 := by
    unfold datetimeEnd seconds at hend
    constructor
    · exact Int.ediv_nonneg h (by decide)
    · exact Int.ediv_lt_of_lt_mul (by decide) (lt_of_lt_of_eq hend (by decide))
  obtain ⟨hday, hy, hm, hd⟩ := dayOf_civil hdays.1 hdays.2
  obtain ⟨hmicros, hfraction⟩ := microsOfDay_of_whole hwhole
  obtain ⟨y₁, y₂, y₃, y₄, hyear, hyear', hyear''⟩ := padded_four hy
  obtain ⟨m₁, m₂, hmonth, hmonth', hmonth''⟩ := padded_two hm
  obtain ⟨d₁, d₂, hdom, hdom', hdom''⟩ := padded_two hd
  obtain ⟨h₁, h₂, hhour, hhour', hhour''⟩ := padded_two (n := microsOfDay t / 1000000 / 3600) (by omega)
  obtain ⟨n₁, n₂, hminute, hminute', hminute''⟩ := padded_two (n := microsOfDay t / 1000000 / 60 % 60) (by omega)
  obtain ⟨s₁, s₂, hsecond, hsecond', hsecond''⟩ := padded_two (n := microsOfDay t / 1000000 % 60) (by omega)
  have hlist : (isoformat t).toList = [y₁, y₂, y₃, y₄, '-', m₁, m₂, '-', d₁, d₂, 'T', h₁, h₂, ':', n₁, n₂, ':', s₁, s₂,
      '+', '0', '0', ':', '0', '0'] := by
    rw [isoformat_eq]
    simp only [Text.render, isoFields, isoSeconds, hfraction, if_true, String.toList_append, hyear, hmonth, hdom, hhour,
      hminute, hsecond]
    rfl
  unfold parseIso
  rw [hlist]
  have hall : [y₁, y₂, y₃, y₄, m₁, m₂, d₁, d₂, h₁, h₂, n₁, n₂, s₁, s₂].all Char.isDigit = true := by
    show ([y₁, y₂, y₃, y₄] ++ ([m₁, m₂] ++ ([d₁, d₂] ++ ([h₁, h₂] ++ ([n₁, n₂] ++ [s₁, s₂]))))).all Char.isDigit = true
    rw [List.all_append, List.all_append, List.all_append, List.all_append, List.all_append, hyear', hmonth', hdom',
      hhour', hminute', hsecond']
    rfl
  refine (if_pos hall).trans ?_
  rw [hyear'', hmonth'', hdom'', hhour'', hminute'', hsecond'', hday]
  exact congrArg (fun t => some (DateTime.aware t)) (seconds_of_day (day_add_micros t) hfraction)

/-! ### The runtime on plain payloads -/

/-- A time has no mark of the UTC zone to replace. -/
theorem replace_isoformat (t : Instant) : Reader.plain.replace (isoformat t) "Z" "+00:00" = isoformat t := by
  have hkeep : (isoformat t).toList.flatMap (fun c => if "Z".toList = [c] then "+00:00".toList else [c]) =
      (isoformat t).toList.flatMap fun c => [c] := by
    apply List.flatMap_congr
    intro c hc
    rw [if_neg]
    intro hz
    have hmark := isoformat_chars t c hc
    obtain rfl : 'Z' = c := List.singleton_injective hz
    exact absurd hmark (by decide)
  show String.ofList ((isoformat t).toList.flatMap _) = _
  rw [hkeep, List.flatMap_singleton', String.ofList_toList]

theorem toList_toString (n : ℕ) : (toString n).toList = Nat.toDigits 10 n := by
  rw [Nat.toString_eq_repr, Nat.toList_repr]

theorem parseDecimal_digits (n : ℕ) : parseDecimal (toString n) = some (n : ℚ) := by
  have hdigits : ∀ c ∈ Nat.toDigits 10 n, c.isDigit = true := fun c hc =>
    Nat.isDigit_of_mem_toDigits (by decide) (by decide) hc
  have hvalue : digitsValue (Nat.toDigits 10 n) = n := Nat.ofDigitChars_ten_toDigits
  unfold parseDecimal
  rw [toList_toString]
  cases hlist : Nat.toDigits 10 n with
  | nil => exact absurd (congrArg List.length hlist) Nat.length_toDigits_pos.ne'
  | cons first rest =>
    rw [hlist] at hdigits hvalue
    have htake : (first :: rest).takeWhile Char.isDigit = first :: rest := List.takeWhile_eq_self_iff.mpr hdigits
    have hdrop : (first :: rest).dropWhile Char.isDigit = [] := List.dropWhile_eq_nil_iff.mpr hdigits
    have hminus : first ≠ '-' := by
      rintro rfl
      exact absurd (hdigits '-' (List.mem_cons_self ..)) (by decide)
    split
    rename_i sign digits hmatch
    split at hmatch
    · rename_i hcons
      exact absurd (List.cons.inj hcons).1 hminus
    · cases hmatch
      rw [htake, hdrop]
      simp [hvalue]

theorem isdigit_digits (n : ℕ) : Reader.plain.isdigit (toString n) = true := by
  have hdigits := Text.made_toString n
  have hne : toString n ≠ "" := by
    intro h
    have hlist := congrArg String.toList h
    rw [toList_toString] at hlist
    exact absurd (congrArg List.length hlist) Nat.length_toDigits_pos.ne'
  show (decide (toString n ≠ "") && (toString n).toList.all Char.isDigit) = true
  rw [decide_eq_true hne, List.all_eq_true.mpr hdigits]
  rfl

theorem isdigit_of_mem {text : String} (h : '-' ∈ text.toList) : Reader.plain.isdigit text = false := by
  have hall : text.toList.all Char.isDigit = false := List.all_eq_false.mpr ⟨'-', h, by decide⟩
  show (decide (text ≠ "") && text.toList.all Char.isDigit) = false
  rw [hall, Bool.and_false]

theorem dash_mem_isoformat (t : Instant) : '-' ∈ (isoformat t).toList := by
  rw [isoformat_eq]
  simp [Text.render, isoFields, String.toList_append]

theorem fromisoformat_isoformat {t : Instant} (h : 0 ≤ t) (hend : t < datetimeEnd) (hwhole : t % 1000000 = 0) :
    Reader.plain.fromisoformat (Reader.plain.replace (isoformat t) "Z" "+00:00") = some (.aware t) := by
  rw [replace_isoformat]
  have hparse : Reader.plain.fromisoformat = parseIso := rfl
  rw [hparse]
  exact parseIso_isoformat h hend hwhole

theorem fromtimestamp_seconds (n : ℕ) : Reader.plain.fromtimestamp n = .ok (seconds n) := by
  have hcast : (n : ℚ) * 1000000 = ((seconds n : ℤ) : ℚ) := by
    unfold seconds
    push_cast
    rfl
  have hfloor : ((n : ℚ) * 1000000).floor = seconds n := by
    rw [hcast, Rat.floor_intCast]
  exact congrArg Except.ok hfloor

theorem lower_of_lower {text : String} (h : ∀ c ∈ text.toList, c.isDigit ∨ c.isLower) :
    Reader.plain.lower text = text := by
  have hlower : ∀ c ∈ text.toList, c.toLower = id c := by
    intro c hc
    have hnot : ¬ (c.val ≥ 'A'.val ∧ c.val ≤ 'Z'.val) := by
      rintro ⟨hge, hle⟩
      rw [ge_iff_le, UInt32.le_iff_toNat_le] at hge
      rw [UInt32.le_iff_toNat_le] at hle
      have hcase := h c hc
      simp only [Char.isDigit, Char.isLower, Bool.and_eq_true, decide_eq_true_eq, ge_iff_le,
        UInt32.le_iff_toNat_le] at hcase
      simp only [Char.reduceVal, UInt32.reduceToNat] at *
      omega
    exact dif_neg hnot
  have hkeep : text.toList.map Char.toLower = text.toList := (List.map_congr_left hlower).trans (List.map_id _)
  show String.ofList (text.toList.map Char.toLower) = text
  rw [hkeep, String.ofList_toList]

/-- **Plain payloads are read as the runtime documents it.** -/
theorem documented_plain : Reader.plain.Documented :=
  ⟨parseDecimal_digits, isdigit_digits, fun text => isdigit_of_mem (by simp), fun t => isdigit_of_mem (dash_mem_isoformat t),
    fun _ => fromisoformat_isoformat, fun n _ => fromtimestamp_seconds n, fun _ => lower_of_lower⟩

end NanoDelta
