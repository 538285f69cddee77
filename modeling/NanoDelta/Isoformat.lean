import Mathlib.Tactic.Linarith
import Mathlib.Tactic.Ring
import NanoDelta.Contracts
import NanoDelta.Library.Fields

/-!
# Times as texts

`isoformat` tells the times of a `datetime` apart: the day from its Gregorian date, and the date and the time of day from
the digits between the marks.
-/

namespace NanoDelta

open Library

/-- `datetime.min`: there is no `datetime` before it. -/
def datetimeMin : Instant := -62135596800000000

/-! ### Dates -/

/-- The year of the era of a day: the year is within the era and the day is within the year. -/
theorem year_of_day {doe yoe : ℕ} (hdoe : doe < 146097)
    (hyoe : (doe - doe / 1460 + doe / 36524 - doe / 146096) / 365 = yoe) :
    yoe < 400 ∧ 365 * yoe + yoe / 4 - yoe / 100 ≤ doe ∧ doe - (365 * yoe + yoe / 4 - yoe / 100) ≤ 365 := by
  rcases Nat.lt_or_ge doe 146096 with hlt | hge
  · -- The century, the four years in it and the day in these.
    obtain ⟨century, quad, day, rfl, hcentury, hquad, hday⟩ : ∃ century quad day,
        doe = 36524 * century + 1461 * quad + day ∧ century < 4 ∧ 1461 * quad + day < 36524 ∧ day < 1461 :=
      ⟨doe / 36524, doe % 36524 / 1461, doe % 36524 % 1461, by omega, by omega, by omega, by omega⟩
    obtain ⟨leap, hleap⟩ : ∃ leap, leap = (24 * century + quad + day) / 1460 := ⟨_, rfl⟩
    have h₁ : (36524 * century + 1461 * quad + day) / 1460 = 25 * century + quad + leap := by omega
    have h₂ : (36524 * century + 1461 * quad + day) / 36524 = century := by omega
    have h₃ : (36524 * century + 1461 * quad + day) / 146096 = 0 := by omega
    rw [h₁, h₂, h₃] at hyoe
    obtain ⟨year, hyear⟩ : ∃ year, year = (day - leap) / 365 := ⟨_, rfl⟩
    have hle : leap ≤ 1 ∧ leap ≤ day := by omega
    have hyear₃ : year ≤ 3 := by omega
    obtain rfl : yoe = 100 * century + 4 * quad + year := by omega
    have h₄ : (100 * century + 4 * quad + year) / 4 = 25 * century + quad := by omega
    have h₅ : (100 * century + 4 * quad + year) / 100 = century := by omega
    rw [h₄, h₅]
    omega
  · obtain rfl : doe = 146096 := by omega
    subst hyoe
    decide

/-- The day of a year that begins in March is told by its month and the day of the month. -/
theorem day_of_month {doy doy' : ℕ} (hmp : (5 * doy + 2) / 153 = (5 * doy' + 2) / 153)
    (hday : doy - (153 * ((5 * doy + 2) / 153) + 2) / 5 = doy' - (153 * ((5 * doy' + 2) / 153) + 2) / 5) :
    doy = doy' := by
  omega

/-- **Days have different dates**, from the first era on. -/
theorem civil_inj {days days' : ℤ} (hdays : -719468 ≤ days) (hdays' : -719468 ≤ days') (h : civil days = civil days') :
    days = days' := by
  unfold civil at h
  dsimp only at h
  obtain ⟨z, hz⟩ : ∃ z : ℕ, days + 719468 = z := ⟨(days + 719468).toNat, by omega⟩
  obtain ⟨z', hz'⟩ : ∃ z : ℕ, days' + 719468 = z := ⟨(days' + 719468).toNat, by omega⟩
  rw [hz, hz'] at h
  have hera : ∀ z : ℕ, ((z : ℤ) - (z : ℤ) / 146097 * 146097).toNat = z % 146097 := by
    intro z
    omega
  rw [hera, hera] at h
  have hyear : ∀ (z yoe : ℕ), ((yoe : ℤ) + (z : ℤ) / 146097 * 400).toNat = yoe + z / 146097 * 400 := by
    intro z yoe
    omega
  rw [hyear, hyear] at h
  generalize hyoe : (z % 146097 - z % 146097 / 1460 + z % 146097 / 36524 - z % 146097 / 146096) / 365 = yoe at h
  generalize hyoe' : (z' % 146097 - z' % 146097 / 1460 + z' % 146097 / 36524 - z' % 146097 / 146096) / 365 = yoe' at h
  obtain ⟨hlt, hle, hdoy⟩ := year_of_day (Nat.mod_lt z (by decide)) hyoe
  obtain ⟨hlt', hle', hdoy'⟩ := year_of_day (Nat.mod_lt z' (by decide)) hyoe'
  generalize hd : z % 146097 - (365 * yoe + yoe / 4 - yoe / 100) = doy at h hdoy
  generalize hd' : z' % 146097 - (365 * yoe' + yoe' / 4 - yoe' / 100) = doy' at h hdoy'
  obtain ⟨hy, hm, hday⟩ := Prod.ext_iff.mp h |>.imp_right Prod.ext_iff.mp
  dsimp only at hy hm hday
  have hmp : (5 * doy + 2) / 153 = (5 * doy' + 2) / 153 := by
    have h₁ : (5 * doy + 2) / 153 < 12 := by omega
    have h₂ : (5 * doy' + 2) / 153 < 12 := by omega
    generalize (5 * doy + 2) / 153 = mp at hm h₁ ⊢
    generalize (5 * doy' + 2) / 153 = mp' at hm h₂ ⊢
    split_ifs at hm <;> omega
  obtain rfl := day_of_month hmp (Nat.succ.inj hday)
  have hera : yoe + z / 146097 * 400 = yoe' + z' / 146097 * 400 := by
    split_ifs at hy <;> omega
  obtain rfl : yoe = yoe' := by omega
  omega

/-! ### Texts -/

theorem padded_made (width n : ℕ) : Text.Made Char.isDigit (padded width n) := by
  intro c hc
  unfold padded at hc
  rw [String.toList_ofList] at hc
  exact Text.isDigit_padded hc

theorem padded_inj {width n n' : ℕ} (h : padded width n = padded width n') : n = n' := by
  unfold padded at h
  have hlist := String.ofList_injective h
  rw [← Text.ofDigitChars_padded (width - (Nat.toDigits 10 n).length) n, hlist, Text.ofDigitChars_padded]

/-- The characters of a time are digits and marks. -/
theorem isoformat_chars (t : Instant) :
    Text.Made (fun c => c.isDigit || ['-', 'T', ':', '.', '+'].contains c) (isoformat t) := by
  have hdigits : ∀ width n, Text.Made (fun c => c.isDigit || ['-', 'T', ':', '.', '+'].contains c) (padded width n) :=
    fun width n => (padded_made width n).mono fun c hc => by rw [hc]; rfl
  have hfraction : ∀ n, Text.Made (fun c => c.isDigit || ['-', 'T', ':', '.', '+'].contains c)
      (if n = 0 then "" else "." ++ padded 6 n) := by
    intro n
    split_ifs
    · decide
    · exact Text.Made.append (by decide) (hdigits 6 n)
  unfold isoformat
  dsimp only
  refine ((((((((((((hdigits _ _).append ?_).append (hdigits _ _)).append ?_).append (hdigits _ _)).append ?_).append
    (hdigits _ _)).append ?_).append (hdigits _ _)).append ?_).append (hdigits _ _)).append (hfraction _)).append ?_ <;>
    decide

/-- None of them is a bar. -/
theorem isoformat_made (t : Instant) : Text.Made (· ≠ '|') (isoformat t) := by
  refine (isoformat_chars t).mono fun c hc => decide_eq_true ?_
  rintro rfl
  exact absurd hc (by decide)

/-- The fraction of a second and the offset tell the microseconds. -/
theorem fraction_inj {n n' : ℕ}
    (h : (if n = 0 then "" else "." ++ padded 6 n) ++ "+00:00" = (if n' = 0 then "" else "." ++ padded 6 n') ++ "+00:00") :
    n = n' := by
  have hfraction := (String.append_left_inj _).mp h
  split_ifs at hfraction with hn hn' hn'
  · exact hn.trans hn'.symm
  · exact absurd (congrArg String.toList hfraction) (by simp)
  · exact absurd (congrArg String.toList hfraction) (by simp)
  · exact padded_inj ((String.append_right_inj _).mp hfraction)

/-- The microseconds of the day. -/
def microsOfDay (t : Instant) : ℕ := (t - t / 86400000000 * 86400000000).toNat

/-- The date, the hour and the minute. -/
def isoFields (t : Instant) : List String :=
  [padded 4 (civil (t / 86400000000)).1, padded 2 (civil (t / 86400000000)).2.1, padded 2 (civil (t / 86400000000)).2.2,
    padded 2 (microsOfDay t / 1000000 / 3600), padded 2 (microsOfDay t / 1000000 / 60 % 60)]

theorem length_isoFields (t : Instant) : (isoFields t).length = ["-", "-", "T", ":", ":"].length := by
  simp only [isoFields, List.length_cons, List.length_nil]

/-- The seconds and what follows them. -/
def isoSeconds (t : Instant) : String :=
  padded 2 (microsOfDay t / 1000000 % 60) ++
    ((if microsOfDay t % 1000000 = 0 then "" else "." ++ padded 6 (microsOfDay t % 1000000)) ++ "+00:00")

theorem isoformat_eq (t : Instant) :
    isoformat t = Text.render ["-", "-", "T", ":", ":"] (isoFields t) (isoSeconds t) := by
  simp only [isoformat, isoFields, isoSeconds, microsOfDay, Text.render, String.append_assoc]
  rfl

theorem isoFields_made (t : Instant) : ∀ field ∈ isoFields t, Text.Made Char.isDigit field := by
  intro field hfield
  simp only [isoFields, List.mem_cons, List.not_mem_nil, or_false] at hfield
  rcases hfield with rfl | rfl | rfl | rfl | rfl <;> exact padded_made _ _

theorem follows_fraction (n : ℕ) :
    Text.Follows Char.isDigit ((if n = 0 then "" else "." ++ padded 6 n) ++ "+00:00") := by
  split_ifs
  · decide
  · rw [String.append_assoc]
    exact Text.Follows.append (by decide) (by decide) _

/-- The time of day is told by its digits. -/
theorem microsOfDay_inj {m m' : ℕ} (hhour : m / 1000000 / 3600 = m' / 1000000 / 3600)
    (hminute : m / 1000000 / 60 % 60 = m' / 1000000 / 60 % 60) (hsecond : m / 1000000 % 60 = m' / 1000000 % 60)
    (hmicros : m % 1000000 = m' % 1000000) : m = m' := by
  omega

/-- A time is its day and the microseconds of the day. -/
theorem day_add_micros (t : Instant) : t = t / 86400000000 * 86400000000 + microsOfDay t := by
  have hmod := Int.emod_nonneg t (show (86400000000 : ℤ) ≠ 0 by decide)
  have hnonneg : 0 ≤ t - t / 86400000000 * 86400000000 := by linarith [Int.ediv_mul_add_emod t 86400000000]
  unfold microsOfDay
  rw [Int.toNat_of_nonneg hnonneg]
  ring

theorem day_ge {t : Instant} (ht : datetimeMin ≤ t) : -719468 ≤ t / 86400000000 := by
  refine (Int.le_ediv_iff_mul_le (by decide)).mpr (le_trans ?_ ht)
  decide

/-- **Times have different texts.** -/
theorem isoformat_inj {t t' : Instant} (ht : datetimeMin ≤ t) (ht' : datetimeMin ≤ t') (h : isoformat t = isoformat t') :
    t = t' := by
  rw [isoformat_eq, isoformat_eq] at h
  obtain ⟨hfields, hrest⟩ := Text.render_inj (by decide) (length_isoFields t) (length_isoFields t') (isoFields_made t)
    (isoFields_made t') h
  obtain ⟨hsecond, hfraction⟩ := Text.Made.append_inj (padded_made _ _) (padded_made _ _) (follows_fraction _)
    (follows_fraction _) hrest
  simp only [isoFields, List.cons.injEq, and_true] at hfields
  obtain ⟨hyear, hmonth, hday, hhour, hminute⟩ := hfields
  have hdate : civil (t / 86400000000) = civil (t' / 86400000000) :=
    Prod.ext (padded_inj hyear) (Prod.ext (padded_inj hmonth) (padded_inj hday))
  have hdays := civil_inj (day_ge ht) (day_ge ht') hdate
  have hmicros := microsOfDay_inj (padded_inj hhour) (padded_inj hminute) (padded_inj hsecond) (fraction_inj hfraction)
  rw [day_add_micros t, day_add_micros t', hdays, hmicros]

end NanoDelta
