import NanoDelta.Library.Series
import NanoDelta.Providers.Dhan

/-!
# Half hours of quarter hours

What `DhanClient._resample_30m` makes of rows for quarter hours that are on the grid of quarter hours.

* `half_hours_of_quarters`: it makes one row for each half hour, counted from 09:15 in India, of which there are both
  quarter hours.
-/

namespace NanoDelta.Providers

open Library History Markets

/-! ### Rows -/

section Quarter

variable (reader : Reader)

/-- The number that a timestamp is, or that its digits are. -/
def numberOf : Json → Option ℚ
  | .num q => some q
  | .str text => if reader.isdigit text = true then (reader.number (.str text)).toOption else none
  | _ => none

/-- A timestamp is a time: in seconds, in milliseconds, or as text with a time zone. -/
inductive Writes (stamp : Json) (t : ℤ) : Prop where
  | seconds (h : numberOf reader stamp = some (t : ℚ))
  | milliseconds (h : numberOf reader stamp = some ((1000 * t : ℤ) : ℚ))
  | iso (text : String) (hstamp : stamp = .str text) (hdigits : reader.isdigit text = false)
      (h : reader.fromisoformat (reader.replace text "Z" "+00:00") = some (.aware (NanoDelta.seconds t)))

/-- A row for a quarter hour. -/
structure Quarter where
  row : Payload
  stamp : Json
  /-- The open of the quarter hour, in seconds. -/
  opened : ℤ
  openPrice : Json
  high : ℚ
  low : ℚ
  close : Json
  volume : ℚ
  row_stamp : row.get? "timestamp" = some stamp
  row_open : row.get? "open" = some openPrice
  row_high : numberAt reader row "high" = .ok high
  row_low : numberAt reader row "low" = .ok low
  row_close : row.get? "close" = some close
  row_volume : numberAt reader row "volume" = .ok volume
  writes : Writes reader stamp opened
  on_grid : opened % 900 = 0

/-- The unit of the timestamp shows in its size: it is in seconds if it is at most ten billion. -/
def Quarter.Detected {reader : Reader} (quarter : Quarter reader) : Prop :=
  ∀ n, numberOf reader quarter.stamp = some n → (n = quarter.opened ↔ n ≤ 10000000000)

/-- The row of a half hour. -/
def halfHourRow {reader : Reader} (first last : Quarter reader) : Payload :=
  (((((((Dict.empty.set "timestamp" (.num first.opened)).set "open" first.openPrice).set "high"
    (.num (max first.high last.high))).set "low" (.num (min first.low last.low))).set "close" last.close).set "volume"
      (.num (first.volume + last.volume))).set "timeframe" (.str "30m")).set "settled" (.bool true)

/-- The quarter hours of a half hour, in their order. -/
def quartersOf {reader : Reader} (quarters : List (Quarter reader)) (bucket : ℤ) : List (Quarter reader) :=
  (quarters.filter fun quarter => bucketOf quarter.opened = bucket).insertionSort fun a b => a.opened ≤ b.opened

/-- Both quarter hours of a half hour. -/
def pairOf {reader : Reader} (quarters : List (Quarter reader)) (bucket : ℤ) : Option (Quarter reader × Quarter reader) :=
  match quartersOf quarters bucket with
  | [first, last] => some (first, last)
  | _ => none

end Quarter

variable {reader : Reader} {quarters : List (Quarter reader)}

/-! ### Times -/

theorem truncate_intCast (t : ℤ) : truncate (t : ℚ) = t := by
  unfold truncate
  simp

/-- A timestamp with a number is in seconds if it is small, and in milliseconds if it is large. -/
theorem rowSecond_of_numberOf {stamp : Json} {n : ℚ} (h : numberOf reader stamp = some n) :
    rowSecond reader stamp = .ok (if 10000000000 < truncate n then truncate n / 1000 else truncate n) := by
  unfold numberOf at h
  split at h
  · cases h
    rfl
  · rename_i text
    split_ifs at h with hdigits
    cases hread : reader.number (.str text) with
    | error e =>
      rw [hread] at h
      cases h
    | ok q =>
      rw [hread] at h
      obtain rfl := Option.some.inj h
      simp only [rowSecond, hdigits, hread, if_true]
      rfl
  · cases h

/-- The time of a row is the one that its timestamp is. -/
theorem rowSecond_of_writes {stamp : Json} {t : ℤ} (h : Writes reader stamp t)
    (hdetected : ∀ n, numberOf reader stamp = some n → (n = t ↔ n ≤ 10000000000)) : rowSecond reader stamp = .ok t := by
  -- A number, as seconds or as milliseconds.
  have hnumber : ∀ m : ℤ, numberOf reader stamp = some (m : ℚ) → m = t ∨ m = 1000 * t →
      (if 10000000000 < truncate m then truncate m / 1000 else truncate m) = t := by
    intro m hm hunit
    have hiff : m = t ↔ m ≤ 10000000000 := by exact_mod_cast hdetected m hm
    rw [truncate_intCast]
    split_ifs with hlarge
    · omega
    · omega
  cases h with
  | seconds h =>
    rw [rowSecond_of_numberOf h, hnumber t h (Or.inl rfl)]
  | milliseconds h =>
    rw [rowSecond_of_numberOf h, hnumber (1000 * t) h (Or.inr rfl)]
  | iso text hstamp hdigits h =>
    subst hstamp
    have hsecond : epochSecond (NanoDelta.seconds t) = t := Int.mul_tdiv_cancel _ (by decide)
    simp [rowSecond, hdigits, h, hsecond]

/-! ### Groups -/

/-- The rows with their times are those of the quarter hours. -/
theorem stampedRows_of_quarters (hdetected : ∀ quarter ∈ quarters, quarter.Detected) :
    stampedRows reader (quarters.map Quarter.row) = .ok (quarters.map fun quarter => (quarter.opened, quarter.row)) := by
  unfold stampedRows
  apply Effect.mapM_of_forall₂
  rw [List.forall₂_map_left_iff, List.forall₂_map_right_iff]
  apply List.forall₂_same.mpr
  intro quarter hquarter
  have hrequired : required quarter.row "timestamp" = .ok quarter.stamp := by
    unfold required
    rw [quarter.row_stamp]
  rw [hrequired]
  show (do let second ← rowSecond reader quarter.stamp; return (second, quarter.row)) = _
  rw [rowSecond_of_writes quarter.writes (hdetected quarter hquarter)]
  rfl

/-- The half hour of a quarter hour. -/
theorem bucketOf_eq_iff {opened bucket : ℤ} (hgrid : opened % 900 = 0) (hbucket : bucket % 1800 = 900) :
    bucketOf opened = bucket ↔ opened = bucket ∨ opened = bucket + 900 := by
  unfold bucketOf anchorSeconds
  omega

/-- The quarter hours of a half hour are in order. -/
theorem quartersOf_increasing (hnodup : (quarters.map Quarter.opened).Nodup) (bucket : ℤ) :
    (quartersOf quarters bucket).Pairwise fun a b => a.opened < b.opened := by
  apply pairwise_lt_insertionSort
  exact (List.pairwise_map.mp hnodup).filter _

theorem mem_quartersOf {bucket : ℤ} {quarter : Quarter reader} :
    quarter ∈ quartersOf quarters bucket ↔ quarter ∈ quarters ∧ bucketOf quarter.opened = bucket := by
  unfold quartersOf
  rw [List.mem_insertionSort, List.mem_filter, decide_eq_true_eq]

/-- A half hour has a pair exactly if there are both of its quarter hours. -/
theorem pairOf_eq_some_iff (hnodup : (quarters.map Quarter.opened).Nodup) {bucket : ℤ} (hbucket : bucket % 1800 = 900)
    {first last : Quarter reader} : pairOf quarters bucket = some (first, last) ↔
      first ∈ quarters ∧ last ∈ quarters ∧ first.opened = bucket ∧ last.opened = bucket + 900 := by
  have hincreasing := quartersOf_increasing hnodup bucket
  have hopened : ∀ quarter ∈ quartersOf quarters bucket, quarter.opened = bucket ∨ quarter.opened = bucket + 900 := by
    intro quarter hquarter
    exact (bucketOf_eq_iff quarter.on_grid hbucket).mp (mem_quartersOf.mp hquarter).2
  have hmem : ∀ quarter ∈ quarters, quarter.opened = bucket ∨ quarter.opened = bucket + 900 →
      quarter ∈ quartersOf quarters bucket := by
    intro quarter hquarter hin
    exact mem_quartersOf.mpr ⟨hquarter, (bucketOf_eq_iff quarter.on_grid hbucket).mpr hin⟩
  constructor
  · intro h
    unfold pairOf at h
    split at h
    · rename_i first' last' hpair
      obtain ⟨rfl, rfl⟩ := Prod.mk.inj (Option.some.inj h)
      rw [hpair] at hincreasing hopened
      have hlt : first'.opened < last'.opened := (List.pairwise_cons.mp hincreasing).1 last' (by simp)
      have hfirst := hopened first' (by simp)
      have hlast := hopened last' (by simp)
      have hfirst' : first' ∈ quartersOf quarters bucket := by simp [hpair]
      have hlast' : last' ∈ quartersOf quarters bucket := by simp [hpair]
      exact ⟨(mem_quartersOf.mp hfirst').1, (mem_quartersOf.mp hlast').1, by omega, by omega⟩
    · cases h
  · rintro ⟨hfirst, hlast, hfirst', hlast'⟩
    have hmem₁ := hmem first hfirst (Or.inl hfirst')
    have hmem₂ := hmem last hlast (Or.inr hlast')
    unfold pairOf
    generalize quartersOf quarters bucket = group at *
    match group with
    | [] => cases hmem₁
    | [quarter] =>
      rw [List.mem_singleton] at hmem₁ hmem₂
      subst hmem₁ hmem₂
      omega
    | [first', last'] =>
      have hlt : first'.opened < last'.opened := (List.pairwise_cons.mp hincreasing).1 last' (by simp)
      have hopened₁ := hopened first' (by simp)
      have hopened₂ := hopened last' (by simp)
      simp only [List.mem_cons, List.not_mem_nil, or_false] at hmem₁ hmem₂
      rcases hmem₁ with rfl | rfl
      · rcases hmem₂ with rfl | rfl
        · omega
        · rfl
      · omega
    | quarter :: quarter' :: quarter'' :: rest =>
      obtain ⟨hlt, hrest⟩ := List.pairwise_cons.mp hincreasing
      have hlt₁ := hlt quarter' (by simp)
      have hlt₂ := (List.pairwise_cons.mp hrest).1 quarter'' (by simp)
      have hopened₁ := hopened quarter (by simp)
      have hopened₂ := hopened quarter' (by simp)
      have hopened₃ := hopened quarter'' (by simp)
      omega

/-- The row of two quarter hours. -/
theorem halfHour_of_quarters (first last : Quarter reader) :
    halfHour reader first.opened first.row last.row = .ok (halfHourRow first last) := by
  have hopen : required first.row "open" = .ok first.openPrice := by
    unfold required
    rw [first.row_open]
  have hclose : required last.row "close" = .ok last.close := by
    unfold required
    rw [last.row_close]
  unfold halfHour
  rw [hopen, hclose, first.row_high, last.row_high, first.row_low, last.row_low, first.row_volume, last.row_volume]
  rfl

/-- What is made of the group of a half hour. -/
theorem barOf_of_quarters {bucket : ℤ} {group : List (ℤ × Payload)}
    (hgroup : group = (quarters.filter fun quarter => bucketOf quarter.opened = bucket).map fun quarter =>
      (quarter.opened, quarter.row))
    (hpair : ∀ first last, pairOf quarters bucket = some (first, last) → first.opened = bucket) :
    barOf reader (bucket, group) =
      .ok ((pairOf quarters bucket).map fun pair => halfHourRow pair.1 pair.2) := by
  have hrows : (group.insertionSort fun a b => a.1 ≤ b.1).map Prod.snd = (quartersOf quarters bucket).map Quarter.row := by
    have hsort := List.map_insertionSort (fun a b : Quarter reader => a.opened ≤ b.opened)
      (fun a b : ℤ × Payload => a.1 ≤ b.1) (fun quarter : Quarter reader => (quarter.opened, quarter.row))
      (quarters.filter fun quarter => bucketOf quarter.opened = bucket) fun _ _ _ _ => Iff.rfl
    rw [hgroup, ← hsort, List.map_map]
    rfl
  unfold barOf
  dsimp only
  rw [hrows]
  unfold pairOf at *
  cases hquarters : quartersOf quarters bucket with
  | nil => rfl
  | cons first rest =>
    cases rest with
    | nil => rfl
    | cons last rest =>
      cases rest with
      | cons other rest => rfl
      | nil =>
        rw [hquarters] at hpair
        obtain rfl := hpair first last rfl
        show some <$> halfHour reader first.opened first.row last.row = _
        rw [halfHour_of_quarters]
        rfl

/-- The pairs are the two quarter hours of anchored half hours. -/
theorem pairOf_eq_some_iff' (hnodup : (quarters.map Quarter.opened).Nodup) {bucket : ℤ} {first last : Quarter reader} :
    pairOf quarters bucket = some (first, last) ↔ first.opened = bucket ∧ first ∈ quarters ∧ last ∈ quarters ∧
      1800 ∣ first.opened - anchorSeconds ∧ last.opened = first.opened + 900 := by
  unfold anchorSeconds
  constructor
  · intro h
    have hfirst : first ∈ quartersOf quarters bucket := by
      unfold pairOf at h
      split at h
      · rename_i first' last' hpair
        obtain ⟨rfl, -⟩ := Prod.mk.inj (Option.some.inj h)
        simp [hpair]
      · cases h
    have hbucket : bucket % 1800 = 900 := by
      rw [← (mem_quartersOf.mp hfirst).2]
      unfold bucketOf anchorSeconds
      omega
    obtain ⟨hmem, hmem', hopened, hopened'⟩ := (pairOf_eq_some_iff hnodup hbucket).mp h
    exact ⟨hopened, hmem, hmem', by omega, by omega⟩
  · rintro ⟨rfl, hmem, hmem', hdvd, hopened⟩
    exact (pairOf_eq_some_iff hnodup (by omega)).mpr ⟨hmem, hmem', rfl, hopened⟩

/-- **Half hours of quarter hours.** Of rows for different quarter hours in any order, whose timestamps are in seconds, in
milliseconds or in ISO format, with a size that shows the unit, the client makes one row for each half hour from 09:15 in
India of which there are both quarter hours, in ascending order. -/
theorem half_hours_of_quarters (reader : Reader) (quarters : List (Quarter reader))
    (hnodup : (quarters.map Quarter.opened).Nodup) (hdetected : ∀ quarter ∈ quarters, quarter.Detected) :
    ∃ halves : List (Quarter reader × Quarter reader),
      resample30m reader (quarters.map Quarter.row) = .ok (halves.map fun pair => halfHourRow pair.1 pair.2) ∧
      (halves.Pairwise fun a b => a.1.opened < b.1.opened) ∧
      ∀ first last, (first, last) ∈ halves ↔ first ∈ quarters ∧ last ∈ quarters ∧
        1800 ∣ first.opened - anchorSeconds ∧ last.opened = first.opened + 900 := by
  obtain ⟨buckets, hbuckets⟩ : ∃ buckets, buckets = bucketsOf (quarters.map fun quarter => (quarter.opened, quarter.row)) :=
    ⟨_, rfl⟩
  obtain ⟨sorted, hsorted⟩ : ∃ sorted, sorted = buckets.entries.insertionSort fun a b => a.1 ≤ b.1 := ⟨_, rfl⟩
  have hgroup : ∀ bucket, (buckets.get? bucket).getD [] =
      (quarters.filter fun quarter => bucketOf quarter.opened = bucket).map fun quarter => (quarter.opened, quarter.row) := by
    intro bucket
    rw [hbuckets, get?_bucketsOf, List.filter_map]
    rfl
  have hmem : ∀ e ∈ sorted, buckets.get? e.1 = some e.2 := by
    intro e he
    rw [hsorted, List.mem_insertionSort] at he
    exact Dict.get?_eq_some_iff.mpr he
  refine ⟨sorted.filterMap fun e => pairOf quarters e.1, ?_, ?_, ?_⟩
  · have hbars : sorted.mapM (barOf reader) =
        .ok (sorted.map fun e => (pairOf quarters e.1).map fun pair => halfHourRow pair.1 pair.2) := by
      apply Effect.mapM_of_forall₂
      rw [List.forall₂_map_right_iff]
      apply List.forall₂_same.mpr
      intro e he
      apply barOf_of_quarters
      · rw [← hgroup, hmem e he, Option.getD_some]
      · exact fun first last h => ((pairOf_eq_some_iff' hnodup).mp h).1
    rw [hsorted, hbuckets] at hbars
    refine Effect.except_bind_eq_ok.mpr ⟨_, stampedRows_of_quarters hdetected, ?_⟩
    refine Effect.except_bind_eq_ok.mpr ⟨_, hbars, ?_⟩
    rw [← hbuckets, ← hsorted, List.filterMap_map, List.map_filterMap]
    rfl
  · have hincreasing : sorted.Pairwise fun a b => a.1 < b.1 := by
      rw [hsorted]
      exact pairwise_lt_insertionSort (List.pairwise_map.mp buckets.nodup)
    refine List.Pairwise.filterMap _ ?_ hincreasing
    intro e e' hlt pair hpair pair' hpair'
    rw [((pairOf_eq_some_iff' hnodup).mp hpair).1, ((pairOf_eq_some_iff' hnodup).mp hpair').1]
    exact hlt
  · intro first last
    rw [List.mem_filterMap]
    constructor
    · rintro ⟨e, -, hpair⟩
      exact ((pairOf_eq_some_iff' hnodup).mp hpair).2
    · intro h
      have hpair := (pairOf_eq_some_iff' hnodup).mpr ⟨rfl, h⟩
      have hin : first ∈ quarters.filter fun quarter => bucketOf quarter.opened = first.opened := by
        have hdvd := h.2.2.1
        have hbucket : bucketOf first.opened = first.opened := by
          unfold bucketOf anchorSeconds at *
          omega
        exact List.mem_filter.mpr ⟨h.1, decide_eq_true hbucket⟩
      have hgroup := hgroup first.opened
      cases hget : buckets.get? first.opened with
      | none =>
        rw [hget] at hgroup
        rw [List.map_eq_nil_iff.mp hgroup.symm] at hin
        cases hin
      | some group =>
        refine ⟨(first.opened, group), ?_, hpair⟩
        rw [hsorted, List.mem_insertionSort]
        exact Dict.get?_eq_some_iff.mp hget

namespace Sample

/-- A row for a quarter hour, with a timestamp. -/
def quarterHour (stamp : Json) (opened : ℤ) (writes : Writes .plain stamp opened) (on_grid : opened % 900 = 0) :
    Quarter .plain where
  row := (((((Dict.empty.set "timestamp" stamp).set "open" (.num 100)).set "high" (.num 101)).set "low" (.num 99)).set
    "close" (.num 100)).set "volume" (.num 10)
  stamp
  opened
  openPrice := .num 100
  high := 101
  low := 99
  close := .num 100
  volume := 10
  row_stamp := by simp [Dict.get?_set]
  row_open := by simp [Dict.get?_set]
  row_high := by simp [numberAt, required, Dict.get?_set, Reader.number]; rfl
  row_low := by simp [numberAt, required, Dict.get?_set, Reader.number]; rfl
  row_close := by simp [Dict.get?_set]
  row_volume := by simp [numberAt, required, Reader.number]; rfl
  writes
  on_grid

/-- 03:45 of 2026-08-14 in UTC, in seconds. -/
def first : Quarter .plain := quarterHour (.num 1786679100) 1786679100 (.seconds rfl) (by decide)

/-- 04:00, in milliseconds. -/
def second : Quarter .plain := quarterHour (.num 1786680000000) 1786680000 (.milliseconds rfl) (by decide)

/-- 04:15, as text. -/
def third : Quarter .plain := quarterHour (.str "2026-08-14T04:15:00Z") 1786680900
  (.iso "2026-08-14T04:15:00Z" rfl (by decide +kernel) (by decide +kernel)) (by decide)

/-- 03:45 of 1970-01-01 and the quarter hour after it, in milliseconds. -/
def epoch : List (Quarter .plain) :=
  [quarterHour (.num 13500000) 13500 (.milliseconds rfl) (by decide),
    quarterHour (.num 14400000) 14400 (.milliseconds rfl) (by decide)]

end Sample

/-- The half hour of 03:45, from two of three rows. -/
theorem half_hour_from_first : ∃ halves : List (Quarter .plain × Quarter .plain),
    resample30m .plain ([Sample.third, Sample.second, Sample.first].map Quarter.row) =
      .ok (halves.map fun pair => halfHourRow pair.1 pair.2) ∧
    (Sample.first, Sample.second) ∈ halves := by
  have hdetected : ∀ quarter ∈ [Sample.third, Sample.second, Sample.first], quarter.Detected := by
    simp only [List.forall_mem_cons]
    refine ⟨?_, ?_, ?_, fun _ h => (nomatch h)⟩
    · intro n hn
      have hnone : numberOf .plain Sample.third.stamp = none := by decide +kernel
      rw [hnone] at hn
      cases hn
    · intro n hn
      obtain rfl := Option.some.inj hn
      decide +kernel
    · intro n hn
      obtain rfl := Option.some.inj hn
      decide +kernel
  obtain ⟨halves, hrows, -, hmem⟩ :=
    half_hours_of_quarters .plain [Sample.third, Sample.second, Sample.first] (by decide +kernel) hdetected
  exact ⟨halves, hrows, (hmem _ _).mpr ⟨by simp, by simp, by decide, rfl⟩⟩

/-- Milliseconds of the first days of 1970 are few enough to be read as seconds: there is no half hour then. -/
theorem early_milliseconds : ¬ ∀ (reader : Reader) (quarters : List (Quarter reader)),
    (quarters.map Quarter.opened).Nodup → ∃ halves : List (Quarter reader × Quarter reader),
      resample30m reader (quarters.map Quarter.row) = .ok (halves.map fun pair => halfHourRow pair.1 pair.2) ∧
      (halves.Pairwise fun a b => a.1.opened < b.1.opened) ∧
      ∀ first last, (first, last) ∈ halves ↔ first ∈ quarters ∧ last ∈ quarters ∧
        1800 ∣ first.opened - anchorSeconds ∧ last.opened = first.opened + 900 := by
  intro h
  obtain ⟨halves, hrows, -, hmem⟩ := h .plain Sample.epoch (by decide)
  have hnone : (resample30m .plain (Sample.epoch.map Quarter.row)).toOption.map List.length = some 0 := by decide +kernel
  rw [hrows] at hnone
  have hhalves : halves = [] := by simpa [Except.toOption] using hnone
  rw [hhalves] at hmem
  have hpair := (hmem (Sample.epoch.get ⟨0, by decide⟩) (Sample.epoch.get ⟨1, by decide⟩)).mpr
    ⟨List.get_mem .., List.get_mem .., by decide, rfl⟩
  cases hpair

end NanoDelta.Providers
