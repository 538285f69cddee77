import Mathlib.Data.List.Basic
import Mathlib.Order.Defs.LinearOrder
import Mathlib.Tactic.Linarith
import Mathlib.Tactic.Ring

/-!
# Intervals one after another

`Tiles` says that half-open intervals follow each other from one end to another: there is no gap between them, they do
not overlap, and none is empty.

* `Tiles.count`: everything between the ends is in exactly one of them.
* `length_le_of_spaced`: how many numbers, some distance apart, are in an interval.
-/

namespace NanoDelta.Library

universe u

section Tiles

variable {α : Type u} [LinearOrder α]

/-- The intervals go from `start` to `stop`, one after another, and none is empty. -/
def Tiles (stop : α) : α → List (α × α) → Prop
  | start, [] => start = stop
  | start, w :: ws => w.1 = start ∧ w.1 < w.2 ∧ Tiles stop w.2 ws

theorem Tiles.le {start stop : α} {ws : List (α × α)} (h : Tiles stop start ws) : start ≤ stop := by
  induction ws generalizing start with
  | nil => exact Eq.le h
  | cons w ws ih =>
    obtain ⟨rfl, hlt, hrest⟩ := h
    exact hlt.le.trans (ih hrest)

theorem Tiles.lt_of_mem {start stop : α} {ws : List (α × α)} (h : Tiles stop start ws) : ∀ w ∈ ws, w.1 < w.2 := by
  induction ws generalizing start with
  | nil => exact fun _ hw => (nomatch hw)
  | cons w ws ih =>
    obtain ⟨rfl, hlt, hrest⟩ := h
    exact List.forall_mem_cons.mpr ⟨hlt, ih hrest⟩

/-- What is between the ends is in one interval, and nothing else is in any. -/
theorem Tiles.count {start stop : α} {ws : List (α × α)} (h : Tiles stop start ws) (t : α) :
    (ws.filter fun w => w.1 ≤ t ∧ t < w.2).length = if start ≤ t ∧ t < stop then 1 else 0 := by
  induction ws generalizing start with
  | nil =>
    obtain rfl : start = stop := h
    rw [if_neg fun ⟨hle, hlt⟩ => hlt.not_ge hle]
    rfl
  | cons w ws ih =>
    obtain ⟨rfl, hlt, hrest⟩ := h
    have hle := hrest.le
    rw [List.filter_cons]
    by_cases hin : w.1 ≤ t ∧ t < w.2
    · rw [if_pos (decide_eq_true hin), List.length_cons, ih hrest, if_neg fun h => hin.2.not_ge h.1,
        if_pos ⟨hin.1, hin.2.trans_le hle⟩]
    · rw [if_neg (by simpa using hin), ih hrest]
      congr 1
      apply propext
      constructor
      · rintro ⟨hge, hbefore⟩
        exact ⟨hlt.le.trans hge, hbefore⟩
      · rintro ⟨hge, hbefore⟩
        refine ⟨?_, hbefore⟩
        by_contra hnot
        exact hin ⟨hge, not_le.mp hnot⟩

end Tiles

/-- In an interval, numbers that are some distance apart are as many as fit in it. -/
theorem length_le_of_spaced {step n start : ℤ} (hstep : 0 < step) (hn : 0 ≤ n) {ts : List ℤ}
    (hspaced : ts.Pairwise fun a b => a + step ≤ b) (hin : ∀ t ∈ ts, start ≤ t ∧ t < start + step * n) :
    (ts.length : ℤ) ≤ n := by
  induction ts generalizing start n with
  | nil => exact hn
  | cons t ts ih =>
    obtain ⟨hfirst, hspaced⟩ := List.pairwise_cons.mp hspaced
    obtain ⟨⟨hge, hlt⟩, hin⟩ := List.forall_mem_cons.mp hin
    have hpos : 0 < n := by
      by_contra hnot
      have hmul : step * n ≤ 0 := mul_nonpos_of_nonneg_of_nonpos hstep.le (not_lt.mp hnot)
      linarith
    have hrest : (ts.length : ℤ) ≤ n - 1 := by
      refine @ih (n - 1) (start + step) (by omega) hspaced ?_
      intro t' ht'
      have hafter := hfirst t' ht'
      have hend : start + step + step * (n - 1) = start + step * n := by ring
      rw [hend]
      exact ⟨by linarith, (hin t' ht').2⟩
    rw [List.length_cons]
    push_cast
    linarith

end NanoDelta.Library
