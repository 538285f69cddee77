import Mathlib.Algebra.Order.Field.Basic
import Mathlib.Order.Bounds.Basic
import Mathlib.Order.Interval.Set.Basic

/-!
# The greatest fall of a sequence

How far a sequence of values falls, in proportion, from one place to a later one. The greatest fall over all pairs of places
can be kept while the values come one by one, with the greatest value so far: the greatest fall to the new value is the one
from there.
-/

namespace NanoDelta.Library

universe u

/-- The greatest value, with one value more. -/
theorem isGreatest_image_succ {α : Type u} [LinearOrder α] {E : ℕ → α} {n : ℕ} {p : α}
    (h : IsGreatest (E '' Set.Iic n) p) :
    IsGreatest (E '' Set.Iic (n + 1)) (max p (E (n + 1))) := by
  have hset : E '' Set.Iic (n + 1) = insert (E (n + 1)) (E '' Set.Iic n) := by
    rw [← Set.image_insert_eq]
    congr 1
    ext k
    simp only [Set.mem_Iic, Set.mem_insert_iff]
    omega
  rw [hset, max_comm]
  exact h.insert _

variable {K : Type u} [Field K] [LinearOrder K]

/-- The falls of a sequence up to place `n`: from a positive value to one that does not come before it. -/
def falls (E : ℕ → K) (n : ℕ) : Set K := {d | ∃ i j, i ≤ j ∧ j ≤ n ∧ 0 < E i ∧ d = (E i - E j) / E i}

variable {E F : ℕ → K} {n : ℕ} {m p : K}

theorem falls_congr (h : ∀ k ≤ n, E k = F k) : falls E n = falls F n := by
  ext d
  constructor
  · rintro ⟨i, j, hij, hj, hpos, rfl⟩
    have hi := h i (hij.trans hj)
    exact ⟨i, j, hij, hj, hi ▸ hpos, by rw [hi, h j hj]⟩
  · rintro ⟨i, j, hij, hj, hpos, rfl⟩
    have hi := h i (hij.trans hj)
    exact ⟨i, j, hij, hj, hi.symm ▸ hpos, by rw [hi, h j hj]⟩

theorem falls_mono {k : ℕ} (h : n ≤ k) : falls E n ⊆ falls E k := by
  rintro d ⟨i, j, hij, hj, hpos, rfl⟩
  exact ⟨i, j, hij, hj.trans h, hpos, rfl⟩

/-- It falls by the whole just if it comes to zero. -/
theorem one_mem_falls_iff (hfirst : 0 < E 0) : (1 : K) ∈ falls E n ↔ ∃ j ≤ n, E j = 0 := by
  constructor
  · rintro ⟨i, j, -, hj, hpos, heq⟩
    refine ⟨j, hj, ?_⟩
    rw [eq_div_iff hpos.ne', one_mul] at heq
    exact sub_eq_self.mp heq.symm
  · rintro ⟨j, hj, hzero⟩
    refine ⟨0, j, Nat.zero_le j, hj, hfirst, ?_⟩
    rw [hzero, sub_zero, div_self hfirst.ne']

/-- Before the second value there is no fall. -/
theorem isGreatest_falls_zero (hfirst : 0 < E 0) : IsGreatest (falls E 0) 0 := by
  constructor
  · exact ⟨0, 0, le_rfl, le_rfl, hfirst, by rw [sub_self, zero_div]⟩
  · rintro d ⟨i, j, hij, hj, hpos, rfl⟩
    obtain rfl : j = 0 := Nat.le_zero.mp hj
    obtain rfl : i = 0 := Nat.le_zero.mp hij
    rw [sub_self, zero_div]

variable [IsStrictOrderedRing K]

/-- A sequence that is not negative falls by the whole at most. -/
theorem le_one_of_mem_falls (hE : ∀ k ≤ n, 0 ≤ E k) {d : K} (h : d ∈ falls E n) : d ≤ 1 := by
  obtain ⟨i, j, -, hj, hpos, rfl⟩ := h
  rw [div_le_one hpos]
  exact sub_le_self _ (hE j hj)

/-- **The greatest fall, with one value more**: it is the one so far, or the one from the greatest value to the new one. -/
theorem isGreatest_falls_succ (h : IsGreatest (falls E n) m) (hp : IsGreatest (E '' Set.Iic n) p) (hpos : 0 < p)
    (hnonneg : 0 ≤ E (n + 1)) :
    IsGreatest (falls E (n + 1)) (max m ((max p (E (n + 1)) - E (n + 1)) / max p (E (n + 1)))) := by
  have hpeak := isGreatest_image_succ hp
  have hpeakpos : 0 < max p (E (n + 1)) := hpos.trans_le (le_max_left _ _)
  constructor
  · rcases max_cases m ((max p (E (n + 1)) - E (n + 1)) / max p (E (n + 1))) with ⟨hmax, -⟩ | ⟨hmax, -⟩
    · rw [hmax]
      exact falls_mono (Nat.le_succ n) h.1
    · rw [hmax]
      obtain ⟨k, hk, hvalue⟩ := hpeak.1
      exact ⟨k, n + 1, hk, le_rfl, hvalue ▸ hpeakpos, by rw [hvalue]⟩
  · rintro d ⟨i, j, hij, hj, hi, rfl⟩
    rcases Nat.lt_or_ge n j with hlt | hle
    · -- the fall ends at the new value: it is no greater than the one from the greatest value
      obtain rfl : j = n + 1 := by omega
      apply le_max_of_le_right
      have hvalue : E i ≤ max p (E (n + 1)) := hpeak.2 ⟨i, hij, rfl⟩
      rw [sub_div, sub_div, div_self hi.ne', div_self hpeakpos.ne']
      exact sub_le_sub_left (div_le_div_of_nonneg_left hnonneg hi hvalue) 1
    · exact le_max_of_le_left (h.2 ⟨i, j, hij, hle, hi, rfl⟩)

end NanoDelta.Library
