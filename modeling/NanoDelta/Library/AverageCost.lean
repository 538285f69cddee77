import Mathlib.Algebra.Order.Field.Basic
import Mathlib.Tactic.FieldSimp
import Mathlib.Tactic.Linarith
import Mathlib.Tactic.Ring

/-!
# Average-cost accounting

A book holds a signed quantity at an average price and the profit realised so
far. A fill of signed quantity `δ` at price `p` adds to the holding, reduces it,
closes it or turns it round; the average price moves when the holding grows, and
profit is realised on what is closed. The books are over any ordered field.

The law of such books is `fill_cash`: `realized - quantity * average` falls by the
cash `δ * p` that the fill costs, in every one of the five cases. Hence after any
sequence of fills the realised profit is what was received less what was paid,
with the holding valued at its average price.
-/

namespace NanoDelta.Library

universe u

variable {K : Type u} [Field K] [LinearOrder K] [IsStrictOrderedRing K]

/-- A holding and its profit. -/
@[ext]
structure Book (K : Type u) where
  /-- The signed quantity held. -/
  quantity : K
  /-- The average price of the holding. -/
  average : K
  /-- The profit realised so far. -/
  realized : K

namespace Book

/-- The book of a first fill. -/
def opening (δ p : K) : Book K := ⟨δ, p, 0⟩

/-- The quantity a fill closes. -/
def closing (q δ : K) : K := min |q| |δ|

/-- The direction of a holding. -/
def direction (q : K) : K := if 0 < q then 1 else -1

/-- A fill of an open book. -/
def fill (b : Book K) (δ p : K) : Book K :=
  if 0 < b.quantity * δ then
    ⟨b.quantity + δ, (|b.quantity| * b.average + |δ| * p) / |b.quantity + δ|, b.realized⟩
  else
    ⟨b.quantity + δ,
      if b.quantity + δ = 0 then 0 else if b.quantity * (b.quantity + δ) < 0 then p else b.average,
      b.realized + closing b.quantity δ * (p - b.average) * direction b.quantity⟩

omit [IsStrictOrderedRing K] in
@[simp] theorem fill_quantity (b : Book K) (δ p : K) : (b.fill δ p).quantity = b.quantity + δ := by
  unfold fill
  split <;> rfl

/-- Two quantities of opposite signs. -/
theorem opposite_of_not_mul_pos {q δ : K} (hq : q ≠ 0) (hδ : δ ≠ 0) (h : ¬ 0 < q * δ) :
    (0 < q ∧ δ < 0) ∨ (q < 0 ∧ 0 < δ) := by
  have hlt : q * δ < 0 := lt_of_le_of_ne (not_lt.mp h) (mul_ne_zero hq hδ)
  exact mul_neg_iff.mp hlt

/-- Adding to a holding keeps its cost: the new average times the new quantity is the sum of
the two costs. -/
theorem add_cost {q δ : K} (a p : K) (h : 0 < q * δ) :
    (q + δ) * ((|q| * a + |δ| * p) / |q + δ|) = q * a + δ * p := by
  rcases pos_and_pos_or_neg_and_neg_of_mul_pos h with ⟨hq, hδ⟩ | ⟨hq, hδ⟩
  · have hn : 0 < q + δ := add_pos hq hδ
    rw [abs_of_pos hq, abs_of_pos hδ, abs_of_pos hn]
    field_simp
  · have hn : q + δ < 0 := add_neg hq hδ
    have hne : q + δ ≠ 0 := hn.ne
    rw [abs_of_neg hq, abs_of_neg hδ, abs_of_neg hn]
    field_simp
    ring

/-- What closes a holding, with the holding's sign: the fill turned round if it is the smaller,
the whole holding if it is not. -/
theorem closing_mul_direction {q δ : K} (hq : q ≠ 0) (hδ : δ ≠ 0) (h : ¬ 0 < q * δ) :
    closing q δ * direction q = if q * (q + δ) ≤ 0 then q else -δ := by
  unfold closing direction
  rcases opposite_of_not_mul_pos hq hδ h with ⟨hq, hδ⟩ | ⟨hq, hδ⟩
  · rw [abs_of_pos hq, abs_of_neg hδ, if_pos hq, mul_one]
    by_cases hn : q + δ ≤ 0
    · rw [if_pos (mul_nonpos_of_nonneg_of_nonpos hq.le hn), min_eq_left (by linarith)]
    · rw [not_le] at hn
      rw [if_neg (not_le.mpr (mul_pos hq hn)), min_eq_right (by linarith)]
  · rw [abs_of_neg hq, abs_of_pos hδ, if_neg (not_lt.mpr hq.le)]
    by_cases hn : 0 ≤ q + δ
    · rw [if_pos (mul_nonpos_of_nonpos_of_nonneg hq.le hn), min_eq_left (by linarith)]
      ring
    · rw [not_le] at hn
      rw [if_neg (not_le.mpr (mul_pos_of_neg_of_neg hq hn)), min_eq_right (by linarith)]
      ring

/-- **The law of average cost**: a fill lowers `realized - quantity * average` by the cash it
costs. -/
theorem fill_cash {b : Book K} {δ p : K} (hq : b.quantity ≠ 0) (hδ : δ ≠ 0) :
    (b.fill δ p).realized - (b.fill δ p).quantity * (b.fill δ p).average =
      b.realized - b.quantity * b.average - δ * p := by
  obtain ⟨q, a, r⟩ := b
  simp only at hq
  unfold fill
  by_cases h : 0 < q * δ
  · -- the holding grows
    simp only [h, if_true]
    rw [add_cost a p h]
    ring
  · simp only [h, if_false]
    have hclose := closing_mul_direction hq hδ h
    have hprofit : closing q δ * (p - a) * direction q = (closing q δ * direction q) * (p - a) := by ring
    rw [hprofit, hclose]
    by_cases hn : q + δ = 0
    · -- the holding is closed exactly
      have hδq : δ = -q := by linarith
      simp only [hn, mul_zero, le_refl, if_true]
      rw [hδq]
      ring
    · by_cases hflip : q * (q + δ) < 0
      · -- the holding is turned round
        simp only [hn, if_false, hflip, if_true, hflip.le]
        ring
      · -- the holding is reduced
        have hpos : 0 < q * (q + δ) := lt_of_le_of_ne (not_lt.mp hflip) (mul_ne_zero hq hn).symm
        simp only [hn, if_false, hflip, not_le.mpr hpos]
        ring

omit [LinearOrder K] [IsStrictOrderedRing K] in
/-- The opening fill keeps the law. -/
theorem opening_cash (δ p : K) :
    (opening δ p).realized - (opening δ p).quantity * (opening δ p).average = -(δ * p) := by
  simp [opening]

/-- A closed book has average price zero. -/
theorem fill_average_of_closed {b : Book K} {δ p : K} (hn : b.quantity + δ = 0) :
    (b.fill δ p).average = 0 := by
  have h : ¬ 0 < b.quantity * δ := by
    rw [not_lt, show δ = -b.quantity by linarith, mul_neg, neg_nonpos]
    exact mul_self_nonneg _
  simp only [fill, h, if_false, hn, if_true]

/-- An open book keeps a positive average price. -/
theorem fill_average_pos {b : Book K} {δ p : K} (ha : 0 < b.average) (hp : 0 < p)
    (hn : b.quantity + δ ≠ 0) : 0 < (b.fill δ p).average := by
  by_cases h : 0 < b.quantity * δ
  · simp only [fill, h, if_true]
    have hq : 0 < |b.quantity| := abs_pos.mpr (left_ne_zero_of_mul h.ne')
    have hδ : 0 < |δ| := abs_pos.mpr (right_ne_zero_of_mul h.ne')
    exact div_pos (add_pos (mul_pos hq ha) (mul_pos hδ hp)) (abs_pos.mpr hn)
  · simp only [fill, h, if_false, hn]
    split
    · exact hp
    · exact ha

end Book

end NanoDelta.Library
