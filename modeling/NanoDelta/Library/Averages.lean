import Mathlib.Analysis.Convex.Basic

/-!
# Averages

A convex set keeps the averages of its members: of a list of them with weights (`weighted_mem`), of a list of them
(`mean_mem`), and of an average with one member more (`blend_mem`).
-/

namespace NanoDelta.Library

universe u v

variable {𝕜 : Type u} [Field 𝕜] [LinearOrder 𝕜] [IsStrictOrderedRing 𝕜] {s : Set 𝕜}

/-- An average, moved a part of the way to another value. -/
theorem blend_mem (hs : Convex 𝕜 s) {average value weight : 𝕜} (haverage : average ∈ s) (hvalue : value ∈ s)
    (hnonneg : 0 ≤ weight) (hone : weight ≤ 1) : average + weight * (value - average) ∈ s := by
  simpa using hs.add_smul_sub_mem haverage hvalue ⟨hnonneg, hone⟩

section Weighted

variable {ι : Type v} (weight value : ι → 𝕜)

/-- Weights that are all zero, or an average that is in the set. -/
theorem weighted_mem_or (hs : Convex 𝕜 s) {items : List ι} (hweight : ∀ i ∈ items, 0 ≤ weight i)
    (hvalue : ∀ i ∈ items, value i ∈ s) :
    ((items.map weight).sum = 0 ∧ (items.map fun i => value i * weight i).sum = 0) ∨
      (0 < (items.map weight).sum ∧ (items.map fun i => value i * weight i).sum / (items.map weight).sum ∈ s) := by
  induction items with
  | nil => exact Or.inl ⟨rfl, rfl⟩
  | cons i items ih =>
    have hfirst : 0 ≤ weight i := hweight i (List.mem_cons_self ..)
    have hmem : value i ∈ s := hvalue i (List.mem_cons_self ..)
    have hrest := ih (fun j hj => hweight j (List.mem_cons_of_mem _ hj))
      (fun j hj => hvalue j (List.mem_cons_of_mem _ hj))
    simp only [List.map_cons, List.sum_cons]
    generalize (items.map weight).sum = total at hrest ⊢
    generalize (items.map fun i => value i * weight i).sum = weighted at hrest ⊢
    rcases hrest with ⟨rfl, rfl⟩ | ⟨htotal, hinside⟩
    · rcases hfirst.eq_or_lt with hzero | hpos
      · exact Or.inl ⟨by rw [← hzero, add_zero], by rw [← hzero, mul_zero, add_zero]⟩
      · refine Or.inr ⟨by simpa using hpos, ?_⟩
        rw [add_zero, add_zero, mul_div_cancel_right₀ _ hpos.ne']
        exact hmem
    · have hall : 0 < weight i + total := add_pos_of_nonneg_of_pos hfirst htotal
      have hblend := blend_mem hs hinside hmem (div_nonneg hfirst hall.le)
        (div_le_one_of_le₀ (le_add_of_nonneg_right htotal.le) hall.le)
      refine Or.inr ⟨hall, ?_⟩
      convert hblend using 1
      field_simp
      ring

/-- **Weighted averages**: the average of members of a convex set is a member. -/
theorem weighted_mem (hs : Convex 𝕜 s) {items : List ι} (hweight : ∀ i ∈ items, 0 ≤ weight i)
    (hvalue : ∀ i ∈ items, value i ∈ s) (hpos : 0 < (items.map weight).sum) :
    (items.map fun i => value i * weight i).sum / (items.map weight).sum ∈ s := by
  rcases weighted_mem_or weight value hs hweight hvalue with ⟨hzero, -⟩ | ⟨-, hmem⟩
  · exact absurd hzero hpos.ne'
  · exact hmem

end Weighted

/-- The mean of members of a convex set is a member. -/
theorem mean_mem (hs : Convex 𝕜 s) {values : List 𝕜} (hne : values ≠ []) (hvalues : ∀ value ∈ values, value ∈ s) :
    values.sum / values.length ∈ s := by
  have hlength : (values.map fun _ => (1 : 𝕜)).sum = values.length := by simp
  have hsum : (values.map fun value => value * 1).sum = values.sum := by simp
  rw [← hlength, ← hsum]
  apply weighted_mem (fun _ => 1) id hs (fun _ _ => zero_le_one) hvalues
  rw [hlength]
  exact_mod_cast List.length_pos_iff.mpr hne

end NanoDelta.Library
