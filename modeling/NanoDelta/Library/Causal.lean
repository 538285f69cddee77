import Mathlib.Data.List.Basic
import Mathlib.Data.List.TakeDrop

/-!
# Causal operators on series

An operator on series has a value for every item. It is causal if the values at the first items of a series are the
values of the series of these items alone: what comes later changes nothing.

* `Causal.comp`, `Causal.map`, `Causal.zip`: operators that are made of causal ones.
* `causal_scan`, `causal_mapIdx`: running sums, and values made of what came so far.
* `Causal.keep`: cutting a series off, or its values.
* `recent_mapIdx`: operators that forget what came long ago.
-/

namespace NanoDelta.Library

universe u v w

variable {α : Type u} {β : Type v} {γ : Type w}

/-- A value for every item, those of the first items made of these alone. -/
structure Causal (F : List α → List β) : Prop where
  length : ∀ as, (F as).length = as.length
  take : ∀ as n, F (as.take n) = (F as).take n

/-! ### Operators made of others -/

theorem causal_map (f : α → β) : Causal (List.map f) := ⟨fun _ => List.length_map _, fun _ _ => List.map_take⟩

theorem Causal.comp {F : List α → List β} {G : List β → List γ} (hG : Causal G) (hF : Causal F) :
    Causal fun as => G (F as) :=
  ⟨fun as => (hG.length _).trans (hF.length as), fun as n => by rw [hF.take, hG.take]⟩

theorem Causal.map {F : List α → List β} (hF : Causal F) (f : β → γ) : Causal fun as => (F as).map f :=
  (causal_map f).comp hF

theorem Causal.zip {F : List α → List β} {G : List α → List γ} (hF : Causal F) (hG : Causal G) :
    Causal fun as => (F as).zip (G as) := by
  refine ⟨fun as => ?_, fun as n => ?_⟩
  · rw [List.length_zip, hF.length, hG.length, Nat.min_self]
  · rw [hF.take, hG.take, List.zip_eq_zipWith, List.zip_eq_zipWith, List.take_zipWith]

/-- A running value. -/
theorem causal_scan (f : β → α → β) (b : β) : Causal fun as => (as.scanl f b).tail := by
  refine ⟨fun as => ?_, fun as n => ?_⟩
  · rw [List.length_tail, List.length_scanl, Nat.add_sub_cancel]
  · rw [← List.take_scanl, ← List.drop_one, ← List.drop_one, List.drop_take, Nat.add_sub_cancel]

/-- A value that is made of the items up to its own. -/
theorem causal_mapIdx {f : List α → ℕ → α → β} (hf : ∀ as n i a, i < n → f (as.take n) i a = f as i a) :
    Causal fun as => as.mapIdx (f as) := by
  refine ⟨fun as => List.length_mapIdx, fun as n => List.ext_getElem? fun i => ?_⟩
  rw [List.getElem?_mapIdx, List.getElem?_take, List.getElem?_take, List.getElem?_mapIdx]
  split_ifs with hi
  · cases as[i]? with
    | none => rfl
    | some a => exact congrArg some (hf as n i a hi)
  · rfl

/-- Items with the ones before them, of the first items of a series. -/
theorem zipWith_cons_take (f : α → α → β) (a : α) (as : List α) (n : ℕ) :
    List.zipWith f (a :: as.take n) (as.take n) = (List.zipWith f (a :: as) as).take n := by
  induction as generalizing a n with
  | nil => simp
  | cons b as ih =>
    cases n with
    | zero => rfl
    | succ n => exact congrArg _ (ih b n)

/-! ### Cutting off -/

/-- What a property that holds of a first part of a list keeps, and what it leaves out. -/
theorem filter_eq_take {p : α → Bool} {as : List α} (h : as.Pairwise fun a b => p b = true → p a = true) :
    as.filter p = as.take (as.countP p) ∧ (as.filter fun a => !p a) = as.drop (as.countP p) := by
  induction as with
  | nil => exact ⟨rfl, rfl⟩
  | cons a as ih =>
    obtain ⟨ha, has⟩ := List.pairwise_cons.mp h
    obtain ⟨htake, hdrop⟩ := ih has
    by_cases hpa : p a = true
    · rw [List.filter_cons_of_pos hpa, List.filter_cons_of_neg (by simp [hpa]), List.countP_cons_of_pos hpa]
      exact ⟨congrArg _ htake, hdrop⟩
    · have hnone : ∀ b ∈ as, ¬ p b = true := fun b hb hpb => hpa (ha b hb hpb)
      rw [List.filter_cons_of_neg hpa, List.filter_cons_of_pos (by simpa using hpa), List.countP_cons_of_neg hpa,
        List.countP_eq_zero.mpr hnone, List.filter_eq_nil_iff.mpr hnone,
        List.filter_eq_self.mpr fun b hb => by simpa using hnone b hb]
      exact ⟨rfl, rfl⟩

/-- **Cutting off**: the values of the first part of a series are the values, cut off. -/
theorem Causal.keep {F : List α → List (Option β)} (hF : Causal F) {p : α → Bool} {q : β → Bool}
    (hpq : ∀ (as : List α) (i : ℕ) a b, as[i]? = some a → (F as)[i]? = some (some b) → q b = p a) {as : List α}
    (hsorted : as.Pairwise fun a b => p b = true → p a = true) :
    (F (as.filter p)).filterMap id = ((F as).filterMap id).filter q := by
  obtain ⟨htake, hdrop⟩ := filter_eq_take hsorted
  have hitem : ∀ (i : ℕ) (b : β), (F as)[i]? = some (some b) → ∃ a, as[i]? = some a ∧ q b = p a := by
    intro i b hb
    obtain ⟨hi, -⟩ := List.getElem?_eq_some_iff.mp hb
    rw [hF.length] at hi
    exact ⟨as[i], List.getElem?_eq_getElem hi, hpq as i _ b (List.getElem?_eq_getElem hi) hb⟩
  have hfirst : ∀ b ∈ ((F as).take (as.countP p)).filterMap id, q b = true := by
    intro b hb
    obtain ⟨_, hmem, rfl⟩ := List.mem_filterMap.mp hb
    obtain ⟨i, hi⟩ := List.mem_iff_getElem?.mp hmem
    rw [List.getElem?_take] at hi
    split_ifs at hi with hlt
    obtain ⟨a, ha, hq⟩ := hitem i b hi
    have hkept : a ∈ as.filter p := by
      rw [htake]
      exact List.mem_iff_getElem?.mpr ⟨i, by rw [List.getElem?_take, if_pos hlt, ha]⟩
    exact hq.trans (List.mem_filter.mp hkept).2
  have hrest : ∀ b ∈ ((F as).drop (as.countP p)).filterMap id, ¬ q b = true := by
    intro b hb
    obtain ⟨_, hmem, rfl⟩ := List.mem_filterMap.mp hb
    obtain ⟨i, hi⟩ := List.mem_iff_getElem?.mp hmem
    rw [List.getElem?_drop] at hi
    obtain ⟨a, ha, hq⟩ := hitem _ b hi
    have hleft : a ∈ as.filter fun a => !p a := by
      rw [hdrop]
      exact List.mem_iff_getElem?.mpr ⟨i, by rw [List.getElem?_drop, ha]⟩
    rw [hq]
    simpa using (List.mem_filter.mp hleft).2
  calc (F (as.filter p)).filterMap id
      = ((F as).take (as.countP p)).filterMap id := by rw [htake, hF.take]
    _ = (((F as).take (as.countP p)).filterMap id ++ ((F as).drop (as.countP p)).filterMap id).filter q := by
        rw [List.filter_append, List.filter_eq_self.mpr hfirst, List.filter_eq_nil_iff.mpr hrest, List.append_nil]
    _ = ((F as).filterMap id).filter q := by rw [← List.filterMap_append, List.take_append_drop]

/-! ### A short memory -/

/-- The last value is made of the last `k` items: what came before them is forgotten. -/
def Recent (k : ℕ) (F : List α → List β) : Prop :=
  ∀ as bs : List α, k ≤ bs.length → (F (as ++ bs)).getLast? = (F bs).getLast?

theorem Recent.map {k : ℕ} {F : List α → List β} (hF : Recent k F) (f : β → γ) : Recent k fun as => (F as).map f := by
  intro as bs hk
  rw [List.getLast?_map, List.getLast?_map, hF as bs hk]

theorem getLast?_mapIdx (f : ℕ → α → β) (as : List α) (a : α) :
    ((as ++ [a]).mapIdx f).getLast? = some (f as.length a) := by
  rw [List.mapIdx_append, List.mapIdx_singleton, List.getLast?_append_of_ne_nil _ (List.cons_ne_nil _ _)]
  simp

/-- A value made of the items around its own is recent, if the function looks back at most `k` items. -/
theorem recent_mapIdx {f : List α → ℕ → α → β} {k : ℕ} (hk : 1 ≤ k)
    (hf : ∀ as bs a, k ≤ bs.length + 1 →
      f (as ++ bs ++ [a]) (as ++ bs).length a = f (bs ++ [a]) bs.length a) :
    Recent k fun as => as.mapIdx (f as) := by
  intro as bs hlength
  obtain ⟨bs, b, rfl⟩ := (List.eq_nil_or_concat' bs).resolve_left (List.ne_nil_of_length_pos (Nat.le_trans hk hlength))
  dsimp only
  rw [← List.append_assoc, getLast?_mapIdx, getLast?_mapIdx]
  exact congrArg some (hf as bs b (by simpa using hlength))

end NanoDelta.Library
