import Mathlib
import NanoDelta.Library.Dict

/-!
# Budgets over windows of time

Amounts are reserved, and later spent at some time. A budget has a limit for what is spent in each of its windows, and it
is only checked when an amount is reserved.

* `Kept`: no window is over the limit, and a window that is not over has room for everything that is reserved.
* `Kept.later`, `Kept.release`, `Kept.reserve`, `Kept.spend`: what may happen to it.
-/

namespace NanoDelta.Library

universe u

variable {τ : Type u}

/-- What is spent at the times of a window. -/
def spentIn (w : τ → Bool) (entries : List (τ × ℕ)) : ℕ := ((entries.filter fun e => w e.1).map Prod.snd).sum

theorem spentIn_concat (w : τ → Bool) (entries : List (τ × ℕ)) (e : τ × ℕ) :
    spentIn w (entries ++ [e]) = spentIn w entries + if w e.1 then e.2 else 0 := by
  unfold spentIn
  cases hw : w e.1 <;> simp [hw]

/-- A window that has the times of another one among the entries has all that is spent in it. -/
theorem spentIn_le_spentIn {w w' : τ → Bool} {entries : List (τ × ℕ)}
    (h : ∀ e ∈ entries, w e.1 = true → w' e.1 = true) : spentIn w entries ≤ spentIn w' entries := by
  induction entries with
  | nil => exact le_rfl
  | cons e entries ih =>
    obtain ⟨hfirst, hrest⟩ := List.forall_mem_cons.mp h
    have hle : spentIn w entries ≤ spentIn w' entries := ih hrest
    unfold spentIn at hle ⊢
    cases hw : w e.1 with
    | true => simpa [hw, hfirst hw] using hle
    | false =>
      cases hw' : w' e.1
      · simpa [hw, hw'] using hle
      · simp only [List.filter_cons, hw, hw', if_true, List.map_cons, List.sum_cons]
        exact hle.trans (Nat.le_add_left _ _)

variable [Preorder τ]

/-- What is spent and reserved is within the limit, at a time that no entry is after. -/
structure Kept (limit : ℕ) (windows : Set (τ → Bool)) (now : τ) (entries : List (τ × ℕ)) (reserved : ℕ) : Prop where
  past : ∀ e ∈ entries, e.1 ≤ now
  spent : ∀ w ∈ windows, spentIn w entries ≤ limit
  room : ∀ w ∈ windows, ∀ t, now ≤ t → w t = true → spentIn w entries + reserved ≤ limit

/-- The window that is checked at a time has all that may count with something later. -/
def Covers (windows : Set (τ → Bool)) (now : τ) (checked : τ → Bool) : Prop :=
  ∀ w ∈ windows, ∀ t, now ≤ t → w t = true → ∀ r ≤ now, w r = true → checked r = true

namespace Kept

variable {limit reserved reserved' amount : ℕ} {windows : Set (τ → Bool)} {now t : τ} {entries : List (τ × ℕ)}

theorem start (limit : ℕ) (windows : Set (τ → Bool)) (now : τ) : Kept limit windows now [] 0 :=
  ⟨by simp, fun _ _ => Nat.zero_le limit, fun _ _ _ _ _ => Nat.zero_le limit⟩

theorem later (h : Kept limit windows now entries reserved) (hle : now ≤ t) : Kept limit windows t entries reserved :=
  ⟨fun e he => (h.past e he).trans hle, h.spent, fun w hw t' ht' => h.room w hw t' (hle.trans ht')⟩

theorem release (h : Kept limit windows now entries reserved) (hle : reserved' ≤ reserved) :
    Kept limit windows now entries reserved' :=
  ⟨h.past, h.spent, fun w hw t ht hin => (Nat.add_le_add_left hle _).trans (h.room w hw t ht hin)⟩

/-- **Reserving**: the check is about the window of the present time. -/
theorem reserve (h : Kept limit windows now entries reserved) {checked : τ → Bool}
    (hcovers : Covers windows now checked) (hcheck : spentIn checked entries + reserved' ≤ limit) :
    Kept limit windows now entries reserved' := by
  refine ⟨h.past, h.spent, fun w hw t ht hin => ?_⟩
  have hle : spentIn w entries ≤ spentIn checked entries := by
    apply spentIn_le_spentIn
    intro e he hwe
    exact hcovers w hw t ht hin e.1 (h.past e he) hwe
  exact (Nat.add_le_add_right hle _).trans hcheck

/-- **Spending** what was reserved. -/
theorem spend (h : Kept limit windows now entries reserved) (hle : now ≤ t) (hamount : amount + reserved' ≤ reserved) :
    Kept limit windows t (entries ++ [(t, amount)]) reserved' := by
  have hroom : ∀ w ∈ windows, ∀ t', now ≤ t' → w t' = true → spentIn w (entries ++ [(t, amount)]) + reserved' ≤ limit := by
    intro w hw t' ht' hin
    have hspent : spentIn w (entries ++ [(t, amount)]) ≤ spentIn w entries + amount := by
      rw [spentIn_concat]
      split_ifs <;> omega
    have hbefore := h.room w hw t' ht' hin
    omega
  refine ⟨?_, fun w hw => ?_, fun w hw t' ht' hin => hroom w hw t' (hle.trans ht') hin⟩
  · intro e he
    rcases List.mem_append.mp he with he | he
    · exact (h.past e he).trans hle
    · rw [List.mem_singleton.mp he]
  · cases hin : w t with
    | true => exact (Nat.le_add_right _ _).trans (hroom w hw t hle hin)
    | false =>
      rw [spentIn_concat]
      simpa [hin] using h.spent w hw

end Kept

/-! ### Sums over a dictionary -/

section Sums

variable {κ ν : Type*} [DecidableEq κ] (f : ν → ℕ)

theorem sum_setEntries_le (es : List (κ × ν)) (k : κ) (v : ν) :
    ((Dict.setEntries es k v).map fun e => f e.2).sum ≤ (es.map fun e => f e.2).sum + f v := by
  induction es with
  | nil => simp [Dict.setEntries]
  | cons e es ih =>
    by_cases he : e.1 = k
    · simp only [Dict.setEntries, he, if_true, List.map_cons, List.sum_cons]
      omega
    · simp only [Dict.setEntries, he, if_false, List.map_cons, List.sum_cons]
      omega

/-- Setting a key adds its value at most. -/
theorem Dict.sum_set_le (d : Dict κ ν) (k : κ) (v : ν) :
    ((d.set k v).values.map f).sum ≤ (d.values.map f).sum + f v := by
  have h := sum_setEntries_le f d.entries k v
  simpa [Dict.values, Dict.set, List.map_map, Function.comp_def] using h

/-- Removing a key takes its value away. -/
theorem Dict.sum_erase {d : Dict κ ν} {k : κ} {v : ν} (h : d.get? k = some v) :
    f v + ((d.erase k).values.map f).sum = (d.values.map f).sum := by
  obtain ⟨es, hes⟩ := d
  rw [Dict.get?_eq_some_iff] at h
  unfold Dict.erase Dict.values
  dsimp only at h ⊢
  induction es with
  | nil => cases h
  | cons e es ih =>
    rw [List.map_cons, List.nodup_cons] at hes
    rcases List.mem_cons.mp h with rfl | h
    · have hkept : es.filter (fun e => e.1 ≠ k) = es := by
        rw [List.filter_eq_self]
        rintro e he
        exact decide_eq_true fun heq => hes.1 (List.mem_map.mpr ⟨e, he, heq⟩)
      rw [List.filter_cons_of_neg (by simp), hkept, List.map_cons, List.map_cons, List.sum_cons]
    · have hne : e.1 ≠ k := fun heq => hes.1 (List.mem_map.mpr ⟨_, h, heq.symm⟩)
      rw [List.filter_cons_of_pos (by simpa using hne)]
      simp only [List.map_cons, List.sum_cons]
      rw [← ih hes.2 h]
      omega

theorem Dict.sum_erase_le (d : Dict κ ν) (k : κ) : ((d.erase k).values.map f).sum ≤ (d.values.map f).sum := by
  cases h : d.get? k with
  | some v => exact (Dict.sum_erase f h).symm ▸ Nat.le_add_left _ _
  | none =>
    have hsame : d.erase k = d := by
      apply Dict.ext
      rw [Dict.get?_eq_none_iff] at h
      exact List.filter_eq_self.mpr fun e he => decide_eq_true (h e he)
    rw [hsame]

end Sums

end NanoDelta.Library
