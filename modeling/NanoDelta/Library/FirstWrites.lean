import NanoDelta.Library.Dict

/-!
# Stores in which the first write wins

A store files every item under a key, and only the first item of a key is kept. Two stores that get the same items may
file them under different keys.

* `Files`: a store has the keys of the items that it was given, and no others.
* `created_iff`: an item is new if no item with its key was given before.
-/

namespace NanoDelta.Library

universe u v w

variable {ι : Type u} {κ : Type v} {ν : Type w} [DecidableEq κ]

/-- Write a value under a key, unless there is one: whether it is new, and the store after it. -/
def writeNew (d : Dict κ ν) (k : κ) (v : ν) : Bool × Dict κ ν :=
  match d.get? k with
  | some _ => (false, d)
  | none => (true, d.set k v)

/-- The store has the keys of these items. -/
def Files (key : ι → κ) (d : Dict κ ν) (items : List ι) : Prop := ∀ k, d.get? k ≠ none ↔ ∃ i ∈ items, key i = k

theorem files_empty (key : ι → κ) : Files key (.empty : Dict κ ν) [] := by
  intro k
  simp

theorem created_iff (d : Dict κ ν) (k : κ) (v : ν) : (writeNew d k v).1 = true ↔ d.get? k = none := by
  unfold writeNew
  cases h : d.get? k <;> simp

/-- A write adds its key. -/
theorem get?_writeNew_ne_none (d : Dict κ ν) (k k' : κ) (v : ν) :
    (writeNew d k v).2.get? k' ≠ none ↔ d.get? k' ≠ none ∨ k' = k := by
  unfold writeNew
  cases hget : d.get? k with
  | some v' =>
    refine (or_iff_left_of_imp ?_).symm
    rintro rfl
    simp [hget]
  | none =>
    dsimp only
    rw [Dict.get?_set]
    by_cases heq : k' = k <;> simp [heq]

variable {key : ι → κ} {d : Dict κ ν} {items : List ι}

theorem Files.write (h : Files key d items) (item : ι) (v : ν) :
    Files key (writeNew d (key item) v).2 (items ++ [item]) := by
  intro k
  have hmem : (∃ i ∈ items ++ [item], key i = k) ↔ (∃ i ∈ items, key i = k) ∨ key item = k := by
    simp only [List.mem_append, List.mem_singleton]
    constructor
    · rintro ⟨i, hi | rfl, heq⟩
      · exact Or.inl ⟨i, hi, heq⟩
      · exact Or.inr heq
    · rintro (⟨i, hi, heq⟩ | heq)
      · exact ⟨i, Or.inl hi, heq⟩
      · exact ⟨item, Or.inr rfl, heq⟩
  rw [hmem, ← h k, get?_writeNew_ne_none, eq_comm (a := k)]

end NanoDelta.Library
