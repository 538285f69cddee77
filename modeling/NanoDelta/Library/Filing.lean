import NanoDelta.Library.Dict
import NanoDelta.Library.Table

/-!
# Tables that mirror a dictionary

A table has, for every value of a dictionary, the row that is made of it. Writing a value under its own key keeps the
two in step if the dictionary has no other value there, whichever of the two forgets the second of two equal writes.

* `Filed.insert`: a value that is new or the one that is there.
* `Filed.skip`: the table does not take a second row with a key.
-/

namespace NanoDelta.Library

universe u v w

variable {κ : Type u} {ν : Type v} {ρ : Type w} [DecidableEq κ] {key : ν → κ} {rowKey : ρ → κ} {row : ν → ρ}

/-- Writing what is there changes nothing. -/
theorem Dict.set_eq_self {d : Dict κ ν} {k : κ} {v : ν} (h : d.get? k = some v) : d.set k v = d := by
  have hset : ∀ {es : List (κ × ν)}, (es.map Prod.fst).Nodup → (k, v) ∈ es → Dict.setEntries es k v = es := by
    intro es hnodup hmem
    induction es with
    | nil => cases hmem
    | cons e es ih =>
      rw [List.map_cons, List.nodup_cons] at hnodup
      rcases List.mem_cons.mp hmem with rfl | hmem
      · simp [Dict.setEntries]
      · have hne : e.1 ≠ k := by
          rintro rfl
          exact hnodup.1 (List.mem_map.mpr ⟨_, hmem, rfl⟩)
        simp only [Dict.setEntries, if_neg hne, ih hnodup.2 hmem]
  ext1
  exact hset d.nodup (Dict.get?_eq_some_iff.mp h)

/-- The rows are made of the values of the dictionary, and every value is filed under its own key. -/
structure Filed (key : ν → κ) (row : ν → ρ) (d : Dict κ ν) (rows : List ρ) : Prop where
  rows_eq : rows = d.values.map row
  keyed : ∀ e ∈ d.entries, key e.2 = e.1

omit [DecidableEq κ] in
theorem filed_empty : Filed key row (.empty : Dict κ ν) [] := ⟨rfl, fun _ h => by cases h⟩

variable {d : Dict κ ν} {rows : List ρ}

/-- A row is made of a value that is found under its key. -/
theorem Filed.mem_iff (h : Filed key row d rows) {r : ρ} : r ∈ rows ↔ ∃ v, d.get? (key v) = some v ∧ row v = r := by
  rw [h.rows_eq, List.mem_map]
  constructor
  · rintro ⟨v, hv, rfl⟩
    obtain ⟨e, he, rfl⟩ := List.mem_map.mp hv
    refine ⟨e.2, ?_, rfl⟩
    rw [h.keyed e he]
    exact Dict.get?_eq_some_iff.mpr he
  · rintro ⟨v, hv, rfl⟩
    exact ⟨v, List.mem_map.mpr ⟨_, Dict.get?_eq_some_iff.mp hv, rfl⟩, rfl⟩

/-- A key is taken in the table just if it is in the dictionary. -/
theorem Filed.taken_iff (h : Filed key row d rows) (hrow : ∀ v, rowKey (row v) = key v) {k : κ} :
    (∃ r ∈ rows, rowKey r = k) ↔ ∃ v, d.get? k = some v := by
  constructor
  · rintro ⟨r, hr, rfl⟩
    obtain ⟨v, hv, rfl⟩ := h.mem_iff.mp hr
    rw [hrow]
    exact ⟨v, hv⟩
  · rintro ⟨v, hv⟩
    have hkey : key v = k := h.keyed _ (Dict.get?_eq_some_iff.mp hv)
    exact ⟨row v, h.mem_iff.mpr ⟨v, hkey ▸ hv, rfl⟩, (hrow v).trans hkey⟩

/-- If the dictionary has a value under the key, the table takes no row. -/
theorem Filed.skip (h : Filed key row d rows) (hrow : ∀ v, rowKey (row v) = key v) {v old : ν}
    (hold : d.get? (key v) = some old) : Table.insertNew (fun r => rowKey r = key v) (row v) rows = rows := by
  unfold Table.insertNew
  rw [if_pos ((h.taken_iff hrow).mpr ⟨old, hold⟩)]

/-- **Writing a value** to both, if the dictionary has no other one under its key. -/
theorem Filed.insert (h : Filed key row d rows) (hrow : ∀ v, rowKey (row v) = key v) {v : ν}
    (hknown : ∀ old ∈ d.get? (key v), old = v) :
    Filed key row (d.set (key v) v) (Table.insertNew (fun r => rowKey r = key v) (row v) rows) := by
  cases hget : d.get? (key v) with
  | some old =>
    have hold : old = v := hknown old hget
    subst hold
    rw [h.skip hrow hget, Dict.set_eq_self hget]
    exact h
  | none =>
    have hfree : ¬ ∃ r ∈ rows, rowKey r = key v := by
      rw [h.taken_iff hrow, hget]
      rintro ⟨_, ⟨⟩⟩
    unfold Table.insertNew
    rw [if_neg hfree]
    refine ⟨?_, ?_⟩
    · rw [Dict.values_set_of_get?_eq_none hget, h.rows_eq, List.map_append, List.map_singleton]
    · intro e he
      rw [Dict.entries_set_of_get?_eq_none hget, List.mem_append, List.mem_singleton] at he
      rcases he with he | rfl
      · exact h.keyed e he
      · rfl

end NanoDelta.Library
