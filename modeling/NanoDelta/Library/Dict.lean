import Mathlib.Data.List.Basic
import Mathlib.Data.List.Nodup

/-!
# Insertion-ordered dictionaries

A `Dict κ ν` maps finitely many keys to values and remembers the order in which
the keys were first set, as the dictionaries of several scripting languages do.
Setting a key that is present changes its value and keeps its place; setting a
new key appends it. That no key occurs twice is part of the type.
-/

namespace NanoDelta.Library

universe u v w

variable {κ : Type u} {ν : Type v}

/-- A dictionary: its entries in insertion order, no key twice. -/
@[ext]
structure Dict (κ : Type u) (ν : Type v) where
  /-- The entries, first inserted first. -/
  entries : List (κ × ν)
  /-- No key occurs twice. -/
  nodup : (entries.map Prod.fst).Nodup
  deriving DecidableEq

namespace Dict

/-- The dictionary with no entries. -/
def empty : Dict κ ν := ⟨[], List.nodup_nil⟩

instance : Inhabited (Dict κ ν) := ⟨empty⟩

/-- The values, in insertion order. -/
def values (d : Dict κ ν) : List ν := d.entries.map Prod.snd

@[simp] theorem values_empty : (empty : Dict κ ν).values = [] := rfl

/-- The dictionary with its values mapped. -/
def mapValues {ν' : Type w} (f : ν → ν') (d : Dict κ ν) : Dict κ ν' :=
  ⟨d.entries.map fun e => (e.1, f e.2), by simpa only [List.map_map, Function.comp_def] using d.nodup⟩

variable [DecidableEq κ]

/-- The value of a key, if it is present. -/
def get? (d : Dict κ ν) (k : κ) : Option ν := (d.entries.find? fun e => e.1 = k).map Prod.snd

/-- The entries after setting a key. -/
def setEntries : List (κ × ν) → κ → ν → List (κ × ν)
  | [], k, v => [(k, v)]
  | e :: es, k, v => if e.1 = k then (e.1, v) :: es else e :: setEntries es k v

theorem mem_keys_setEntries {es : List (κ × ν)} {k k' : κ} {v : ν} :
    k' ∈ (setEntries es k v).map Prod.fst ↔ k' = k ∨ k' ∈ es.map Prod.fst := by
  induction es with
  | nil => simp [setEntries]
  | cons e es ih =>
    by_cases h : e.1 = k
    · simp only [setEntries, h, if_true, List.map_cons, List.mem_cons]
      tauto
    · simp only [setEntries, h, if_false, List.map_cons, List.mem_cons, ih]
      tauto

theorem nodup_setEntries {es : List (κ × ν)} (h : (es.map Prod.fst).Nodup) (k : κ) (v : ν) :
    ((setEntries es k v).map Prod.fst).Nodup := by
  induction es with
  | nil => simp [setEntries]
  | cons e es ih =>
    rw [List.map_cons, List.nodup_cons] at h
    by_cases he : e.1 = k
    · simp only [setEntries, he, if_true, List.map_cons, List.nodup_cons]
      exact ⟨he ▸ h.1, h.2⟩
    · simp only [setEntries, he, if_false, List.map_cons, List.nodup_cons]
      refine ⟨fun hm => ?_, ih h.2⟩
      rcases mem_keys_setEntries.mp hm with hk | hm
      · exact he hk
      · exact h.1 hm

/-- Set a key: in place if it is present, at the end if it is not. -/
def set (d : Dict κ ν) (k : κ) (v : ν) : Dict κ ν :=
  ⟨setEntries d.entries k v, nodup_setEntries d.nodup k v⟩

@[simp] theorem get?_empty (k : κ) : (empty : Dict κ ν).get? k = none := rfl

theorem find?_setEntries (es : List (κ × ν)) (k k' : κ) (v : ν) :
    ((setEntries es k v).find? fun e => e.1 = k').map Prod.snd =
      if k' = k then some v else (es.find? fun e => e.1 = k').map Prod.snd := by
  induction es with
  | nil => by_cases h : k = k' <;> simp [setEntries, h, eq_comm]
  | cons e es ih =>
    by_cases he : e.1 = k
    · subst he
      by_cases hk : e.1 = k'
      · simp [setEntries, hk]
      · simp [setEntries, hk, Ne.symm hk]
    · by_cases hk : e.1 = k'
      · subst hk
        simp [setEntries, he]
      · simp only [setEntries, he, if_false, List.find?_cons, hk, decide_false]
        exact ih

theorem get?_set (d : Dict κ ν) (k k' : κ) (v : ν) :
    (d.set k v).get? k' = if k' = k then some v else d.get? k' := find?_setEntries d.entries k k' v

@[simp] theorem get?_set_self (d : Dict κ ν) (k : κ) (v : ν) : (d.set k v).get? k = some v := by
  rw [get?_set, if_pos rfl]

theorem get?_set_of_ne (d : Dict κ ν) {k k' : κ} (h : k' ≠ k) (v : ν) :
    (d.set k v).get? k' = d.get? k' := by
  rw [get?_set, if_neg h]

/-- Remove a key, if it is present. -/
def erase (d : Dict κ ν) (k : κ) : Dict κ ν :=
  ⟨d.entries.filter fun e => e.1 ≠ k, d.nodup.sublist (List.filter_sublist.map Prod.fst)⟩

theorem get?_erase (d : Dict κ ν) (k k' : κ) : (d.erase k).get? k' = if k' = k then none else d.get? k' := by
  unfold erase get?
  rw [List.find?_filter]
  by_cases h : k' = k
  · subst h
    rw [if_pos rfl, List.find?_eq_none.mpr]
    · rfl
    · simp
  · rw [if_neg h]
    congr 2
    funext e
    by_cases he : e.1 = k'
    · simp [he, h]
    · simp [he]

theorem get?_eq_none_iff {d : Dict κ ν} {k : κ} : d.get? k = none ↔ ∀ e ∈ d.entries, e.1 ≠ k := by
  simp [get?]

theorem erase_of_get?_eq_none {d : Dict κ ν} {k : κ} (h : d.get? k = none) : d.erase k = d := by
  rw [get?_eq_none_iff] at h
  obtain ⟨es, hes⟩ := d
  simp only [erase, mk.injEq, List.filter_eq_self, decide_eq_true_eq]
  exact h

theorem get?_mapValues {ν' : Type w} (f : ν → ν') (d : Dict κ ν) (k : κ) : (d.mapValues f).get? k = (d.get? k).map f := by
  unfold mapValues get?
  rw [List.find?_map, Option.map_map, Option.map_map]
  rfl

/-- An entry is what its key looks up. -/
theorem get?_eq_some_iff {d : Dict κ ν} {k : κ} {v : ν} : d.get? k = some v ↔ (k, v) ∈ d.entries := by
  obtain ⟨es, hes⟩ := d
  simp only [get?]
  induction es with
  | nil => simp
  | cons e es ih =>
    rw [List.map_cons, List.nodup_cons] at hes
    by_cases he : e.1 = k
    · subst he
      simp only [List.find?_cons, decide_true, Option.map_some, Option.some.injEq, List.mem_cons]
      constructor
      · rintro rfl
        exact Or.inl rfl
      · rintro (h | h)
        · exact (Prod.ext_iff.mp h).2.symm
        · exact absurd (List.mem_map.mpr ⟨_, h, rfl⟩) hes.1
    · simp only [List.find?_cons, he, decide_false, List.mem_cons]
      rw [ih hes.2]
      constructor
      · exact Or.inr
      · rintro (h | h)
        · exact absurd (congrArg Prod.fst h).symm he
        · exact h

/-- A key that is not present is appended. -/
theorem entries_set_of_get?_eq_none {d : Dict κ ν} {k : κ} (h : d.get? k = none) (v : ν) :
    (d.set k v).entries = d.entries ++ [(k, v)] := by
  rw [get?_eq_none_iff] at h
  obtain ⟨es, hes⟩ := d
  simp only [set] at h ⊢
  clear hes
  induction es with
  | nil => rfl
  | cons e es ih =>
    have he : e.1 ≠ k := h e (List.mem_cons_self ..)
    simp only [setEntries, he, if_false, List.cons_append]
    rw [ih fun e' he' => h e' (List.mem_cons_of_mem _ he')]

theorem values_set_of_get?_eq_none {d : Dict κ ν} {k : κ} (h : d.get? k = none) (v : ν) :
    (d.set k v).values = d.values ++ [v] := by
  simp [values, entries_set_of_get?_eq_none h]

/-- A dictionary that is filled key by key. -/
theorem get?_foldl_set (f : κ → Option ν) (ks : List κ) {k : κ} {v : ν} :
    (ks.foldl (fun d k => (f k).elim d (d.set k)) empty).get? k = some v ↔ k ∈ ks ∧ f k = some v := by
  have hfold : ∀ d : Dict κ ν, (ks.foldl (fun d k => (f k).elim d (d.set k)) d).get? k =
      if k ∈ ks ∧ f k ≠ none then f k else d.get? k := by
    induction ks with
    | nil => simp
    | cons k' ks ih =>
      intro d
      rw [List.foldl_cons, ih]
      cases hvalue : f k' with
      | none =>
        by_cases hk : k = k'
        · subst hk
          simp [hvalue]
        · simp [hk]
      | some v =>
        by_cases hk : k = k'
        · subst hk
          simp [hvalue]
        · simp [hk, get?_set_of_ne]
  rw [hfold]
  cases f k <;> simp

/-- A dictionary that is filled from a list has the last value of each key. -/
theorem get?_foldl_last {α : Type*} (key : α → κ) (value : α → ν) (as : List α) (d : Dict κ ν) (k : κ) :
    (as.foldl (fun d a => d.set (key a) (value a)) d).get? k =
      (((as.filter fun a => key a = k).getLast?).map value).or (d.get? k) := by
  induction as generalizing d with
  | nil => rfl
  | cons a as ih =>
    rw [List.foldl_cons, ih, get?_set]
    by_cases ha : key a = k
    · rw [List.filter_cons_of_pos (by simpa using ha), List.getLast?_cons, if_pos ha.symm]
      cases (as.filter fun a => key a = k).getLast? <;> rfl
    · rw [List.filter_cons_of_neg (by simpa using ha), if_neg (Ne.symm ha)]

/-- So a value comes from an item with that key. -/
theorem exists_of_get?_foldl_last {α : Type*} {key : α → κ} {value : α → ν} {as : List α} {k : κ} {v : ν}
    (h : (as.foldl (fun d a => d.set (key a) (value a)) empty).get? k = some v) : ∃ a ∈ as, key a = k ∧ value a = v := by
  rw [get?_foldl_last, get?_empty, Option.or_none] at h
  obtain ⟨a, ha, rfl⟩ := Option.map_eq_some_iff.mp h
  obtain ⟨hmem, hkey⟩ := List.mem_filter.mp (List.mem_of_getLast? ha)
  exact ⟨a, hmem, of_decide_eq_true hkey, rfl⟩

/-- And a key of an item has a value. -/
theorem exists_get?_foldl_last {α : Type*} (key : α → κ) (value : α → ν) {as : List α} {a : α} (h : a ∈ as) :
    ∃ v, (as.foldl (fun d a => d.set (key a) (value a)) empty).get? (key a) = some v := by
  rw [get?_foldl_last, get?_empty, Option.or_none]
  cases hlast : (as.filter fun a' => key a' = key a).getLast? with
  | none =>
    have hnil := List.getLast?_eq_none_iff.mp hlast
    exact absurd (List.mem_filter.mpr ⟨h, by simp⟩) (List.eq_nil_iff_forall_not_mem.mp hnil a)
  | some last => exact ⟨value last, rfl⟩

end Dict

end NanoDelta.Library
