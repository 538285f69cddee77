import Mathlib.Data.List.Basic
import Mathlib.Data.List.Nodup
import Mathlib.Algebra.BigOperators.Group.List.Basic

/-!
# Tables

A table is the list of its rows, in the order they were inserted. The statements
that change it are an insert that skips a row whose key is taken, and an insert
that updates that row instead; both refuse a row that breaks a constraint. What
they do is said by one theorem each. Then facts on unique keys: the rows with the
key of a row are that row, and looking up a key finds its row.
-/

namespace NanoDelta.Library.Table

universe u v w

variable {ρ : Type u} {ε : Type v}

/-! ### Inserting -/

/-- The rows after `INSERT … ON CONFLICT (key) DO NOTHING` of a row that meets all constraints. -/
def insertNew (taken : ρ → Prop) [DecidablePred taken] (row : ρ) (rows : List ρ) : List ρ :=
  if ∃ r ∈ rows, taken r then rows else rows ++ [row]

/-- `INSERT … ON CONFLICT (key) DO NOTHING`: `check` are the constraints on the row alone, `taken`
says which rows have its key, and `allowed` are the constraints that only a row which is really
inserted must meet. -/
def insertOrSkip (check : Prop) (taken : ρ → Prop) (allowed : Prop) [Decidable check] [DecidablePred taken]
    [Decidable allowed] (refusal : ε) (row : ρ) (rows : List ρ) : Except ε (List ρ) :=
  if ¬ check then .error refusal
  else if ∃ r ∈ rows, taken r then .ok rows
  else if ¬ allowed then .error refusal
  else .ok (rows ++ [row])

/-- An insert that was accepted skipped the row, or appended it. -/
theorem insertOrSkip_eq_ok {check : Prop} {taken : ρ → Prop} {allowed : Prop} [Decidable check]
    [DecidablePred taken] [Decidable allowed] {refusal : ε} {row : ρ} {rows rows' : List ρ} :
    insertOrSkip check taken allowed refusal row rows = .ok rows' ↔
      check ∧ (((∃ r ∈ rows, taken r) ∧ rows' = rows) ∨
        ((∀ r ∈ rows, ¬ taken r) ∧ allowed ∧ rows' = rows ++ [row])) := by
  unfold insertOrSkip
  by_cases hc : check
  · by_cases ht : ∃ r ∈ rows, taken r
    · have hn : ¬ ∀ r ∈ rows, ¬ taken r := by push Not; exact ht
      simp only [hc, not_true_eq_false, if_false, ht, if_true, hn, true_and, false_and, or_false,
        Except.ok.injEq, eq_comm]
    · have hn : ∀ r ∈ rows, ¬ taken r := by push Not at ht; exact ht
      by_cases ha : allowed
      · simp only [hc, not_true_eq_false, if_false, ht, ha, false_and, false_or, true_and,
          Except.ok.injEq, eq_comm, iff_and_self]
        exact fun _ => hn
      · simp only [hc, ht, ha, not_true_eq_false, not_false_eq_true, if_false, if_true, false_and, and_false,
          or_false, reduceCtorEq]
  · simp only [hc, not_false_eq_true, if_true, reduceCtorEq, false_and]

/-- An insert of a row whose key is not taken appended it. -/
theorem eq_append_of_insertOrSkip {check : Prop} {taken : ρ → Prop} {allowed : Prop} [Decidable check]
    [DecidablePred taken] [Decidable allowed] {refusal : ε} {row : ρ} {rows rows' : List ρ}
    (h : insertOrSkip check taken allowed refusal row rows = .ok rows') (hfree : ∀ r ∈ rows, ¬ taken r) :
    allowed ∧ rows' = rows ++ [row] := by
  rcases (insertOrSkip_eq_ok.mp h).2 with ⟨⟨r, hr, ht⟩, -⟩ | ⟨-, ha, rfl⟩
  · exact absurd ht (hfree r hr)
  · exact ⟨ha, rfl⟩

/-- The rows after `INSERT … ON CONFLICT (key) DO UPDATE`: those with the key updated, or the row
appended. -/
def upserted (taken : ρ → Prop) [DecidablePred taken] (update : ρ → ρ) (row : ρ) (rows : List ρ) : List ρ :=
  if ∃ r ∈ rows, taken r then rows.map fun r => if taken r then update r else r else rows ++ [row]

/-- `INSERT … ON CONFLICT (key) DO UPDATE`: `clash` says which two rows a unique index keeps apart. -/
def upsert (check : Prop) (taken : ρ → Prop) (clash : ρ → ρ → Prop) [Decidable check] [DecidablePred taken]
    [DecidableRel clash] (refusal : ε) (update : ρ → ρ) (row : ρ) (rows : List ρ) : Except ε (List ρ) :=
  if ¬ check then .error refusal
  else if ¬ (upserted taken update row rows).Pairwise (fun r r' => ¬ clash r r') then .error refusal
  else .ok (upserted taken update row rows)

/-- An upsert that was accepted. -/
theorem upsert_eq_ok {check : Prop} {taken : ρ → Prop} {clash : ρ → ρ → Prop} [Decidable check]
    [DecidablePred taken] [DecidableRel clash] {refusal : ε} {update : ρ → ρ} {row : ρ} {rows rows' : List ρ} :
    upsert check taken clash refusal update row rows = .ok rows' ↔
      check ∧ (upserted taken update row rows).Pairwise (fun r r' => ¬ clash r r') ∧
        rows' = upserted taken update row rows := by
  unfold upsert
  by_cases hc : check
  · by_cases hp : (upserted taken update row rows).Pairwise fun r r' => ¬ clash r r'
    · simp only [hc, hp, not_true_eq_false, if_false, true_and, Except.ok.injEq, eq_comm]
    · simp only [hc, hp, not_true_eq_false, not_false_eq_true, if_false, if_true, reduceCtorEq, false_and,
        and_false]
  · simp only [hc, not_false_eq_true, if_true, reduceCtorEq, false_and]

/-- A row whose key is not taken is appended. -/
theorem upserted_of_free {taken : ρ → Prop} [DecidablePred taken] {rows : List ρ}
    (h : ∀ r ∈ rows, ¬ taken r) (update : ρ → ρ) (row : ρ) : upserted taken update row rows = rows ++ [row] := by
  unfold upserted
  rw [if_neg]
  rintro ⟨r, hr, ht⟩
  exact h r hr ht

/-- If the key is taken, the rows that have it are updated. -/
theorem upserted_of_taken {taken : ρ → Prop} [DecidablePred taken] {rows : List ρ}
    (h : ∃ r ∈ rows, taken r) (update : ρ → ρ) (row : ρ) :
    upserted taken update row rows = rows.map fun r => if taken r then update r else r := by
  unfold upserted
  rw [if_pos h]

/-- After an upsert that overwrites, the key finds the row. -/
theorem find?_upserted {taken : ρ → Prop} [DecidablePred taken] {row : ρ} (hrow : taken row) (rows : List ρ) :
    (upserted taken (fun _ => row) row rows).find? (fun r => taken r) = some row := by
  by_cases h : ∃ r ∈ rows, taken r
  · rw [upserted_of_taken h]
    induction rows with
    | nil => simp at h
    | cons r rows ih =>
      by_cases hr : taken r
      · simp [hr, hrow]
      · obtain ⟨r', hr', ht⟩ := h
        have hrest : r' ∈ rows := (List.mem_cons.mp hr').resolve_left fun heq => hr (heq ▸ ht)
        simpa [hr] using ih ⟨r', hrest, ht⟩
  · push Not at h
    rw [upserted_of_free h, List.find?_append, List.find?_eq_none.mpr (by simpa using h)]
    simp [hrow]

/-- What finds none of the rows that an upsert overwrites, and not the row itself, finds what it found. -/
theorem find?_upserted_of_ne {taken : ρ → Prop} [DecidablePred taken] {row : ρ} {p : ρ → Bool}
    (htaken : ∀ r, taken r → p r = false) (hrow : p row = false) (rows : List ρ) :
    (upserted taken (fun _ => row) row rows).find? p = rows.find? p := by
  by_cases h : ∃ r ∈ rows, taken r
  · rw [upserted_of_taken h]
    clear h
    induction rows with
    | nil => rfl
    | cons r rows ih =>
      by_cases hr : taken r
      · simp [hr, hrow, htaken r hr, ih]
      · rw [List.map_cons, if_neg hr, List.find?_cons, List.find?_cons, ih]
  · push Not at h
    rw [upserted_of_free h, List.find?_append]
    simp [hrow]

/-! ### Unique keys -/

section Keys

variable {κ : Type w} [DecidableEq κ] {key : ρ → κ}

/-- The rows with the key of a row are that row. -/
theorem filter_eq_singleton {rows : List ρ} (hnodup : (rows.map key).Nodup) {r : ρ} (hr : r ∈ rows) :
    rows.filter (fun r' => key r' = key r) = [r] := by
  induction rows with
  | nil => simp at hr
  | cons a rows ih =>
    rw [List.map_cons, List.nodup_cons] at hnodup
    rcases List.mem_cons.mp hr with rfl | hr
    · have hrest : rows.filter (fun r' => key r' = key r) = [] := by
        rw [List.filter_eq_nil_iff]
        intro r' hr' he
        exact hnodup.1 (List.mem_map.mpr ⟨r', hr', of_decide_eq_true he⟩)
      rw [List.filter_cons_of_pos (by simp), hrest]
    · have hne : key a ≠ key r := fun he => hnodup.1 (List.mem_map.mpr ⟨r, hr, he.symm⟩)
      rw [List.filter_cons_of_neg (by simpa using hne)]
      exact ih hnodup.2 hr

/-- Looking up the key of a row finds the row. -/
theorem find?_eq_some_of_mem {rows : List ρ} (hnodup : (rows.map key).Nodup) {r : ρ} (hr : r ∈ rows) :
    rows.find? (fun r' => key r' = key r) = some r := by
  rw [← List.head?_filter, filter_eq_singleton hnodup hr]
  rfl

/-- Looking up a key among the rows with a property. -/
theorem find?_key_and {rows : List ρ} (hnodup : (rows.map key).Nodup) (k : κ) (q : ρ → Bool) :
    rows.find? (fun r => key r = k ∧ q r = true) = (rows.find? fun r => key r = k).filter q := by
  induction rows with
  | nil => rfl
  | cons a rows ih =>
    obtain ⟨hnew, hrest⟩ := List.nodup_cons.mp hnodup
    by_cases hk : key a = k
    · have hnone : rows.find? (fun r => key r = k ∧ q r = true) = none := by
        refine List.find?_eq_none.mpr fun r hr hboth => hnew ?_
        simp only [decide_eq_true_eq] at hboth
        exact List.mem_map.mpr ⟨r, hr, hboth.1.trans hk.symm⟩
      by_cases hq : q a = true
      · simp [hk, hq, Option.filter]
      · simpa [List.find?_cons, hk, hq, Option.filter] using hnone
    · simpa [List.find?_cons, hk] using ih hrest

/-- Rows with one key are one row. -/
theorem eq_of_key_eq {rows : List ρ} (hnodup : (rows.map key).Nodup) {r r' : ρ} (hr : r ∈ rows)
    (hr' : r' ∈ rows) (h : key r = key r') : r = r' := by
  have h₁ := find?_eq_some_of_mem hnodup hr
  rw [h, find?_eq_some_of_mem hnodup hr'] at h₁
  exact (Option.some.inj h₁).symm

/-- Among rows with unique keys, one row with a key and a property is the row with the key. -/
theorem countP_eq_one_iff {rows : List ρ} (hnodup : (rows.map key).Nodup) {k : κ} {p : ρ → Bool}
    (hp : ∀ r, p r = true → key r = k) :
    rows.countP p = 1 ↔ ∃ r, rows.find? (fun r => key r = k) = some r ∧ p r = true := by
  have hcount : rows.countP p = ((rows.filter fun r => key r = k).filter p).length := by
    rw [List.countP_eq_length_filter, List.filter_filter]
    congr 1
    refine List.filter_congr fun r _ => ?_
    by_cases hr : p r = true
    · simp [hr, hp r hr]
    · simp [hr]
  rw [hcount]
  cases hfind : rows.find? fun r => key r = k with
  | none =>
    have hempty : (rows.filter fun r => key r = k) = [] := by
      rw [List.filter_eq_nil_iff]
      exact fun r hr => by simpa using List.find?_eq_none.mp hfind r hr
    rw [hempty]
    simp
  | some r =>
    have hkey : key r = k := by simpa using List.find?_some hfind
    have hsingle := filter_eq_singleton hnodup (List.mem_of_find?_eq_some hfind)
    rw [hkey] at hsingle
    rw [hsingle]
    by_cases hr : p r = true
    · simp [hr]
    · simp [hr]

omit [DecidableEq κ] in
/-- Appending a row with a new key keeps the keys unique. -/
theorem nodup_concat {rows : List ρ} (hnodup : (rows.map key).Nodup) {row : ρ}
    (h : ∀ r ∈ rows, key r ≠ key row) : ((rows ++ [row]).map key).Nodup := by
  rw [List.map_append, List.map_singleton, ← List.concat_eq_append, List.nodup_concat]
  refine ⟨?_, hnodup⟩
  intro hm
  obtain ⟨r, hr, he⟩ := List.mem_map.mp hm
  exact h r hr he

end Keys

/-! ### Sums by owner -/

section Sums

variable {κ : Type w} [DecidableEq κ] {ο : Type*} {M : Type*} [AddCommMonoid M] {id : ο → κ}

/-- A value given to the one owner with a key. -/
theorem sum_ite_owner {owners : List ο} (hnodup : (owners.map id).Nodup) {k : κ} (h : ∃ o ∈ owners, id o = k)
    (x : M) : (owners.map fun o => if id o = k then x else 0).sum = x := by
  induction owners with
  | nil =>
    obtain ⟨o, ho, -⟩ := h
    cases ho
  | cons a owners ih =>
    rw [List.map_cons, List.nodup_cons] at hnodup
    rw [List.map_cons, List.sum_cons]
    by_cases ha : id a = k
    · have hrest : (owners.map fun o => if id o = k then x else 0).sum = 0 := by
        refine List.sum_eq_zero ?_
        intro y hy
        obtain ⟨o, ho, rfl⟩ := List.mem_map.mp hy
        rw [if_neg]
        intro he
        exact hnodup.1 (List.mem_map.mpr ⟨o, ho, he.trans ha.symm⟩)
      rw [if_pos ha, hrest, add_zero]
    · rw [if_neg ha, zero_add]
      refine ih hnodup.2 ?_
      obtain ⟨o, ho, he⟩ := h
      rcases List.mem_cons.mp ho with rfl | ho
      · exact absurd he ha
      · exact ⟨o, ho, he⟩

/-- If every row has an owner, the sum over the owners of the sums over their rows is the sum over
the rows. -/
theorem sum_by_owner {rows : List ρ} {owners : List ο} {key : ρ → κ} (hnodup : (owners.map id).Nodup)
    (h : ∀ r ∈ rows, ∃ o ∈ owners, id o = key r) (f : ρ → M) :
    (owners.map fun o => ((rows.filter fun r => key r = id o).map f).sum).sum = (rows.map f).sum := by
  induction rows with
  | nil => simp
  | cons r rows ih =>
    have hsplit : ∀ o, (((r :: rows).filter fun r' => key r' = id o).map f).sum =
        (if id o = key r then f r else 0) + ((rows.filter fun r' => key r' = id o).map f).sum := by
      intro o
      by_cases ho : key r = id o
      · rw [List.filter_cons_of_pos (by simpa using ho), List.map_cons, List.sum_cons, if_pos ho.symm]
      · rw [List.filter_cons_of_neg (by simpa using ho), if_neg (Ne.symm ho), zero_add]
    simp only [hsplit]
    rw [List.sum_map_add, sum_ite_owner hnodup (h r (List.mem_cons_self ..)), List.map_cons, List.sum_cons,
      ih fun r' hr' => h r' (List.mem_cons_of_mem _ hr')]

end Sums

end NanoDelta.Library.Table
