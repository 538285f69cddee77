import Mathlib.Data.List.Basic

/-!
# Lists that are split at a separator

Lists joined by a separator that they may contain, none of them blank. `sole_split_iff`: the joined list has no other
split of as many parts exactly if no separator inside a part can be taken for the one after it or before it, since what
it would leave of the part is blank.
-/

namespace NanoDelta.Library

variable {α : Type*} {sep : α} {blank : α → Prop}

/-- All items are blank. -/
def AllBlank (blank : α → Prop) (as : List α) : Prop := ∀ c ∈ as, blank c

/-- What is before a separator in the list is blank. -/
def BlankBefore (sep : α) (blank : α → Prop) (as : List α) : Prop :=
  ∀ before after, as = before ++ sep :: after → AllBlank blank before

/-- What is after a separator in the list is blank. -/
def BlankAfter (sep : α) (blank : α → Prop) (as : List α) : Prop :=
  ∀ before after, as = before ++ sep :: after → AllBlank blank after

theorem AllBlank.of_append_right {as bs : List α} (h : AllBlank blank (as ++ bs)) : AllBlank blank bs :=
  fun c hc => h c (List.mem_append_right _ hc)

theorem AllBlank.of_append_left {as bs : List α} (h : AllBlank blank (as ++ bs)) : AllBlank blank as :=
  fun c hc => h c (List.mem_append_left _ hc)

/-- A list without a separator. -/
theorem blankBefore_of_notMem {as : List α} (h : sep ∉ as) : BlankBefore sep blank as := by
  rintro before after rfl
  simp at h

theorem blankAfter_of_notMem {as : List α} (h : sep ∉ as) : BlankAfter sep blank as := by
  rintro before after rfl
  simp at h

/-! ### One split -/

/-- **The split of a joined list**, after what an earlier part of the other split has left of it, `w`: that is nothing,
and the parts are the same. -/
theorem eq_of_intercalate {as bs : List (List α)} {w : List α} (hlength : as.length = bs.length)
    (hw : w = [] ∨ ∃ u, w = u ++ [sep]) (heq : [sep].intercalate as = w ++ [sep].intercalate bs)
    (hblank : ∀ b ∈ bs, ¬ AllBlank blank b) (hbefore : ∀ a ∈ as.dropLast, BlankBefore sep blank a)
    (hafter : ∀ a ∈ as.tail, BlankAfter sep blank a) (hfirst : w ≠ [] → ∀ a ∈ as, BlankAfter sep blank a) :
    w = [] ∧ as = bs := by
  induction as generalizing bs w with
  | nil =>
    obtain rfl := List.length_eq_zero_iff.mp hlength.symm
    exact ⟨by simpa using heq, rfl⟩
  | cons a as ih =>
    obtain ⟨b, bs, rfl⟩ := List.exists_cons_of_length_eq_add_one hlength.symm
    have hlength' : as.length = bs.length := by simpa using hlength
    obtain ⟨hb, hbs⟩ := List.forall_mem_cons.mp hblank
    -- the first part is not longer than that of the other split
    have hnone (hsame : a = w ++ b) : w = [] := by
      rcases hw with hw | ⟨u, rfl⟩
      · exact hw
      · refine absurd (hfirst (by simp) a (List.mem_cons_self ..) u b ?_) hb
        rw [hsame, List.append_assoc]
        rfl
    cases as with
    | nil =>
      obtain rfl := List.length_eq_zero_iff.mp hlength'.symm
      have hsame : a = w ++ b := by simpa using heq
      obtain rfl := hnone hsame
      exact ⟨rfl, by rw [hsame]; rfl⟩
    | cons a' as =>
      obtain ⟨b', bs, rfl⟩ := List.exists_cons_of_length_eq_add_one hlength'.symm
      have hbefore' : ∀ a ∈ (a' :: as).dropLast, BlankBefore sep blank a :=
        fun a ha => hbefore a (List.mem_cons_of_mem _ ha)
      have hafter' : ∀ a ∈ (a' :: as).tail, BlankAfter sep blank a :=
        fun a ha => hafter a (List.mem_cons_of_mem _ ha)
      rw [List.intercalate_cons_cons, List.intercalate_cons_cons, List.append_assoc, List.append_assoc,
        ← List.append_assoc w, List.singleton_append, List.singleton_append] at heq
      rcases List.append_eq_append_iff.mp heq with ⟨e, hlonger, hrest⟩ | ⟨e, hshorter, hrest⟩
      · cases e with
        | nil =>
          -- the first parts end at the same place
          rw [List.append_nil] at hlonger
          rw [List.nil_append] at hrest
          obtain rfl := hnone hlonger.symm
          obtain ⟨-, hparts⟩ := ih hlength' (Or.inl rfl) (List.cons.inj hrest).2 hbs hbefore' hafter'
            (fun h => absurd rfl h)
          exact ⟨rfl, by rw [hparts, ← hlonger]; rfl⟩
        | cons c e =>
          -- the other split goes on, and the later parts start with what it leaves of them
          obtain ⟨rfl, hlater⟩ := List.cons.inj hrest
          have hleft : [sep].intercalate (a' :: as) = (e ++ [sep]) ++ [sep].intercalate (b' :: bs) := by
            rw [hlater, List.append_assoc]
            rfl
          obtain ⟨hnil, -⟩ := ih hlength' (Or.inr ⟨e, rfl⟩) hleft hbs hbefore' hafter' (fun _ => hafter)
          simp at hnil
      · cases e with
        | nil =>
          rw [List.append_nil] at hshorter
          rw [List.nil_append] at hrest
          obtain rfl := hnone hshorter
          obtain ⟨-, hparts⟩ := ih hlength' (Or.inl rfl) (List.cons.inj hrest).2.symm hbs hbefore' hafter'
            (fun h => absurd rfl h)
          exact ⟨rfl, by rw [hparts, hshorter]; rfl⟩
        | cons c e =>
          -- the other split ends before a separator in the first part
          obtain ⟨rfl, -⟩ := List.cons.inj hrest
          have hblankPart : AllBlank blank (w ++ b) := hbefore a (by simp) _ _ hshorter
          exact absurd hblankPart.of_append_right hb

/-! ### Another split -/

/-- The boundary between two parts, at an earlier separator. -/
theorem intercalate_earlier (xs : List (List α)) (before after a : List α) (ys : List (List α)) :
    [sep].intercalate (xs ++ before :: (after ++ sep :: a) :: ys) =
      [sep].intercalate (xs ++ (before ++ sep :: after) :: a :: ys) := by
  have hlast : [sep].intercalate ((after ++ sep :: a) :: ys) = after ++ sep :: [sep].intercalate (a :: ys) := by
    cases ys <;> simp [List.intercalate_cons_cons]
  induction xs with
  | nil => simp [List.intercalate_cons_cons, hlast]
  | cons x xs ih =>
    rw [List.cons_append, List.cons_append, List.intercalate_cons_of_ne_nil (by simp),
      List.intercalate_cons_of_ne_nil (by simp), ih]

/-- A part that is not the last has one after it. -/
theorem exists_after {as : List (List α)} {a : List α} (h : a ∈ as.dropLast) :
    ∃ xs a' ys, as = xs ++ a :: a' :: ys := by
  obtain ⟨xs, ys, hsplit⟩ := List.append_of_mem h
  have hne : as ≠ [] := by
    rintro rfl
    cases h
  have has : as = xs ++ a :: (ys ++ [as.getLast hne]) := by
    rw [← List.cons_append, ← List.append_assoc, ← hsplit, List.dropLast_append_getLast]
  cases ys with
  | nil => exact ⟨xs, as.getLast hne, [], has⟩
  | cons y ys => exact ⟨xs, y, ys ++ [as.getLast hne], has⟩

/-- A part that is not the first has one before it. -/
theorem exists_before {as : List (List α)} {a' : List α} (h : a' ∈ as.tail) :
    ∃ xs a ys, as = xs ++ a :: a' :: ys := by
  obtain ⟨xs, ys, hsplit⟩ := List.append_of_mem h
  cases as with
  | nil => cases h
  | cons a as =>
    rw [List.tail_cons] at hsplit
    rcases List.eq_nil_or_concat xs with rfl | ⟨xs, x, rfl⟩
    · exact ⟨[], a, ys, by rw [hsplit]; rfl⟩
    · exact ⟨a :: xs, x, ys, by rw [hsplit]; simp⟩

/-- **A joined list has no other split** of as many parts that are not blank exactly if what is before a separator in a
part that is not the last is blank, and what is after one in a part that is not the first. -/
theorem sole_split_iff {as : List (List α)} (hblank : ∀ a ∈ as, ¬ AllBlank blank a) :
    (∀ bs : List (List α), bs.length = as.length → (∀ b ∈ bs, ¬ AllBlank blank b) →
        [sep].intercalate bs = [sep].intercalate as → bs = as) ↔
      (∀ a ∈ as.dropLast, BlankBefore sep blank a) ∧ ∀ a ∈ as.tail, BlankAfter sep blank a := by
  constructor
  · intro hsole
    -- the parts on the two sides of a boundary, at another separator
    have hmoved {xs ys : List (List α)} {a a' b b' : List α} (has : as = xs ++ a :: a' :: ys) (hb : ¬ AllBlank blank b)
        (hb' : ¬ AllBlank blank b')
        (heq : [sep].intercalate (xs ++ b :: b' :: ys) = [sep].intercalate (xs ++ a :: a' :: ys)) : b = a := by
      have hsame := hsole (xs ++ b :: b' :: ys) (by simp [has]) ?_ (has ▸ heq)
      · rw [has] at hsame
        exact (List.cons.inj (List.append_cancel_left hsame)).1
      · intro c hc
        rcases List.mem_append.mp hc with hc | hc
        · exact hblank c (has ▸ List.mem_append_left _ hc)
        · rcases List.mem_cons.mp hc with rfl | hc
          · exact hb
          · rcases List.mem_cons.mp hc with rfl | hc
            · exact hb'
            · exact hblank c (has ▸ List.mem_append_right _ (List.mem_cons_of_mem _ (List.mem_cons_of_mem _ hc)))
    constructor
    · rintro a ha before after rfl
      by_contra hbefore
      obtain ⟨xs, a', ys, has⟩ := exists_after ha
      have ha' : ¬ AllBlank blank a' := hblank a' (by simp [has])
      have hsame := hmoved has hbefore (fun h => ha' fun c hc => h c (by simp [hc]))
        (intercalate_earlier xs before after a' ys)
      simp at hsame
    · rintro a' ha' before after rfl
      by_contra hafter
      obtain ⟨xs, a, ys, has⟩ := exists_before ha'
      have ha : ¬ AllBlank blank a := hblank a (by simp [has])
      have hsame := hmoved has (fun h => ha h.of_append_left) hafter (intercalate_earlier xs a before after ys).symm
      simp at hsame
  · rintro ⟨hbefore, hafter⟩ bs hlength hbs heq
    exact (eq_of_intercalate hlength.symm (Or.inl rfl) heq.symm hbs hbefore hafter (fun h => absurd rfl h)).2.symm

end NanoDelta.Library
