import Mathlib.Algebra.Order.BigOperators.Group.List
import Mathlib.Algebra.Order.Group.Nat
import Mathlib.Data.List.DropRight

/-!
# Normal forms

A list without the items at its ends that satisfy a predicate, and maps that make smaller what they change.

* `trim_trim`: nothing is trimmed twice.
* `fixed_of_covered`: such a map changes nothing in a list that it covers.
-/

namespace NanoDelta.Library

universe u

variable {α : Type u}

/-! ### Both ends -/

section Trim

variable {p : α → Bool} {as : List α}

/-- A list without the items at its ends that satisfy `p`. -/
def trim (p : α → Bool) (as : List α) : List α := (as.dropWhile p).rdropWhile p

theorem isPrefix_trim : trim p as <+: as.dropWhile p := List.rdropWhile_prefix p _

theorem isInfix_trim : trim p as <:+: as := isPrefix_trim.isInfix.trans (List.dropWhile_suffix p).isInfix

/-- It begins with another item, if with any. -/
theorem head_trim {a : α} {rest : List α} (h : trim p as = a :: rest) : p a = false := by
  obtain ⟨dropped, hdrop⟩ : trim p as <+: as.dropWhile p := isPrefix_trim
  rw [h, List.cons_append] at hdrop
  have hnot := List.head?_dropWhile_not p as
  rw [← hdrop] at hnot
  exact hnot

/-- What begins with another item is not trimmed away, and still begins with it. -/
theorem trim_cons {a : α} (ha : p a = false) : ∃ rest, trim p (a :: as) = a :: rest := by
  have hdrop : (a :: as).dropWhile p = a :: as := List.dropWhile_cons_of_neg (by simp [ha])
  obtain ⟨dropped, hsplit⟩ : trim p (a :: as) <+: (a :: as).dropWhile p := isPrefix_trim
  rw [hdrop] at hsplit
  cases htrim : trim p (a :: as) with
  | nil =>
    rw [trim, hdrop, List.rdropWhile_eq_nil_iff] at htrim
    rw [htrim a (List.mem_cons_self ..)] at ha
    cases ha
  | cons b rest =>
    rw [htrim, List.cons_append] at hsplit
    exact ⟨rest, by rw [(List.cons.inj hsplit).1]⟩

@[simp] theorem trim_trim : trim p (trim p as) = trim p as := by
  cases htrim : trim p as with
  | nil => rfl
  | cons a rest =>
    rw [trim, List.dropWhile_cons_of_neg (by simp [head_trim htrim]), ← htrim]
    exact List.rdropWhile_idempotent p _

end Trim

/-! ### Maps that make smaller -/

/-- A map that makes what it changes smaller changes nothing in a list that it covers. -/
theorem fixed_of_covered {f : α → α} (size : α → ℕ) {as : List α}
    (hsize : ∀ a ∈ as, f a ≠ a → size (f a) < size a) (hcovered : ∀ a ∈ as, ∃ b ∈ as, f b = a) :
    ∀ a ∈ as, f a = a := by
  -- whatever is sent to an item that is changed is changed too, and larger
  have hlarger : ∀ n, ∀ a ∈ as, f a ≠ a → ∃ b ∈ as, f b ≠ b ∧ size a + n ≤ size b := by
    intro n
    induction n with
    | zero => exact fun a ha hne => ⟨a, ha, hne, le_refl _⟩
    | succ n ih =>
      intro a ha hne
      obtain ⟨b, hb, hneb, hle⟩ := ih a ha hne
      obtain ⟨c, hc, rfl⟩ := hcovered b hb
      have hnec : f c ≠ c := fun h => hneb (congrArg f h)
      exact ⟨c, hc, hnec, by have := hsize c hc hnec; omega⟩
  intro a ha
  by_contra hne
  obtain ⟨b, hb, -, hle⟩ := hlarger ((as.map size).sum + 1) a ha hne
  have := List.single_le_sum (fun n _ => Nat.zero_le n) _ (List.mem_map_of_mem (f := size) hb)
  omega

end NanoDelta.Library
