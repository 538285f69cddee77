import Mathlib.Data.List.Basic

/-!
# Locks

Who holds each lock, as a function of the lock. A party takes several locks at once if none of them is held by another,
and gives back all it holds when its transaction ends. That no two parties hold one lock is part of the type; the rules
say what taking and giving back change.
-/

namespace NanoDelta.Library

universe u v

/-- The holder of each lock, if it is held. -/
abbrev Locks (κ : Type u) (π : Type v) := κ → Option π

namespace Locks

variable {κ : Type u} {π : Type v} {locks : Locks κ π} {keys : List κ} {p q : π} {k : κ}

/-- No lock is held. -/
def free : Locks κ π := fun _ => none

/-- None of the locks is held by another party than `p`. -/
def Available (locks : Locks κ π) (keys : List κ) (p : π) : Prop := ∀ k ∈ keys, ∀ q ∈ locks k, q = p

section Take

variable [DecidableEq κ]

/-- The locks after `p` has taken some. -/
def take (locks : Locks κ π) (keys : List κ) (p : π) : Locks κ π := fun k => if k ∈ keys then some p else locks k

theorem take_of_mem (h : k ∈ keys) : locks.take keys p k = some p := if_pos h

/-- A lock that another party holds stays its own. -/
theorem take_of_held (h : locks.Available keys p) (hq : locks k = some q) : locks.take keys p k = some q := by
  unfold take
  split_ifs with hk
  · rw [h k hk q hq]
  · exact hq

end Take

section Release

variable [DecidableEq π]

instance : Decidable (Available locks keys p) := List.decidableBAll ..

/-- The locks after `p` has given back all that it holds. -/
def release (locks : Locks κ π) (p : π) : Locks κ π := fun k => if locks k = some p then none else locks k

theorem release_of_ne (h : q ≠ p) : locks.release p k = some q ↔ locks k = some q := by
  unfold release
  split_ifs with hp
  · simp [hp, h.symm]
  · rfl

end Release

end Locks

end NanoDelta.Library
