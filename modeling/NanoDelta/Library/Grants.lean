import Mathlib

/-!
# What is granted until it is ended

A history of events: an event may issue a grant for a key, or end grants that were issued before. `granted` keeps the grants
up to date event by event. `Stands` is what that is for: some event issued the grant, and no later event issued another one
for its key, or ended it. `granted_eq_some_iff` says that they agree.
-/

namespace NanoDelta.Library

universe u v w

section Grants

variable {ε : Type u} {κ : Type v} {γ : Type w} [DecidableEq κ]

/-- The grants after one more event. -/
def nextGrants (issues : ε → Option (κ × γ)) (ends : ε → κ → γ → Bool) (grants : κ → Option γ) (e : ε) : κ → Option γ :=
  fun k =>
    match (issues e).filter fun issued => issued.1 = k with
    | some issued => some issued.2
    | none => (grants k).filter fun g => !ends e k g

/-- The grants after a history, which has the last event last. -/
def granted (issues : ε → Option (κ × γ)) (ends : ε → κ → γ → Bool) (history : List ε) : κ → Option γ :=
  history.foldl (nextGrants issues ends) fun _ => none

/-- Some event issued the grant for the key, and no later one issued another for the key, or ended it. -/
def Stands (issues : ε → Option (κ × γ)) (ends : ε → κ → γ → Bool) (history : List ε) (k : κ) (g : γ) : Prop :=
  ∃ before e after, history = before ++ e :: after ∧ issues e = some (k, g) ∧
    ∀ e' ∈ after, ends e' k g = false ∧ ∀ g', issues e' ≠ some (k, g')

variable {issues : ε → Option (κ × γ)} {ends : ε → κ → γ → Bool} {grants : κ → Option γ} {e : ε} {k : κ} {g : γ}

@[simp] theorem granted_nil : granted issues ends [] k = none := rfl

theorem granted_concat (history : List ε) (e : ε) :
    granted issues ends (history ++ [e]) = nextGrants issues ends (granted issues ends history) e := by
  simp [granted]

theorem nextGrants_of_issues (h : issues e = some (k, g)) : nextGrants issues ends grants e k = some g := by
  simp [nextGrants, h, Option.filter]

theorem nextGrants_of_ne (h : ∀ g, issues e ≠ some (k, g)) :
    nextGrants issues ends grants e k = (grants k).filter fun g => !ends e k g := by
  have hnone : ((issues e).filter fun issued => issued.1 = k) = none := by
    cases he : issues e with
    | none => rfl
    | some issued =>
      obtain ⟨k', g'⟩ := issued
      have hne : k' ≠ k := fun hk => h g' (by rw [he, hk])
      simp [Option.filter, hne]
  simp [nextGrants, hnone]

/-- An event that issues nothing. -/
theorem nextGrants_of_none (h : issues e = none) :
    nextGrants issues ends grants e k = (grants k).filter fun g => !ends e k g :=
  nextGrants_of_ne (by simp [h])

/-- An event that does nothing. -/
theorem nextGrants_of_quiet (h : issues e = none) (hends : ∀ k g, ends e k g = false) :
    nextGrants issues ends grants e = grants := by
  funext k
  rw [nextGrants_of_none h]
  cases hk : grants k with
  | none => rfl
  | some g => simp [Option.filter, hends]

/-- **What is granted** is what was issued and stands. -/
theorem granted_eq_some_iff {history : List ε} :
    granted issues ends history k = some g ↔ Stands issues ends history k g := by
  induction history using List.reverseRecOn with
  | nil => simp [Stands]
  | append_singleton history e ih =>
    unfold Stands at ih ⊢
    rw [granted_concat]
    by_cases hissues : ∃ g', issues e = some (k, g')
    · obtain ⟨g', hg'⟩ := hissues
      rw [nextGrants_of_issues hg', Option.some.injEq]
      constructor
      · rintro rfl
        exact ⟨history, e, [], rfl, hg', by simp⟩
      · rintro ⟨before, e', after, heq, he', hafter⟩
        rcases List.eq_nil_or_concat after with rfl | ⟨after, last, rfl⟩
        · obtain ⟨-, hlast⟩ := List.append_inj' heq rfl
          rw [List.singleton_inj.mp hlast, he'] at hg'
          exact (Prod.mk.inj (Option.some.inj hg')).2.symm
        · have hsplit : history ++ [e] = (before ++ e' :: after) ++ [last] := by simpa using heq
          obtain ⟨-, hlast⟩ := List.append_inj' hsplit rfl
          rw [List.singleton_inj.mp hlast] at hg'
          exact absurd hg' ((hafter last (by simp)).2 g')
    · have hne : ∀ g', issues e ≠ some (k, g') := fun g' hg' => hissues ⟨g', hg'⟩
      rw [nextGrants_of_ne hne, Option.filter_eq_some_iff, ih]
      constructor
      · rintro ⟨⟨before, e', after, rfl, he', hafter⟩, hends⟩
        refine ⟨before, e', after ++ [e], by simp, he', List.forall_mem_append.mpr ⟨hafter, ?_⟩⟩
        simpa using ⟨by simpa using hends, hne⟩
      · rintro ⟨before, e', after, heq, he', hafter⟩
        rcases List.eq_nil_or_concat after with rfl | ⟨after, last, rfl⟩
        · obtain ⟨-, hlast⟩ := List.append_inj' heq rfl
          rw [← List.singleton_inj.mp hlast] at he'
          exact absurd he' (hne g)
        · have hsplit : history ++ [e] = (before ++ e' :: after) ++ [last] := by simpa using heq
          obtain ⟨rfl, hlast⟩ := List.append_inj' hsplit rfl
          rw [List.concat_eq_append] at hafter
          obtain ⟨hrest, hends⟩ := List.forall_mem_append.mp hafter
          rw [← List.singleton_inj.mp hlast] at hends
          exact ⟨⟨before, e', after, rfl, he', hrest⟩, by simpa using (hends e (by simp)).1⟩

end Grants

end NanoDelta.Library
