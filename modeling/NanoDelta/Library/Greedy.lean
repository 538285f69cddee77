import NanoDelta.Library.Effect

/-!
# Greedy choice

Items come one after the other, and an item is chosen if it is admissible against what is chosen so far. Nothing that is
chosen is dropped later.

* `Greedy`: the choice as a relation, from what is chosen before it to what is chosen after it.
* `Greedy.invariant`: what holds of the choice at every time. `Greedy.split`: an item is chosen, or it was not admissible
  against what was chosen from the items before it.
-/

namespace NanoDelta.Library

universe u v

variable {α : Type u} {β : Type v}

/-- The items of the second list, in order, take the first choice to the last: an item is made part of the choice if it
is admissible, and left out if it is not. -/
inductive Greedy (ok : List α → β → Prop) (make : β → α) : List α → List β → List α → Prop where
  | nil (chosen : List α) : Greedy ok make chosen [] chosen
  | take {chosen result : List α} {item : β} {items : List β} (hok : ok chosen item)
    (hrest : Greedy ok make (chosen ++ [make item]) items result) : Greedy ok make chosen (item :: items) result
  | skip {chosen result : List α} {item : β} {items : List β} (hno : ¬ ok chosen item)
    (hrest : Greedy ok make chosen items result) : Greedy ok make chosen (item :: items) result

namespace Greedy

variable {ok : List α → β → Prop} {make : β → α} {chosen result : List α} {item : β} {items items' : List β}

/-- **What holds of the choice**: what an admissible item keeps. -/
theorem invariant {P : List α → Prop} (hstep : ∀ chosen item, P chosen → ok chosen item → P (chosen ++ [make item]))
    (h : Greedy ok make chosen items result) (hstart : P chosen) : P result := by
  induction h with
  | nil chosen => exact hstart
  | take hok _ ih => exact ih (hstep _ _ hstart hok)
  | skip _ _ ih => exact ih hstart

/-- The choice only grows, by items in their order. -/
theorem exists_sublist (h : Greedy ok make chosen items result) :
    ∃ taken : List β, taken.Sublist items ∧ result = chosen ++ taken.map make := by
  induction h with
  | nil chosen => exact ⟨[], .slnil, (List.append_nil _).symm⟩
  | @take chosen result item items _ _ ih =>
    obtain ⟨taken, hsub, heq⟩ := ih
    refine ⟨item :: taken, hsub.cons_cons item, ?_⟩
    rw [heq, List.append_assoc, List.map_cons, List.singleton_append]
  | @skip chosen result item items _ _ ih =>
    obtain ⟨taken, hsub, heq⟩ := ih
    exact ⟨taken, hsub.cons item, heq⟩

/-- The items after some others go on with what is chosen from those. -/
theorem append_iff : Greedy ok make chosen (items ++ items') result ↔
    ∃ between, Greedy ok make chosen items between ∧ Greedy ok make between items' result := by
  constructor
  · intro h
    induction items generalizing chosen with
    | nil => exact ⟨chosen, .nil chosen, h⟩
    | cons item items ih =>
      cases h with
      | take hok hrest =>
        obtain ⟨between, hbefore, hafter⟩ := ih hrest
        exact ⟨between, .take hok hbefore, hafter⟩
      | skip hno hrest =>
        obtain ⟨between, hbefore, hafter⟩ := ih hrest
        exact ⟨between, .skip hno hbefore, hafter⟩
  · rintro ⟨between, hbefore, hafter⟩
    induction hbefore with
    | nil chosen => exact hafter
    | take hok _ ih => exact .take hok (ih hafter)
    | skip hno _ ih => exact .skip hno (ih hafter)

/-- **Maximality**: an item is chosen right after what was chosen from the items before it, or it was not admissible
against that, and the choice goes on with the items after it. -/
theorem split (h : Greedy ok make chosen (items ++ item :: items') result) :
    ∃ before after : List β, before.Sublist items ∧ after.Sublist items' ∧
      (result = chosen ++ before.map make ++ make item :: after.map make ∨
        ¬ ok (chosen ++ before.map make) item ∧ result = chosen ++ before.map make ++ after.map make) := by
  obtain ⟨between, hbefore, hafter⟩ := append_iff.mp h
  obtain ⟨before, hsub, rfl⟩ := hbefore.exists_sublist
  cases hafter with
  | take _ hrest =>
    obtain ⟨after, hsub', heq⟩ := hrest.exists_sublist
    refine ⟨before, after, hsub, hsub', Or.inl ?_⟩
    rw [heq, List.append_assoc _ [make item], List.singleton_append]
  | skip hno hrest =>
    obtain ⟨after, hsub', heq⟩ := hrest.exists_sublist
    exact ⟨before, after, hsub, hsub', Or.inr ⟨hno, heq⟩⟩

/-- A loop that chooses: its variables have the choice and what it goes by. -/
theorem of_foldlM {γ ε σ : Type v} {f : γ → β → EStateM ε σ γ} {view : γ → List α} {P : γ → Prop}
    (hstep : ∀ c item s c' s', P c → f c item s = .ok c' s' → P c' ∧
      (ok (view c) item ∧ view c' = view c ++ [make item] ∨ ¬ ok (view c) item ∧ view c' = view c))
    {c c' : γ} {s s' : σ} (hstart : P c) (h : items.foldlM f c s = .ok c' s') :
    Greedy ok make (view c) items (view c') := by
  induction items generalizing c s with
  | nil =>
    cases h
    exact .nil _
  | cons item items ih =>
    rw [List.foldlM_cons] at h
    obtain ⟨c₁, s₁, hfirst, h⟩ := Effect.bind_eq_ok.mp h
    obtain ⟨hkept, ⟨hok, hview⟩ | ⟨hno, hview⟩⟩ := hstep c item s c₁ s₁ hstart hfirst
    · exact .take hok (hview ▸ ih hkept h)
    · exact .skip hno (hview ▸ ih hkept h)

end Greedy

end NanoDelta.Library
