import Mathlib.Data.List.Basic

/-!
# Machines and their runs

A `Machine` takes an input in a state and gives the next state and an output. A
run feeds it a list of inputs. The rules here are the ones a development about
runs needs: an invariant of the steps holds after every run, with or without a
condition that each step of the run meets; inputs that change nothing can be left
out of a run; and two machines whose steps stay related give related runs.
-/

namespace NanoDelta.Library

universe u v w u' v'

/-- A machine: one step, from a state and an input to the next state and an output. -/
structure Machine (σ : Type u) (ι : Type v) (ο : Type w) where
  /-- One step. -/
  step : σ → ι → σ × ο

namespace Machine

variable {σ : Type u} {ι : Type v} {ο : Type w} (M : Machine σ ι ο)

/-- The state after a run. -/
def exec : σ → List ι → σ
  | s, [] => s
  | s, i :: is => exec (M.step s i).1 is

/-- The outputs of a run, in order. -/
def outputs : σ → List ι → List ο
  | _, [] => []
  | s, i :: is => (M.step s i).2 :: outputs (M.step s i).1 is

/-- Every step of the run meets the condition `C` on its input and the state before it. -/
def Along (C : σ → ι → Prop) : σ → List ι → Prop
  | _, [] => True
  | s, i :: is => C s i ∧ Along C (M.step s i).1 is

instance Along.decidable {C : σ → ι → Prop} [∀ s i, Decidable (C s i)] :
    ∀ (s : σ) (is : List ι), Decidable (M.Along C s is)
  | _, [] => isTrue trivial
  | s, i :: is => @instDecidableAnd _ _ _ (Along.decidable (M.step s i).1 is)

@[simp] theorem exec_nil (s : σ) : M.exec s [] = s := rfl

@[simp] theorem exec_cons (s : σ) (i : ι) (is : List ι) : M.exec s (i :: is) = M.exec (M.step s i).1 is := rfl

theorem exec_append (s : σ) (is js : List ι) : M.exec s (is ++ js) = M.exec (M.exec s is) js := by
  induction is generalizing s with
  | nil => rfl
  | cons i is ih => exact ih _

theorem exec_concat (s : σ) (is : List ι) (i : ι) : M.exec s (is ++ [i]) = (M.step (M.exec s is) i).1 :=
  M.exec_append s is [i]

theorem outputs_append (s : σ) (is js : List ι) :
    M.outputs s (is ++ js) = M.outputs s is ++ M.outputs (M.exec s is) js := by
  induction is generalizing s with
  | nil => rfl
  | cons i is ih => exact congrArg _ (ih _)

theorem outputs_concat (s : σ) (is : List ι) (i : ι) :
    M.outputs s (is ++ [i]) = M.outputs s is ++ [(M.step (M.exec s is) i).2] :=
  M.outputs_append s is [i]

theorem length_outputs (s : σ) (is : List ι) : (M.outputs s is).length = is.length := by
  induction is generalizing s with
  | nil => rfl
  | cons i is ih => exact congrArg Nat.succ (ih _)

variable {M}

/-- Where an item of the outputs comes from, if each output is a list. -/
theorem exists_of_flatten_outputs {M : Machine σ ι (List ο)} {s : σ} {is : List ι} {before after : List ο} {o : ο}
    (h : (M.outputs s is).flatten = before ++ o :: after) :
    ∃ is₁ i is₂ os₁ os₂, is = is₁ ++ i :: is₂ ∧ (M.step (M.exec s is₁) i).2 = os₁ ++ o :: os₂ ∧
      before = (M.outputs s is₁).flatten ++ os₁ := by
  induction is generalizing s before with
  | nil => simp [outputs] at h
  | cons i is ih =>
    rw [outputs, List.flatten_cons] at h
    rcases List.append_eq_append_iff.mp h with ⟨rest, rfl, hrest⟩ | ⟨rest, hfirst, hrest⟩
    · obtain ⟨is₁, j, is₂, os₁, os₂, rfl, hstep, rfl⟩ := ih hrest
      refine ⟨i :: is₁, j, is₂, os₁, os₂, rfl, hstep, ?_⟩
      rw [outputs, List.flatten_cons, List.append_assoc]
    · cases rest with
      | nil =>
        have hnil : (M.outputs (M.step s i).1 is).flatten = [] ++ o :: after := hrest.symm
        obtain ⟨is₁, j, is₂, os₁, os₂, rfl, hstep, hbefore⟩ := ih hnil
        refine ⟨i :: is₁, j, is₂, os₁, os₂, rfl, hstep, ?_⟩
        rw [outputs, List.flatten_cons, List.append_assoc, ← hbefore, hfirst, List.append_nil, List.append_nil]
      | cons o' rest =>
        obtain ⟨rfl, -⟩ := List.cons.inj hrest
        exact ⟨[], i, is, before, rest, rfl, hfirst, rfl⟩

/-- A condition on the inputs alone is met along every run of inputs that meet it. -/
theorem along_of_forall {C : ι → Prop} {is : List ι} (h : ∀ i ∈ is, C i) (s : σ) :
    M.Along (fun _ => C) s is := by
  induction is generalizing s with
  | nil => trivial
  | cons i is ih =>
    exact ⟨h i (List.mem_cons_self ..), ih (fun j hj => h j (List.mem_cons_of_mem _ hj)) _⟩

/-- **Invariants**, with a condition on the steps: what every step that meets `C` preserves
holds after a run all of whose steps meet `C`. -/
theorem exec_invariant_along {C : σ → ι → Prop} {P : σ → Prop}
    (hstep : ∀ s i, P s → C s i → P (M.step s i).1) {s : σ} (hs : P s) {is : List ι}
    (hC : M.Along C s is) : P (M.exec s is) := by
  induction is generalizing s with
  | nil => exact hs
  | cons i is ih => exact ih (hstep s i hs hC.1) hC.2

/-- **Conditions along a run**: with an invariant that a step preserves if it meets `C`, every step meets `D`. -/
theorem along_of_invariant {C D : σ → ι → Prop} {P : σ → Prop}
    (hstep : ∀ s i, P s → C s i → D s i ∧ P (M.step s i).1) {s : σ} (hs : P s) {is : List ι}
    (hC : M.Along C s is) : M.Along D s is := by
  induction is generalizing s with
  | nil => trivial
  | cons i is ih =>
    obtain ⟨hD, hs'⟩ := hstep s i hs hC.1
    exact ⟨hD, ih hs' hC.2⟩

/-- **Invariants**: what every step preserves holds after every run. -/
theorem exec_invariant {P : σ → Prop} (hstep : ∀ s i, P s → P (M.step s i).1) {s : σ} (hs : P s)
    (is : List ι) : P (M.exec s is) := by
  induction is generalizing s with
  | nil => exact hs
  | cons i is ih => exact ih (hstep s i hs)

/-- **Equivalent conditions**: two conditions that say the same wherever an invariant holds are met along the same runs. -/
theorem along_congr {C D : σ → ι → Prop} {P : σ → Prop} (hstep : ∀ s i, P s → P (M.step s i).1)
    (h : ∀ s i, P s → (C s i ↔ D s i)) {s : σ} (hs : P s) (is : List ι) : M.Along C s is ↔ M.Along D s is := by
  induction is generalizing s with
  | nil => exact Iff.rfl
  | cons i is ih => exact and_congr (h s i hs) (ih (hstep s i hs))

/-- **What holds in every state of a run**: a property holds after every step just if every step meets `C`, if this is
so for one step that meets `A` from a state with `R`, and a step that meets `C` keeps `R`. -/
theorem along_next_iff_of {A C : σ → ι → Prop} {P R : σ → Prop}
    (h : ∀ s i, R s → A s i → (P (M.step s i).1 ↔ C s i) ∧ (C s i → R (M.step s i).1)) {s : σ} (hR : R s) {is : List ι}
    (hA : M.Along A s is) : M.Along (fun s i => P (M.step s i).1) s is ↔ M.Along C s is := by
  induction is generalizing s with
  | nil => exact Iff.rfl
  | cons i is ih =>
    obtain ⟨hiff, hnext⟩ := h s i hR hA.1
    constructor
    · rintro ⟨hP, hrest⟩
      exact ⟨hiff.mp hP, (ih (hnext (hiff.mp hP)) hA.2).mp hrest⟩
    · rintro ⟨hC, hrest⟩
      exact ⟨hiff.mpr hC, (ih (hnext hC) hA.2).mpr hrest⟩

/-- It is so, too, for a step from a state with the property itself and with an invariant. -/
theorem along_next_iff {A C : σ → ι → Prop} {P Q : σ → Prop} (hinv : ∀ s i, Q s → Q (M.step s i).1)
    (h : ∀ s i, Q s → P s → A s i → (P (M.step s i).1 ↔ C s i)) {s : σ} (hQ : Q s) (hP : P s) {is : List ι}
    (hA : M.Along A s is) : M.Along (fun s i => P (M.step s i).1) s is ↔ M.Along C s is := by
  refine along_next_iff_of (R := fun s => Q s ∧ P s) (fun s i hR hAi => ?_) ⟨hQ, hP⟩ hA
  have hstep := h s i hR.1 hR.2 hAi
  exact ⟨hstep, fun hC => ⟨hinv s i hR.1, hstep.mpr hC⟩⟩

/-! ### Leaving out the inputs that change nothing -/

variable (M) in
/-- The inputs of a run whose output does not satisfy `q`. -/
def keep (q : ο → Bool) : σ → List ι → List ι
  | _, [] => []
  | s, i :: is =>
    if q (M.step s i).2 then keep q (M.step s i).1 is else i :: keep q (M.step s i).1 is

section Keep

variable {q : ο → Bool} (hq : ∀ s i, q (M.step s i).2 = true → (M.step s i).1 = s)

include hq

/-- If the steps whose output satisfies `q` change nothing, a run ends where it ends without them. -/
theorem exec_keep (s : σ) (is : List ι) : M.exec s (M.keep q s is) = M.exec s is := by
  induction is generalizing s with
  | nil => rfl
  | cons i is ih =>
    by_cases h : q (M.step s i).2 = true
    · simp only [keep, h, if_true, exec_cons]
      rw [hq s i h, ih]
    · simp only [keep, h, exec_cons]
      exact ih _

/-- The other steps give the same outputs without them. -/
theorem outputs_keep (s : σ) (is : List ι) :
    M.outputs s (M.keep q s is) = (M.outputs s is).filter fun o => !q o := by
  induction is generalizing s with
  | nil => rfl
  | cons i is ih =>
    by_cases h : q (M.step s i).2 = true
    · simp only [keep, outputs, h, if_true, Bool.not_true, List.filter_cons, Bool.false_eq_true, if_false]
      rw [hq s i h, ih]
    · simp only [keep, outputs, h, List.filter_cons, Bool.not_false, if_true, Bool.false_eq_true,
        if_false, ih]

end Keep

/-! ### Seeing less of the outputs -/

/-- The machine, with its outputs seen through `g`. -/
def observe {ξ : Type u'} (M : Machine σ ι ο) (g : ο → ξ) : Machine σ ι ξ where
  step s i := ((M.step s i).1, g (M.step s i).2)

theorem exec_observe {ξ : Type u'} (g : ο → ξ) (s : σ) (is : List ι) : (M.observe g).exec s is = M.exec s is := by
  induction is generalizing s with
  | nil => rfl
  | cons i is ih => exact ih _

theorem outputs_observe {ξ : Type u'} (g : ο → ξ) (s : σ) (is : List ι) :
    (M.observe g).outputs s is = (M.outputs s is).map g := by
  induction is generalizing s with
  | nil => rfl
  | cons i is ih => exact congrArg _ (ih _)

theorem along_observe {ξ : Type u'} (g : ο → ξ) {C : σ → ι → Prop} {s : σ} {is : List ι} :
    (M.observe g).Along C s is ↔ M.Along C s is := by
  induction is generalizing s with
  | nil => exact Iff.rfl
  | cons i is ih => exact and_congr_right fun _ => ih

/-! ### Simulation -/

/-- **Simulation**, with a condition on the steps: if related states go to related states with
the same output, then so do related runs. -/
theorem simulation_along {τ : Type u'} {κ : Type v'} {N : Machine τ κ ο} (f : ι → κ) {C : σ → ι → Prop}
    {R : σ → τ → Prop}
    (hstep : ∀ s t i, R s t → C s i →
      R (M.step s i).1 (N.step t (f i)).1 ∧ (M.step s i).2 = (N.step t (f i)).2)
    {s : σ} {t : τ} (hR : R s t) {is : List ι} (hC : M.Along C s is) :
    R (M.exec s is) (N.exec t (is.map f)) ∧ M.outputs s is = N.outputs t (is.map f) := by
  induction is generalizing s t with
  | nil => exact ⟨hR, rfl⟩
  | cons i is ih =>
    obtain ⟨hR', ho⟩ := hstep s t i hR hC.1
    obtain ⟨hR'', ho'⟩ := ih hR' hC.2
    refine ⟨hR'', ?_⟩
    simp only [outputs, List.map_cons, ho, ho']

/-- **Exact refinement**: if from related states the outputs of a step are the same just if it meets `C`, and such a step
leads to related states, then two runs have the same outputs just if every step of the second one meets `C`. -/
theorem outputs_eq_iff {τ : Type u'} {N : Machine τ ι ο} {C : τ → ι → Prop} {R : σ → τ → Prop}
    (hout : ∀ s t i, R s t → ((M.step s i).2 = (N.step t i).2 ↔ C t i))
    (hnext : ∀ s t i, R s t → C t i → R (M.step s i).1 (N.step t i).1) {s : σ} {t : τ} (hR : R s t) (is : List ι) :
    M.outputs s is = N.outputs t is ↔ N.Along C t is := by
  induction is generalizing s t with
  | nil => exact iff_of_true rfl trivial
  | cons i is ih =>
    constructor
    · intro h
      obtain ⟨hfirst, hrest⟩ := List.cons.inj h
      have hC := (hout s t i hR).mp hfirst
      exact ⟨hC, (ih (hnext s t i hR hC)).mp hrest⟩
    · rintro ⟨hC, hrest⟩
      exact congrArg₂ List.cons ((hout s t i hR).mpr hC) ((ih (hnext s t i hR hC)).mpr hrest)

end Machine

end NanoDelta.Library
