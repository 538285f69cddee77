import Mathlib.Data.List.Chain
import Mathlib.Tactic.Linarith
import Mathlib.Tactic.Ring

/-!
# Maximal runs

Numbers split into runs: the numbers of a run are one step apart, and no run goes on with the next one.

* `MaximalRuns.closed`: of numbers that are whole steps apart, one that is a step after another is in the run of the
  other.
-/

namespace NanoDelta.Library

/-- The maximal runs of some numbers. -/
structure MaximalRuns (step : ℤ) (ts : List ℤ) (runs : List (List ℤ)) : Prop where
  /-- The runs are in order, and no number is in two of them. -/
  increasing : runs.flatten.Pairwise (· < ·)
  mem_iff : ∀ t, t ∈ runs.flatten ↔ t ∈ ts
  ne_nil : ∀ run ∈ runs, run ≠ []
  consecutive : ∀ run ∈ runs, run.IsChain fun a b => b = a + step
  maximal : runs.IsChain fun run run' => ∀ a ∈ run.getLast?, ∀ b ∈ run'.head?, b ≠ a + step

/-- A number in the first run and the next one in a later run: there is no such number, as the first run goes on up to its
end, and the second one does not go on from there. -/
theorem not_mem_of_mem_first {step : ℤ} (hstep : 0 < step) {run : List ℤ} {runs : List (List ℤ)}
    (hincreasing : (run :: runs).flatten.Pairwise (· < ·)) (hne : ∀ run ∈ runs, run ≠ [])
    (hconsecutive : run.IsChain fun a b => b = a + step)
    (hmaximal : (run :: runs).IsChain fun run run' => ∀ a ∈ run.getLast?, ∀ b ∈ run'.head?, b ≠ a + step)
    (hgrid : ∀ t ∈ (run :: runs).flatten, ∀ t' ∈ (run :: runs).flatten, step ∣ t' - t) {t : ℤ} (ht : t ∈ run) :
    t + step ∉ runs.flatten := by
  intro hnext
  rw [List.flatten_cons] at hincreasing hgrid
  obtain ⟨-, hrest, hlt⟩ := List.pairwise_append.mp hincreasing
  obtain ⟨before, after, rfl⟩ := List.mem_iff_append.mp ht
  cases after with
  | cons next after =>
    obtain rfl : next = t + step := (List.isChain_cons_cons.mp hconsecutive.right_of_append).1
    exact absurd (hlt (t + step) (by simp) (t + step) hnext) (lt_irrefl _)
  | nil =>
    cases runs with
    | nil => cases hnext
    | cons second runs =>
      cases second with
      | nil => exact hne [] (List.mem_cons_self ..) rfl
      | cons first second =>
        have hfirst : t < first := hlt t (by simp) first (by simp)
        have hle : first ≤ t + step := by
          rcases List.mem_cons.mp hnext with heq | hmem
          · exact heq.ge
          · exact ((List.pairwise_cons.mp hrest).1 _ hmem).le
        obtain ⟨n, hn⟩ := hgrid t (by simp) first (by simp)
        have hone : n = 1 := by nlinarith
        refine (List.isChain_cons_cons.mp hmaximal).1 t (by simp) first rfl ?_
        rw [hone, mul_one] at hn
        linarith

/-- A number and the next one are in the same run. -/
theorem MaximalRuns.same {step : ℤ} (hstep : 0 < step) {ts : List ℤ} {runs : List (List ℤ)}
    (h : MaximalRuns step ts runs) (hgrid : ∀ t ∈ ts, ∀ t' ∈ ts, step ∣ t' - t) {t : ℤ} {run run' : List ℤ}
    (hrun : run ∈ runs) (hrun' : run' ∈ runs) (ht : t ∈ run) (hnext : t + step ∈ run') : run = run' := by
  replace hgrid : ∀ t ∈ runs.flatten, ∀ t' ∈ runs.flatten, step ∣ t' - t :=
    fun t ht t' ht' => hgrid t ((h.mem_iff t).mp ht) t' ((h.mem_iff t').mp ht')
  obtain ⟨hincreasing, -, hne, hconsecutive, hmaximal⟩ := h
  induction runs with
  | nil => cases hrun
  | cons first runs ih =>
    obtain ⟨hfirst, hconsecutive'⟩ := List.forall_mem_cons.mp hconsecutive
    have hne' := (List.forall_mem_cons.mp hne).2
    rcases List.mem_cons.mp hrun with rfl | hmem
    · rcases List.mem_cons.mp hrun' with rfl | hmem'
      · rfl
      · have hnot := not_mem_of_mem_first hstep hincreasing hne' hfirst hmaximal hgrid ht
        exact absurd (List.mem_flatten.mpr ⟨run', hmem', hnext⟩) hnot
    · rw [List.flatten_cons] at hincreasing hgrid
      obtain ⟨-, hrest, hlt⟩ := List.pairwise_append.mp hincreasing
      have hflat : t ∈ runs.flatten := List.mem_flatten.mpr ⟨run, hmem, ht⟩
      rcases List.mem_cons.mp hrun' with rfl | hmem'
      · have hback := hlt (t + step) hnext t hflat
        linarith
      · refine ih hmem hmem' ?_ hrest hne' hconsecutive' hmaximal.tail
        exact fun t ht t' ht' => hgrid t (List.mem_append_right _ ht) t' (List.mem_append_right _ ht')

/-- If the numbers are whole steps apart, a run has all that are next to one of its own. -/
theorem MaximalRuns.closed {step : ℤ} (hstep : 0 < step) {ts : List ℤ} {runs : List (List ℤ)}
    (h : MaximalRuns step ts runs) (hgrid : ∀ t ∈ ts, ∀ t' ∈ ts, step ∣ t' - t) :
    ∀ run ∈ runs, ∀ t ∈ run, (t + step ∈ ts → t + step ∈ run) ∧ (t - step ∈ ts → t - step ∈ run) := by
  intro run hrun t ht
  constructor
  · intro hmem
    obtain ⟨run', hrun', ht'⟩ := List.mem_flatten.mp ((h.mem_iff _).mpr hmem)
    rwa [h.same hstep hgrid hrun hrun' ht ht']
  · intro hmem
    obtain ⟨run', hrun', ht'⟩ := List.mem_flatten.mp ((h.mem_iff _).mpr hmem)
    rwa [← h.same hstep hgrid hrun' hrun ht' (by rwa [sub_add_cancel])]

end NanoDelta.Library
