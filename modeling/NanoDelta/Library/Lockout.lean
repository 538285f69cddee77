import Mathlib.Algebra.Order.Ring.Int
import Mathlib.Data.List.Basic

/-!
# Counting windows and lockouts

Strikes are counted in windows of time: a strike within the window of the one before it adds to its count, and a later
one begins a window of its own. From a limit on, nothing follows a strike until a lockout is over.

If the lockout is longer than a window, no window has more strikes than the limit, and no interval shorter than a window
has twice as many.
-/

namespace NanoDelta.Library

/-- A strike: when it came, when its window began, and how many there were in the window with it. -/
structure Strike where
  time : ℤ
  start : ℤ
  count : ℕ

section Lockout

variable (limit : ℕ) (window lockout : ℤ)

/-- A strike as it is counted after the one before it, if there is one. -/
def Counts : Option Strike → Strike → Prop
  | none, strike => strike.start = strike.time ∧ strike.count = 1
  | some last, strike =>
    last.time ≤ strike.time ∧ (limit ≤ last.count → last.time + lockout ≤ strike.time) ∧
      (strike.time - last.start ≤ window ∧ strike.start = last.start ∧ strike.count = last.count + 1 ∨
        window < strike.time - last.start ∧ strike.start = strike.time ∧ strike.count = 1)

/-- Strikes in their order, with the last one. -/
inductive CountedStrikes : List Strike → Option Strike → Prop where
  | nil : CountedStrikes [] none
  | concat {strikes : List Strike} {last : Option Strike} {strike : Strike} :
    CountedStrikes strikes last → Counts limit window lockout last strike →
      CountedStrikes (strikes ++ [strike]) (some strike)

/-- **Nothing follows a full count until its lockout is over.** -/
theorem CountedStrikes.pairwise {strikes : List Strike} {end_ : Option Strike}
    (h : CountedStrikes limit window lockout strikes end_) :
    strikes.Pairwise (fun s t => limit ≤ s.count → s.time + lockout ≤ t.time) ∧
      (end_ = none → strikes = []) ∧
      ∀ last ∈ end_, ∀ s ∈ strikes, s = last ∨ (limit ≤ s.count → s.time + lockout ≤ last.time) := by
  induction h with
  | nil => exact ⟨.nil, fun _ => rfl, by simp⟩
  | @concat strikes last strike hcounted hcounts ih =>
    obtain ⟨hpairs, hempty, hlast⟩ := ih
    have hfree : ∀ s ∈ strikes, limit ≤ s.count → s.time + lockout ≤ strike.time := by
      intro s hs hfull
      cases last with
      | none =>
        rw [hempty rfl] at hs
        cases hs
      | some last =>
        obtain ⟨htime, hlock, -⟩ := hcounts
        rcases hlast last rfl s hs with rfl | hbefore
        · exact hlock hfull
        · exact (hbefore hfull).trans htime
    refine ⟨List.pairwise_append.mpr ⟨hpairs, List.pairwise_singleton _ _, ?_⟩, by simp, ?_⟩
    · intro s hs t ht
      rw [List.mem_singleton.mp ht]
      exact hfree s hs
    · intro last' hlast' s hs
      cases hlast'
      rcases List.mem_append.mp hs with hs | hs
      · exact Or.inr (hfree s hs)
      · exact Or.inl (List.mem_singleton.mp hs)

/-- What the strikes up to the last one keep. -/
structure WithinLimit (strikes : List Strike) (last : Strike) : Prop where
  times : ∀ strike ∈ strikes, strike.time ≤ last.time
  span : last.start ≤ last.time ∧ last.time ≤ last.start + window
  count : last.count ≤ limit
  /-- Those in the last window are those that it counts. -/
  inside : strikes.countP (fun strike => last.start ≤ strike.time) = last.count
  /-- Those less than a window before it are too few for a lockout. -/
  recent : strikes.countP (fun strike => last.start - window < strike.time) + 1 ≤ last.count + limit
  starts : ∀ strike ∈ strikes, strike.start = last.start ∨ strike.start + window < last.start

variable {limit window lockout} {strikes : List Strike} {last strike : Strike}

theorem withinLimit_first (hlimit : 1 ≤ limit) (hwindow : 0 ≤ window)
    (h : Counts limit window lockout none strike) : WithinLimit limit window [strike] strike := by
  obtain ⟨hstart, hcount⟩ := h
  refine ⟨by simp, by omega, by omega, ?_, ?_, by simp⟩
  · simp [hstart, hcount]
  · have hle := List.countP_le_length (p := fun s : Strike => decide (strike.start - window < s.time)) (l := [strike])
    rw [List.length_singleton] at hle
    omega

/-- **One more strike** in the window of the last one: the lockout has not begun. -/
theorem WithinLimit.more (h : WithinLimit limit window strikes last) (hlock : window < lockout)
    (htime : last.time ≤ strike.time) (hfree : limit ≤ last.count → last.time + lockout ≤ strike.time)
    (hin : strike.time - last.start ≤ window) (hstart : strike.start = last.start)
    (hcount : strike.count = last.count + 1) :
    WithinLimit limit window (strikes ++ [strike]) strike := by
  have hwindow := h.span
  have hroom : last.count < limit := by
    by_contra hfull
    have hlate := hfree (not_lt.mp hfull)
    omega
  refine ⟨?_, by omega, by omega, ?_, ?_, ?_⟩
  · intro s hs
    rcases List.mem_append.mp hs with hs | hs
    · exact (h.times s hs).trans htime
    · rw [List.mem_singleton.mp hs]
  · have hinside := h.inside
    rw [List.countP_append, hstart, hinside, hcount]
    simp
    omega
  · have hrecent := h.recent
    rw [List.countP_append, hstart, hcount]
    have hle := List.countP_le_length (p := fun s : Strike => decide (last.start - window < s.time)) (l := [strike])
    rw [List.length_singleton] at hle
    omega
  · intro s hs
    rw [hstart]
    rcases List.mem_append.mp hs with hs | hs
    · exact h.starts s hs
    · rw [List.mem_singleton.mp hs]
      exact Or.inl hstart

/-- **A new window**: what comes less than a window before it is in the last window, and is less than the limit, for
else there would have been a lockout. -/
theorem WithinLimit.next (h : WithinLimit limit window strikes last) (hlimit : 1 ≤ limit) (hwindow : 0 ≤ window)
    (hlock : window < lockout) (hfree : limit ≤ last.count → last.time + lockout ≤ strike.time)
    (hout : window < strike.time - last.start) (hstart : strike.start = strike.time) (hcount : strike.count = 1) :
    WithinLimit limit window (strikes ++ [strike]) strike := by
  have hlast := h.span
  have htimes : ∀ s ∈ strikes, s.time < strike.time := by
    intro s hs
    have hle := h.times s hs
    omega
  refine ⟨?_, by omega, by omega, ?_, ?_, ?_⟩
  · intro s hs
    rcases List.mem_append.mp hs with hs | hs
    · exact (htimes s hs).le
    · rw [List.mem_singleton.mp hs]
  · have hnone : strikes.countP (fun s => decide (strike.start ≤ s.time)) = 0 := by
      apply List.countP_eq_zero.mpr
      intro s hs
      have hlt := htimes s hs
      simp only [decide_eq_true_eq]
      omega
    rw [List.countP_append, hnone, hcount]
    simp [hstart]
  · have hbefore : strikes.countP (fun s => decide (strike.start - window < s.time)) + 1 ≤ limit := by
      by_cases hfull : limit ≤ last.count
      · have hnone : strikes.countP (fun s => decide (strike.start - window < s.time)) = 0 := by
          apply List.countP_eq_zero.mpr
          intro s hs
          have hle := h.times s hs
          have hlate := hfree hfull
          simp only [decide_eq_true_eq]
          omega
        omega
      · have hsub : strikes.countP (fun s => decide (strike.start - window < s.time)) ≤
            strikes.countP (fun s => decide (last.start ≤ s.time)) := by
          apply List.countP_mono_left
          intro s _ hs
          simp only [decide_eq_true_eq] at hs ⊢
          omega
        rw [h.inside] at hsub
        omega
    have hle := List.countP_le_length (p := fun s : Strike => decide (strike.start - window < s.time)) (l := [strike])
    rw [List.length_singleton] at hle
    rw [List.countP_append, hcount]
    omega
  · intro s hs
    rcases List.mem_append.mp hs with hs | hs
    · right
      rcases h.starts s hs with heq | hlt <;> omega
    · rw [List.mem_singleton.mp hs]
      exact Or.inl rfl

/-- **Strikes that are counted are within the limit.** -/
theorem CountedStrikes.withinLimit {end_ : Option Strike} (h : CountedStrikes limit window lockout strikes end_)
    (hlimit : 1 ≤ limit) (hwindow : 0 ≤ window) (hlock : window < lockout) :
    ∀ last ∈ end_, WithinLimit limit window strikes last := by
  induction h with
  | nil => intro last hlast; cases hlast
  | @concat strikes last strike hcounted hcounts ih =>
    intro last' hlast
    cases hlast
    cases last with
    | none =>
      cases hcounted
      exact withinLimit_first hlimit hwindow hcounts
    | some last =>
      obtain ⟨htime, hfree, ⟨hin, hstart, hcount⟩ | ⟨hout, hstart, hcount⟩⟩ := hcounts
      · exact (ih last rfl).more hlock htime hfree hin hstart hcount
      · exact (ih last rfl).next hlimit hwindow hlock hfree hout hstart hcount

/-- No window has more strikes than the limit. -/
theorem CountedStrikes.window_le {end_ : Option Strike} (h : CountedStrikes limit window lockout strikes end_)
    (hlimit : 1 ≤ limit) (hlock : window < lockout) : ∀ first ∈ strikes,
      strikes.countP (fun strike => first.start ≤ strike.time ∧ strike.time ≤ first.start + window) ≤ limit := by
  by_cases hwindow : 0 ≤ window
  swap
  · intro first _
    rw [List.countP_eq_zero.mpr fun s _ => by simp only [decide_eq_true_eq]; omega]
    exact Nat.zero_le _
  induction h with
  | nil => simp
  | @concat strikes last strike hcounted hcounts ih =>
    have hkept := (CountedStrikes.concat hcounted hcounts).withinLimit hlimit hwindow hlock strike rfl
    intro first hfirst
    rcases hkept.starts first hfirst with heq | hlt
    · refine le_trans ?_ hkept.count
      rw [← hkept.inside, heq]
      apply List.countP_mono_left
      intro s _ hs
      simp only [decide_eq_true_eq] at hs ⊢
      exact hs.1
    · have hearlier : first ∈ strikes := by
        rcases List.mem_append.mp hfirst with hmem | hmem
        · exact hmem
        · rw [List.mem_singleton.mp hmem] at hlt
          omega
      have hlater := hkept.span
      have hout : [strike].countP (fun s => decide (first.start ≤ s.time ∧ s.time ≤ first.start + window)) = 0 := by
        apply List.countP_eq_zero.mpr
        intro s hs
        rw [List.mem_singleton.mp hs]
        simp only [decide_eq_true_eq]
        omega
      rw [List.countP_append, hout, add_zero]
      exact ih first hearlier

/-- **No interval shorter than a window has twice as many strikes as the limit.** -/
theorem CountedStrikes.interval_lt {end_ : Option Strike} (h : CountedStrikes limit window lockout strikes end_)
    (hlimit : 1 ≤ limit) (hlock : window < lockout) (first : ℤ) {length : ℤ} (hlength : length < window) :
    strikes.countP (fun strike => first ≤ strike.time ∧ strike.time ≤ first + length) < 2 * limit := by
  by_cases hwindow : 0 ≤ window
  swap
  · rw [List.countP_eq_zero.mpr fun s _ => by simp only [decide_eq_true_eq]; omega]
    omega
  induction h with
  | nil => simp; omega
  | @concat strikes last strike hcounted hcounts ih =>
    have hkept := (CountedStrikes.concat hcounted hcounts).withinLimit hlimit hwindow hlock strike rfl
    by_cases hin : first ≤ strike.time ∧ strike.time ≤ first + length
    · -- all of the interval is less than a window before the last strike
      have hsub : (strikes ++ [strike]).countP (fun s => decide (first ≤ s.time ∧ s.time ≤ first + length)) ≤
          (strikes ++ [strike]).countP (fun s => decide (strike.start - window < s.time)) := by
        have hlast := hkept.span
        apply List.countP_mono_left
        intro s _ hs
        simp only [decide_eq_true_eq] at hs ⊢
        omega
      have hrecent := hkept.recent
      have hcount := hkept.count
      omega
    · have hout : [strike].countP (fun s => decide (first ≤ s.time ∧ s.time ≤ first + length)) = 0 := by
        apply List.countP_eq_zero.mpr
        intro s hs
        rw [List.mem_singleton.mp hs]
        simpa using hin
      rw [List.countP_append, hout, add_zero]
      exact ih

end Lockout

end NanoDelta.Library
