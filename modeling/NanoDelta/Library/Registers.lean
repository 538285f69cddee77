import Mathlib
import NanoDelta.Library.Machine

/-!
# Registers that expire

A register is filled in when it is read, unless what it holds is still current: not older than a time to live.

* `reading`: what is read at one time. `Filled`: registers after some readings at that time; all readings agree.
* `Aligned`: two registers that differ at most by what others filled one of them in with, at given times. When all these
  times are over, both are read alike.
* `Machine.outputs_purge`: what one party gets out of a run that it shares with others is what it gets from a run of its
  inputs alone, if its inputs give the same in related states and those of the others are not seen.
-/

namespace NanoDelta.Library

universe u v w x y

/-- What a register holds, and when it was filled in. -/
@[ext]
structure Entry (α : Type u) where
  value : α
  time : ℤ

section Registers

variable {α : Type u} {κ : Type v} {ε : Type w} {ttl now : ℤ}

/-- What a register holds, if it is current. -/
def current (ttl now : ℤ) (c : Option (Entry α)) : Option (Entry α) := c.filter fun e => now - e.time < ttl

@[simp] theorem current_none : current ttl now (none : Option (Entry α)) = none := rfl

@[simp] theorem current_some (e : Entry α) : current ttl now (some e) = if now - e.time < ttl then some e else none := by
  simp [current, Option.filter]

theorem current_eq_some {c : Option (Entry α)} {e : Entry α} :
    current ttl now c = some e ↔ c = some e ∧ now - e.time < ttl := by
  simp [current, Option.filter_eq_some_iff]

/-- What was just filled in is current. -/
theorem current_now (httl : 0 < ttl) (a : α) : current ttl now (some ⟨a, now⟩) = some ⟨a, now⟩ := by
  simp [httl]

/-! ### Readings -/

variable (ttl now) in
/-- What is read of a register: what is current, or else what it is filled in with. -/
def reading (fill : κ → Except ε α) (c : κ → Option (Entry α)) (k : κ) : Except ε α :=
  match current ttl now (c k) with
  | some e => .ok e.value
  | none => fill k

variable (ttl now) in
/-- Registers after some readings at one time: some of them, which were not current, are filled in. -/
def Filled (fill : κ → Except ε α) (c c' : κ → Option (Entry α)) : Prop :=
  ∀ k, c' k = c k ∨ current ttl now (c k) = none ∧ ∃ a, fill k = .ok a ∧ c' k = some ⟨a, now⟩

variable {fill : κ → Except ε α} {c c' c'' : κ → Option (Entry α)}

theorem Filled.refl (c : κ → Option (Entry α)) : Filled ttl now fill c c := fun _ => Or.inl rfl

theorem Filled.trans (httl : 0 < ttl) (h : Filled ttl now fill c c') (h' : Filled ttl now fill c' c'') :
    Filled ttl now fill c c'' := by
  intro k
  rcases h' k with hsame | ⟨hstale, a, ha, hfilled⟩
  · rw [hsame]
    exact h k
  · rcases h k with hsame | ⟨-, b, -, hfilled'⟩
    · rw [hsame] at hstale
      exact Or.inr ⟨hstale, a, ha, hfilled⟩
    · simp [hfilled', httl] at hstale

/-- One register is filled in. -/
theorem Filled.update [DecidableEq κ] {k : κ} {a : α} (hstale : current ttl now (c k) = none) (ha : fill k = .ok a) :
    Filled ttl now fill c (Function.update c k (some ⟨a, now⟩)) := by
  intro k'
  by_cases hk : k' = k
  · subst hk
    exact Or.inr ⟨hstale, a, ha, by simp⟩
  · exact Or.inl (by simp [hk])

/-- All readings at one time agree. -/
theorem Filled.reading (httl : 0 < ttl) (h : Filled ttl now fill c c') (k : κ) :
    reading ttl now fill c' k = reading ttl now fill c k := by
  rcases h k with hsame | ⟨hstale, a, ha, hfilled⟩
  · simp [Library.reading, hsame]
  · simp [Library.reading, hstale, hfilled, ha, httl]

/-! ### What others filled in -/

/-- The registers are the same, or the first was filled in by others: at one of the times, and not before what the second
one holds. -/
inductive Aligned (times : List ℤ) : Option (Entry α) → Option (Entry α) → Prop
  | same (c : Option (Entry α)) : Aligned times c c
  | foreign (e : Entry α) {d : Option (Entry α)} (he : e.time ∈ times) (hd : ∀ e' ∈ d, e'.time ≤ e.time) :
    Aligned times (some e) d

namespace Aligned

variable {times : List ℤ} {a b : Option (Entry α)}

/-- There may be more times. -/
theorem cons (h : Aligned times a b) (t : ℤ) : Aligned (t :: times) a b := by
  cases h with
  | same => exact .same a
  | foreign e he hd => exact .foreign e (List.mem_cons_of_mem t he) hd

/-- What the second one holds is not newer. -/
theorem time_le (h : Aligned times a b) {t : ℤ} (ha : ∀ e ∈ a, e.time ≤ t) : ∀ e ∈ b, e.time ≤ t := by
  cases h with
  | same => exact ha
  | foreign e he hd => exact fun e' he' => (hd e' he').trans (ha e rfl)

/-- Others fill in the first one. -/
theorem overwritten (h : Aligned times a b) (httl : 0 < ttl) (hstale : current ttl now a = none) (v : α) :
    Aligned (now :: times) (some ⟨v, now⟩) b := by
  refine .foreign _ (List.mem_cons_self ..) (h.time_le fun e he => ?_)
  rw [Option.mem_def] at he
  simp only [he, current_some] at hstale
  split_ifs at hstale with hlt
  show e.time ≤ now
  omega

/-- When the times are over, the two are the same, or neither is current. -/
theorem cases_of_over (h : Aligned times a b) (hover : ∀ t ∈ times, t + ttl ≤ now) :
    a = b ∨ current ttl now a = none ∧ current ttl now b = none := by
  cases h with
  | same => exact Or.inl rfl
  | foreign e he hd =>
    have hlate := hover e.time he
    refine Or.inr ⟨by simp; omega, Option.eq_none_iff_forall_not_mem.mpr fun e' he' => ?_⟩
    obtain ⟨hmem, hlt⟩ := current_eq_some.mp he'
    have htime := hd e' hmem
    omega

end Aligned

/-- Others' readings keep the registers aligned. -/
theorem Filled.aligned (h : Filled ttl now fill c c') (httl : 0 < ttl) {times : List ℤ} {k : κ} {d : Option (Entry α)}
    (hd : Aligned times (c k) d) : Aligned (now :: times) (c' k) d := by
  rcases h k with hsame | ⟨hstale, a, -, hfilled⟩
  · rw [hsame]
    exact hd.cons now
  · rw [hfilled]
    exact hd.overwritten httl hstale a

end Registers

/-! ### Unwinding -/

namespace Machine

variable {σ : Type u} {τ : Type v} {ι : Type w} {κ : Type y} {ο : Type x}

/-- The outputs of a run for some of its inputs. -/
def outputsFor (M : Machine σ ι ο) (p : ι → Bool) (s : σ) (is : List ι) : List ο :=
  ((is.zip (M.outputs s is)).filter fun io => p io.1).map Prod.snd

variable {M : Machine σ ι ο} {N : Machine τ κ ο} {p : ι → Bool}

theorem outputsFor_cons (s : σ) (i : ι) (is : List ι) :
    M.outputsFor p s (i :: is) =
      if p i then (M.step s i).2 :: M.outputsFor p (M.step s i).1 is else M.outputsFor p (M.step s i).1 is := by
  by_cases hp : p i = true <;> simp [outputsFor, outputs, hp]

/-- **Unwinding**: the inputs of `p` alone, as `f` sees them, give `p` the same outputs, if its inputs give the same in
related states and lead to related states, and other inputs are left out. The relation may tell what came before, the
newest first, and every pair of inputs meets `Q`. -/
theorem outputs_purge (f : ι → κ) {Q : ι → ι → Prop} {R : List ι → σ → τ → Prop}
    (hown : ∀ past s t i, R past s t → p i = true → (∀ j ∈ past, Q j i) →
      R (i :: past) (M.step s i).1 (N.step t (f i)).1 ∧ (M.step s i).2 = (N.step t (f i)).2)
    (hother : ∀ past s t i, R past s t → p i = false → (∀ j ∈ past, Q j i) → R (i :: past) (M.step s i).1 t)
    {past : List ι} {s : σ} {t : τ} (hR : R past s t) {is : List ι} (hQ : is.Pairwise Q)
    (hpast : ∀ j ∈ past, ∀ i ∈ is, Q j i) : M.outputsFor p s is = N.outputs t ((is.filter p).map f) := by
  induction is generalizing past s t with
  | nil => rfl
  | cons i is ih =>
    obtain ⟨hfirst, hrest⟩ := List.pairwise_cons.mp hQ
    have hbefore : ∀ j ∈ past, Q j i := fun j hj => hpast j hj i (List.mem_cons_self ..)
    have hpast' : ∀ j ∈ i :: past, ∀ i' ∈ is, Q j i' := by
      refine List.forall_mem_cons.mpr ⟨hfirst, fun j hj i' hi' => ?_⟩
      exact hpast j hj i' (List.mem_cons_of_mem _ hi')
    rw [outputsFor_cons]
    by_cases hp : p i = true
    · obtain ⟨hnext, hsame⟩ := hown past s t i hR hp hbefore
      rw [if_pos hp, List.filter_cons_of_pos hp, ih hnext hrest hpast', hsame, List.map_cons, outputs]
    · rw [if_neg hp, List.filter_cons_of_neg hp, ih (hother past s t i hR (by simpa using hp) hbefore) hrest hpast']

end Machine

end NanoDelta.Library
