import NanoDelta.Library.Effect

/-!
# What a program preserves

`Preserves P` is the rule for a property of the state that every step of a program keeps, whether the program returns or
raises. A program that reads the state is taken apart in the state that it reads.
-/

namespace NanoDelta.Library.Effect

universe u

variable {ε σ α β : Type u} {P : σ → Prop}

/-- From a state with the property, the program ends in one. -/
def Preserves (P : σ → Prop) (x : EStateM ε σ α) : Prop := ∀ s, P s → P (final (x s))

theorem preserves_pure (a : α) : Preserves P (pure a : EStateM ε σ α) := fun _ h => h

theorem preserves_throw (e : ε) : Preserves P (throw e : EStateM ε σ α) := fun _ h => h

theorem preserves_modify {g : σ → σ} (h : ∀ s, P s → P (g s)) : Preserves P (modify g : EStateM ε σ PUnit) := h

theorem preserves_ofExcept (x : Except ε α) : Preserves P (ofExcept x : EStateM ε σ α) := by
  cases x with
  | ok a => exact preserves_pure a
  | error e => exact preserves_throw e

theorem Preserves.bind {x : EStateM ε σ α} {f : α → EStateM ε σ β} (hx : Preserves P x)
    (hf : ∀ a, Preserves P (f a)) : Preserves P (x >>= f) := by
  intro s h
  have hend := hx s h
  rw [bind_apply]
  cases hresult : x s with
  | ok a s' =>
    rw [hresult] at hend
    exact hf a s' hend
  | error e s' =>
    rw [hresult] at hend
    exact hend

/-- A program that reads the state first. -/
theorem preserves_get_bind {f : σ → EStateM ε σ β} (hf : ∀ s, P s → P (final (f s s))) :
    Preserves P (get >>= f) := by
  intro s h
  rw [bind_of_ok (get_apply s)]
  exact hf s h

theorem Preserves.tryCatch {x : EStateM ε σ α} {handle : ε → EStateM ε σ α} (hx : Preserves P x)
    (hhandle : ∀ e, Preserves P (handle e)) : Preserves P (tryCatch x handle : EStateM ε σ α) := by
  intro s h
  have hend := hx s h
  rw [tryCatch_apply]
  cases hresult : x s with
  | ok a s' =>
    rw [hresult] at hend
    exact hend
  | error e s' =>
    rw [hresult] at hend
    exact hhandle e s' hend

theorem preserves_focus {τ : Type u} {view : σ → τ} {put : σ → τ → σ} (h : ∀ s t, P s → P (put s t))
    (x : EStateM ε τ α) : Preserves P (focus view put x) := by
  intro s hs
  unfold focus
  cases x (view s) with
  | ok a t => exact h s t hs
  | error e t => exact h s t hs

theorem Preserves.ite {c : Prop} [Decidable c] {x y : EStateM ε σ α} (hx : c → Preserves P x) (hy : Preserves P y) :
    Preserves P (if c then x else y) := by
  split_ifs with hc
  · exact hx hc
  · exact hy

theorem Preserves.each {f : α → EStateM ε σ β} (hf : ∀ a, Preserves P (f a)) (as : List α) : Preserves P (each f as) := by
  induction as with
  | nil => exact preserves_pure []
  | cons a as ih => exact (hf a).bind fun b => ih.bind fun bs => preserves_pure (b :: bs)

theorem Preserves.collect {f : α → EStateM ε σ (Option β)} (hf : ∀ a, Preserves P (f a)) (as : List α) :
    Preserves P (collect f as) := by
  induction as with
  | nil => exact preserves_pure []
  | cons a as ih => exact (hf a).bind fun b => ih.bind fun bs => preserves_pure (b.toList ++ bs)

section Loops

variable {τ : Type u} {s s' : σ} {t : τ}

/-- **Loops**: what a loop returns, a loop returns that leaves its state alone, if this is so for the bodies wherever the
property holds. -/
theorem each_eq_of_preserves {f : α → EStateM ε σ β} {g : α → EStateM ε τ β} (hf : ∀ a, Preserves P (f a))
    (hfg : ∀ a s b s', P s → f a s = .ok b s' → g a t = .ok b t) {as : List α} {bs : List β} (hs : P s)
    (h : each f as s = .ok bs s') : each g as t = .ok bs t := by
  induction as generalizing s bs with
  | nil =>
    obtain ⟨rfl, -⟩ := each_nil_eq_ok.mp h
    rfl
  | cons a as ih =>
    obtain ⟨b, s₁, bs', hb, hbs, rfl⟩ := each_cons_eq_ok.mp h
    have hs₁ : P s₁ := by simpa [hb] using hf a s hs
    exact each_cons_eq_ok.mpr ⟨b, t, bs', hfg a s b s₁ hs hb, ih hs₁ hbs, rfl⟩

/-- Loops that collect. -/
theorem collect_eq_of_preserves {f : α → EStateM ε σ (Option β)} {g : α → EStateM ε τ (Option β)}
    (hf : ∀ a, Preserves P (f a)) (hfg : ∀ a s b s', P s → f a s = .ok b s' → g a t = .ok b t) {as : List α}
    {bs : List β} (hs : P s) (h : collect f as s = .ok bs s') : collect g as t = .ok bs t := by
  induction as generalizing s bs with
  | nil =>
    cases h
    rfl
  | cons a as ih =>
    obtain ⟨b, s₁, bs', hb, hbs, rfl⟩ := collect_cons_eq_ok.mp h
    have hs₁ : P s₁ := by simpa [hb] using hf a s hs
    exact collect_cons_eq_ok.mpr ⟨b, t, bs', hfg a s b s₁ hs hb, ih hs₁ hbs, rfl⟩

/-- What the body returns wherever the property holds, is so of all that a loop returns. -/
theorem Preserves.forall_of_each {f : α → EStateM ε σ β} {Q : β → Prop} (hf : ∀ a, Preserves P (f a))
    (hQ : ∀ a s b s', P s → f a s = .ok b s' → Q b) {as : List α} {bs : List β} (hs : P s)
    (h : Effect.each f as s = .ok bs s') : ∀ b ∈ bs, Q b := by
  induction as generalizing s bs with
  | nil =>
    obtain ⟨rfl, -⟩ := each_nil_eq_ok.mp h
    simp
  | cons a as ih =>
    obtain ⟨b, s₁, bs', hb, hbs, rfl⟩ := each_cons_eq_ok.mp h
    have hs₁ : P s₁ := by simpa [hb] using hf a s hs
    exact List.forall_mem_cons.mpr ⟨hQ a s b s₁ hs hb, ih hs₁ hbs⟩

/-- Loops that collect. -/
theorem Preserves.forall_of_collect {f : α → EStateM ε σ (Option β)} {Q : β → Prop} (hf : ∀ a, Preserves P (f a))
    (hQ : ∀ a s b s', P s → f a s = .ok (some b) s' → Q b) {as : List α} {bs : List β} (hs : P s)
    (h : Effect.collect f as s = .ok bs s') : ∀ b ∈ bs, Q b := by
  induction as generalizing s bs with
  | nil =>
    cases h
    simp
  | cons a as ih =>
    obtain ⟨b, s₁, bs', hb, hbs, rfl⟩ := collect_cons_eq_ok.mp h
    have hs₁ : P s₁ := by simpa [hb] using hf a s hs
    intro b' hb'
    rcases List.mem_append.mp hb' with hmem | hmem
    · rw [Option.mem_toList.mp hmem] at hb
      exact hQ a s b' s₁ hs hb
    · exact ih hs₁ hbs b' hmem

end Loops

/-- What is preserved holds at the end, and whatever else is known of it. -/
theorem Preserves.ends {x : EStateM ε σ α} (hx : Preserves P x) {s : σ} (h : P s) :
    Ends x s (fun _ => P) fun _ => P := by
  have hend := hx s h
  unfold Ends
  cases hresult : x s with
  | ok a s' =>
    rw [hresult] at hend
    exact hend
  | error e s' =>
    rw [hresult] at hend
    exact hend

end NanoDelta.Library.Effect
