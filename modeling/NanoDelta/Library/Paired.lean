import NanoDelta.Library.Effect

/-!
# Two programs in step

A program is run twice, or two programs are run, from states that are related. They are
*in step* if both return the same value or both raise the same error, and the states they
leave are related too. The rules follow the shape of the programs; in a loop, one side may
leave out the items for which the other returns nothing.
-/

namespace NanoDelta.Library.Effect

universe u

variable {ε σ τ α β : Type u}

/-- The same value or the same error, and related states. -/
inductive Paired (R : σ → τ → Prop) : EStateM.Result ε σ α → EStateM.Result ε τ α → Prop
  | ok {s : σ} {t : τ} (a : α) (h : R s t) : Paired R (.ok a s) (.ok a t)
  | error {s : σ} {t : τ} (e : ε) (h : R s t) : Paired R (.error e s) (.error e t)

variable {R : σ → τ → Prop}

theorem Paired.final {x : EStateM.Result ε σ α} {y : EStateM.Result ε τ α} (h : Paired R x y) :
    R (final x) (final y) := by
  cases h with
  | ok a h => exact h
  | error e h => exact h

/-- The relation may be weakened afterwards. -/
theorem Paired.mono {x : EStateM.Result ε σ α} {y : EStateM.Result ε τ α} (h : Paired R x y)
    {R' : σ → τ → Prop} (hR : ∀ s t, R s t → R' s t) : Paired R' x y := by
  cases h with
  | ok a h => exact .ok a (hR _ _ h)
  | error e h => exact .error e (hR _ _ h)

/-- Sequences. -/
theorem Paired.bind {x : EStateM ε σ α} {y : EStateM ε τ α} {f : α → EStateM ε σ β} {g : α → EStateM ε τ β}
    {s : σ} {t : τ} (h : Paired R (x s) (y t)) (hf : ∀ a s' t', R s' t' → Paired R (f a s') (g a t')) :
    Paired R ((x >>= f) s) ((y >>= g) t) := by
  rw [bind_apply, bind_apply]
  cases hx : x s with
  | ok a s' =>
    rw [hx] at h
    generalize hy : y t = r at h
    cases h with
    | ok _ h => exact hf a s' _ h
  | error e s' =>
    rw [hx] at h
    generalize hy : y t = r at h
    cases h with
    | error _ h => exact .error e h

theorem paired_pure (a : α) {s : σ} {t : τ} (h : R s t) :
    Paired R ((pure a : EStateM ε σ α) s) ((pure a : EStateM ε τ α) t) := .ok a h

theorem paired_throw (e : ε) {s : σ} {t : τ} (h : R s t) :
    Paired R ((throw e : EStateM ε σ α) s) ((throw e : EStateM ε τ α) t) := .error e h

/-- What a computation without state gives is the same on both sides. -/
theorem paired_ofExcept {x : Except ε α} {f : α → EStateM ε σ β} {g : α → EStateM ε τ β} {s : σ} {t : τ}
    (h : R s t) (hf : ∀ a, x = .ok a → Paired R (f a s) (g a t)) :
    Paired R ((ofExcept x >>= f) s) ((ofExcept x >>= g) t) := by
  cases x with
  | ok a => exact hf a rfl
  | error e => exact .error e h

theorem paired_ofExcept_last (x : Except ε α) {s : σ} {t : τ} (h : R s t) :
    Paired R ((ofExcept x : EStateM ε σ α) s) ((ofExcept x : EStateM ε τ α) t) := by
  cases x with
  | ok a => exact .ok a h
  | error e => exact .error e h

/-- A program on a part that is the same on both sides. -/
theorem paired_focus {γ : Type u} {view : σ → γ} {view' : τ → γ} {put : σ → γ → σ} {put' : τ → γ → τ}
    (x : EStateM ε γ α) {s : σ} {t : τ} (hview : view s = view' t)
    (hput : ∀ c, Effect.final (x (view s)) = c → R (put s c) (put' t c)) :
    Paired R (focus view put x s) (focus view' put' x t) := by
  unfold focus
  rw [← hview]
  cases h : x (view s) with
  | ok a c => exact .ok a (hput c (by rw [h, final_ok]))
  | error e c => exact .error e (hput c (by rw [h, final_error]))

/-- **Loops that collect**: one side leaves out items for which the other returns nothing. -/
theorem paired_collect_filter {f : α → EStateM ε σ (Option β)} {g : α → EStateM ε τ (Option β)} {p : α → Bool}
    {as : List α} (hkept : ∀ a ∈ as, p a = true → ∀ s t, R s t → Paired R (f a s) (g a t))
    (hleft : ∀ a ∈ as, p a = false → ∀ s t, R s t → ∃ s', f a s = .ok none s' ∧ R s' t) {s : σ} {t : τ}
    (h : R s t) : Paired R (collect f as s) (collect g (as.filter p) t) := by
  induction as generalizing s t with
  | nil => exact .ok [] h
  | cons a as ih =>
    have ih' : ∀ s t, R s t → Paired R (collect f as s) (collect g (as.filter p) t) := fun s t h =>
      ih (fun b hb => hkept b (List.mem_cons_of_mem _ hb)) (fun b hb => hleft b (List.mem_cons_of_mem _ hb)) h
    by_cases hp : p a = true
    · rw [List.filter_cons_of_pos hp]
      refine Paired.bind (hkept a (List.mem_cons_self ..) hp s t h) fun b s' t' h' => ?_
      exact Paired.bind (ih' s' t' h') fun bs s'' t'' h'' => .ok _ h''
    · obtain ⟨s', hs', h'⟩ := hleft a (List.mem_cons_self ..) (by simpa using hp) s t h
      rw [List.filter_cons_of_neg hp, collect, bind_of_ok hs']
      have hrest := ih' s' t h'
      rw [bind_apply]
      cases hf : collect f as s' with
      | ok bs s'' =>
        rw [hf] at hrest
        exact hrest
      | error e s'' =>
        rw [hf] at hrest
        exact hrest

/-- Loops that collect, over the same items. -/
theorem paired_collect {f : α → EStateM ε σ (Option β)} {g : α → EStateM ε τ (Option β)} {as : List α}
    (hfg : ∀ a ∈ as, ∀ s t, R s t → Paired R (f a s) (g a t)) {s : σ} {t : τ} (h : R s t) :
    Paired R (collect f as s) (collect g as t) := by
  have hall := paired_collect_filter (p := fun _ => true) (fun a ha _ => hfg a ha) (by simp) h
  simpa using hall

/-- Loops over the same items. -/
theorem paired_each {f : α → EStateM ε σ β} {g : α → EStateM ε τ β} {as : List α}
    (hfg : ∀ a ∈ as, ∀ s t, R s t → Paired R (f a s) (g a t)) {s : σ} {t : τ} (h : R s t) :
    Paired R (each f as s) (each g as t) := by
  induction as generalizing s t with
  | nil => exact paired_pure [] h
  | cons a as ih =>
    refine (hfg a (List.mem_cons_self ..) s t h).bind fun b s' t' h' => ?_
    exact (ih (fun a' ha' => hfg a' (List.mem_cons_of_mem _ ha')) h').bind fun bs s'' t'' h'' => paired_pure _ h''

end NanoDelta.Library.Effect
