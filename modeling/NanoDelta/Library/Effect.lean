import Mathlib.Data.List.Basic

/-!
# Programs that raise

A method of a class with attributes is a program in `EStateM ε σ`: it reads and
writes a state `σ` and may raise an `ε`, and what it wrote before raising stays
written. This module has the rules for taking such a program apart: what a
sequence did if it returned, what a loop did if it returned, and how a handler
that puts the state back undoes what was written. `Keeps` says what a program
leaves alone, `Ends` what holds when it ends, whether it returns or raises, and
`Steady` that what it returns does not depend on the state.
-/

namespace NanoDelta.Library.Effect

universe u v

variable {ε σ α β : Type u}

/-- The state a program ends in, whether it returned or raised. -/
def final : EStateM.Result ε σ α → σ
  | .ok _ s => s
  | .error _ s => s

@[simp] theorem final_ok (a : α) (s : σ) : final (.ok a s : EStateM.Result ε σ α) = s := rfl

@[simp] theorem final_error (e : ε) (s : σ) : final (.error e s : EStateM.Result ε σ α) = s := rfl

/-- What a program returned, if it returned. -/
def returned : EStateM.Result ε σ α → Option α
  | .ok a _ => some a
  | .error _ _ => none

theorem returned_eq_some {r : EStateM.Result ε σ α} {a : α} : returned r = some a ↔ ∃ s, r = .ok a s := by
  cases r <;> simp [returned]

/-! ### Sequences -/

theorem bind_apply (x : EStateM ε σ α) (f : α → EStateM ε σ β) (s : σ) :
    (x >>= f) s = match x s with
      | .ok a s' => f a s'
      | .error e s' => .error e s' := by
  show EStateM.bind x f s = _
  unfold EStateM.bind
  cases x s <;> rfl

theorem bind_of_ok {x : EStateM ε σ α} {s s' : σ} {a : α} (h : x s = .ok a s') (f : α → EStateM ε σ β) :
    (x >>= f) s = f a s' := by
  rw [bind_apply, h]

theorem bind_of_error {x : EStateM ε σ α} {s s' : σ} {e : ε} (h : x s = .error e s')
    (f : α → EStateM ε σ β) : (x >>= f) s = .error e s' := by
  rw [bind_apply, h]

/-- A sequence returned: its first part returned, and then its second part. -/
theorem bind_eq_ok {x : EStateM ε σ α} {f : α → EStateM ε σ β} {s s' : σ} {b : β} :
    (x >>= f) s = .ok b s' ↔ ∃ a s₁, x s = .ok a s₁ ∧ f a s₁ = .ok b s' := by
  rw [bind_apply]
  cases hx : x s with
  | ok a s₁ =>
    constructor
    · exact fun h => ⟨a, s₁, rfl, h⟩
    · rintro ⟨a', s₁', he, h⟩
      cases he
      exact h
  | error e s₁ => simp

/-- A sequence raised: its first part raised, or returned and then its second part raised. -/
theorem bind_eq_error {x : EStateM ε σ α} {f : α → EStateM ε σ β} {s s' : σ} {e : ε} :
    (x >>= f) s = .error e s' ↔
      x s = .error e s' ∨ ∃ a s₁, x s = .ok a s₁ ∧ f a s₁ = .error e s' := by
  rw [bind_apply]
  cases hx : x s with
  | ok a s₁ => simp
  | error e' s₁ => simp

theorem map_apply (f : α → β) (x : EStateM ε σ α) (s : σ) :
    (f <$> x) s = match x s with
      | .ok a s' => .ok (f a) s'
      | .error e s' => .error e s' := by
  show EStateM.map f x s = _
  unfold EStateM.map
  cases x s <;> rfl

theorem map_eq_ok {f : α → β} {x : EStateM ε σ α} {s s' : σ} {b : β} :
    (f <$> x) s = .ok b s' ↔ ∃ a, x s = .ok a s' ∧ f a = b := by
  rw [map_apply]
  cases x s with
  | ok a s₁ =>
    constructor
    · intro h
      cases h
      exact ⟨a, rfl, rfl⟩
    · rintro ⟨a', ha, rfl⟩
      cases ha
      rfl
  | error e s₁ => simp

@[simp] theorem pure_apply (a : α) (s : σ) : (pure a : EStateM ε σ α) s = .ok a s := rfl

@[simp] theorem throw_apply (e : ε) (s : σ) : (throw e : EStateM ε σ α) s = .error e s := rfl

@[simp] theorem get_apply (s : σ) : (get : EStateM ε σ σ) s = .ok s s := rfl

@[simp] theorem set_apply (s s' : σ) : (set s' : EStateM ε σ PUnit) s = .ok ⟨⟩ s' := rfl

@[simp] theorem modify_apply (f : σ → σ) (s : σ) : (modify f : EStateM ε σ PUnit) s = .ok ⟨⟩ (f s) := rfl

/-- The rule for sequences, for computations without state. -/
theorem except_bind_eq_ok {x : Except ε α} {f : α → Except ε β} {b : β} :
    (x >>= f) = .ok b ↔ ∃ a, x = .ok a ∧ f a = .ok b := by
  cases x with
  | ok a =>
    constructor
    · exact fun h => ⟨a, rfl, h⟩
    · rintro ⟨a', ha, h⟩
      cases ha
      exact h
  | error e =>
    constructor
    · intro h
      cases h
    · rintro ⟨a, ha, -⟩
      cases ha

/-- What a filter that may raise keeps, and what it drops. -/
theorem mem_of_filterMapM {f : α → Except ε (Option β)} {as : List α} {bs : List β} (h : as.filterMapM f = .ok bs) :
    (∀ b ∈ bs, ∃ a ∈ as, f a = .ok (some b)) ∧ ∀ a ∈ as, f a = .ok none ∨ ∃ b ∈ bs, f a = .ok (some b) := by
  induction as generalizing bs with
  | nil =>
    cases h
    exact ⟨fun _ h => (nomatch h), fun _ h => (nomatch h)⟩
  | cons a as ih =>
    rw [List.filterMapM_cons] at h
    obtain ⟨ob, hb, h₁⟩ := except_bind_eq_ok.mp h
    cases ob with
    | none =>
      obtain ⟨hkept, hdropped⟩ := ih h₁
      refine ⟨fun b hmem => ?_, fun a' ha' => ?_⟩
      · obtain ⟨a', ha', hf⟩ := hkept b hmem
        exact ⟨a', List.mem_cons_of_mem _ ha', hf⟩
      · rcases List.mem_cons.mp ha' with rfl | ha'
        · exact Or.inl hb
        · exact hdropped a' ha'
    | some b =>
      obtain ⟨bs', hbs, h₂⟩ := except_bind_eq_ok.mp h₁
      cases h₂
      obtain ⟨hkept, hdropped⟩ := ih hbs
      refine ⟨fun b' hmem => ?_, fun a' ha' => ?_⟩
      · rcases List.mem_cons.mp hmem with rfl | hmem
        · exact ⟨a, List.mem_cons_self .., hb⟩
        · obtain ⟨a', ha', hf⟩ := hkept b' hmem
          exact ⟨a', List.mem_cons_of_mem _ ha', hf⟩
      · rcases List.mem_cons.mp ha' with rfl | ha'
        · exact Or.inr ⟨b, List.mem_cons_self .., hb⟩
        · rcases hdropped a' ha' with hnone | ⟨b', hb', hf⟩
          · exact Or.inl hnone
          · exact Or.inr ⟨b', List.mem_cons_of_mem _ hb', hf⟩

/-- What a loop without state returns comes, item by item, from the list. -/
theorem forall₂_of_mapM {f : α → Except ε β} {as : List α} {bs : List β} (h : as.mapM f = .ok bs) :
    List.Forall₂ (fun a b => f a = .ok b) as bs := by
  induction as generalizing bs with
  | nil =>
    cases h
    exact .nil
  | cons a as ih =>
    rw [List.mapM_cons] at h
    obtain ⟨b, hb, h₁⟩ := except_bind_eq_ok.mp h
    obtain ⟨bs', hbs, h₂⟩ := except_bind_eq_ok.mp h₁
    cases h₂
    exact .cons hb (ih hbs)

theorem mapM_of_forall₂ {f : α → Except ε β} {as : List α} {bs : List β} (h : List.Forall₂ (fun a b => f a = .ok b) as bs) :
    as.mapM f = .ok bs := by
  induction h with
  | nil => rfl
  | cons hb _ ih =>
    rw [List.mapM_cons, hb, ih]
    rfl

theorem exists_of_mapM {f : α → Except ε β} {as : List α} {bs : List β} (h : as.mapM f = .ok bs) : ∀ a ∈ as, ∃ b, f a = .ok b := by
  have hforall := forall₂_of_mapM h
  clear h
  induction hforall with
  | nil => simp
  | cons hb _ ih => exact List.forall_mem_cons.mpr ⟨⟨_, hb⟩, ih⟩

/-- A loop without state that never raises. -/
theorem mapM_eq_ok_map {f : α → Except ε β} {g : α → β} {as : List α} (h : ∀ a ∈ as, f a = .ok (g a)) :
    as.mapM f = .ok (as.map g) := by
  induction as with
  | nil => rfl
  | cons a as ih =>
    obtain ⟨ha, has⟩ := List.forall_mem_cons.mp h
    rw [List.mapM_cons, ha, ih has]
    rfl

/-- Loops whose bodies agree on the items. -/
theorem foldlM_congr {f g : β → α → Except ε β} {as : List α} (h : ∀ b, ∀ a ∈ as, f b a = g b a) (b : β) :
    as.foldlM f b = as.foldlM g b := by
  induction as generalizing b with
  | nil => rfl
  | cons a as ih =>
    rw [List.foldlM_cons, List.foldlM_cons, h b a (List.mem_cons_self ..)]
    congr 1
    funext b'
    exact ih (fun b a' ha' => h b a' (List.mem_cons_of_mem _ ha')) b'

/-- A loop without state returns, or raises what its body raises on an item. -/
theorem mapM_cases (f : α → Except ε β) (as : List α) :
    (∃ bs, as.mapM f = .ok bs) ∨ ∃ a ∈ as, ∃ e, f a = .error e ∧ as.mapM f = .error e := by
  induction as with
  | nil => exact Or.inl ⟨[], rfl⟩
  | cons a as ih =>
    rw [List.mapM_cons]
    cases ha : f a with
    | error e => exact Or.inr ⟨a, List.mem_cons_self .., e, ha, rfl⟩
    | ok b =>
      rcases ih with ⟨bs, hbs⟩ | ⟨a', ha', e, he, hes⟩
      · rw [hbs]
        exact Or.inl ⟨b :: bs, rfl⟩
      · rw [hes]
        exact Or.inr ⟨a', List.mem_cons_of_mem _ ha', e, he, rfl⟩

/-- Raise what a computation without state raised. -/
def ofExcept : Except ε α → EStateM ε σ α
  | .ok a => pure a
  | .error e => throw e

@[simp] theorem ofExcept_ok (a : α) : (ofExcept (.ok a) : EStateM ε σ α) = pure a := rfl

@[simp] theorem ofExcept_error (e : ε) : (ofExcept (.error e) : EStateM ε σ α) = throw e := rfl

theorem ofExcept_eq_ok {x : Except ε α} {s s' : σ} {a : α} :
    ofExcept x s = .ok a s' ↔ x = .ok a ∧ s' = s := by
  cases x <;> simp [ofExcept, eq_comm]

/-! ### Parts of the state -/

section Focus

variable {τ : Type u} {view : σ → τ} {put : σ → τ → σ}

/-- Run a program on a part of the state. -/
def focus (view : σ → τ) (put : σ → τ → σ) (x : EStateM ε τ α) : EStateM ε σ α := fun s =>
  match x (view s) with
  | .ok a t => .ok a (put s t)
  | .error e t => .error e (put s t)

theorem focus_eq_ok {x : EStateM ε τ α} {s s' : σ} {a : α} :
    focus view put x s = .ok a s' ↔ ∃ t, x (view s) = .ok a t ∧ s' = put s t := by
  unfold focus
  cases x (view s) with
  | ok b t => simp [eq_comm, and_comm]
  | error e t => simp

theorem focus_of_ok {x : EStateM ε τ α} {s : σ} {t : τ} {a : α} (h : x (view s) = .ok a t) :
    focus view put x s = .ok a (put s t) := focus_eq_ok.mpr ⟨t, h, rfl⟩

theorem focus_of_error {x : EStateM ε τ α} {s : σ} {t : τ} {e : ε} (h : x (view s) = .error e t) :
    focus view put x s = .error e (put s t) := by
  unfold focus
  rw [h]

end Focus

/-! ### Handlers -/

theorem tryCatch_apply (x : EStateM ε σ α) (handle : ε → EStateM ε σ α) (s : σ) :
    (tryCatch x handle : EStateM ε σ α) s = match x s with
      | .ok a s' => .ok a s'
      | .error e s' => handle e s' := by
  show EStateM.tryCatch x handle s = _
  unfold EStateM.tryCatch
  cases x s <;> rfl

/-- A program whose handler puts the state back and raises again leaves, when it raises, the
state it started from. -/
theorem final_of_restoring {x : EStateM ε σ α} {restore : σ → σ} {s s' : σ} {e : ε}
    (hr : ∀ s', restore s' = s)
    (h : (tryCatch x (fun e => do modify restore; throw e) : EStateM ε σ α) s = .error e s') : s' = s := by
  rw [tryCatch_apply] at h
  cases hx : x s with
  | ok a s₁ => rw [hx] at h; cases h
  | error e₁ s₁ =>
    rw [hx] at h
    simp only [bind_apply, modify_apply, throw_apply, EStateM.Result.error.injEq] at h
    rw [← h.2, hr]

/-- It returns what the program inside it returns. -/
theorem tryCatch_eq_ok_iff {x : EStateM ε σ α} {restore : σ → σ} {s s' : σ} {a : α} :
    (tryCatch x (fun e => do modify restore; throw e) : EStateM ε σ α) s = .ok a s' ↔ x s = .ok a s' := by
  rw [tryCatch_apply]
  cases x s with
  | ok a₁ s₁ => rfl
  | error e₁ s₁ => simp [bind_apply]

/-! ### Loops -/

/-- Run a program on each item of a list, in order, and collect what it returns. -/
def each (f : α → EStateM ε σ β) : List α → EStateM ε σ (List β)
  | [] => pure []
  | a :: as => do
    let b ← f a
    let bs ← each f as
    return b :: bs

theorem each_nil_eq_ok {f : α → EStateM ε σ β} {s s' : σ} {bs : List β} :
    each f [] s = .ok bs s' ↔ bs = [] ∧ s' = s := by
  simp [each, eq_comm]

/-- A loop over a nonempty list returned: its body returned, and then the rest of the loop. -/
theorem each_cons_eq_ok {f : α → EStateM ε σ β} {a : α} {as : List α} {s s' : σ} {bs : List β} :
    each f (a :: as) s = .ok bs s' ↔
      ∃ b s₁ bs', f a s = .ok b s₁ ∧ each f as s₁ = .ok bs' s' ∧ bs = b :: bs' := by
  simp only [each, bind_eq_ok, pure_apply, EStateM.Result.ok.injEq]
  constructor
  · rintro ⟨b, s₁, hb, bs', s₂, hbs, rfl, rfl⟩
    exact ⟨b, s₁, bs', hb, hbs, rfl⟩
  · rintro ⟨b, s₁, bs', hb, hbs, rfl⟩
    exact ⟨b, s₁, hb, bs', s', hbs, rfl, rfl⟩

/-- **Loop invariants**: what the body keeps whenever it returns, the loop keeps. -/
theorem each_invariant {f : α → EStateM ε σ β} {P : σ → Prop} {as : List α}
    (hf : ∀ a ∈ as, ∀ s b s', P s → f a s = .ok b s' → P s') {s s' : σ} {bs : List β} (hs : P s)
    (h : each f as s = .ok bs s') : P s' := by
  induction as generalizing s bs with
  | nil =>
    obtain ⟨-, rfl⟩ := each_nil_eq_ok.mp h
    exact hs
  | cons a as ih =>
    obtain ⟨b, s₁, bs', hb, hbs, -⟩ := each_cons_eq_ok.mp h
    exact ih (fun a' ha' => hf a' (List.mem_cons_of_mem _ ha'))
      (hf a (List.mem_cons_self ..) s b s₁ hs hb) hbs

/-- What a loop returns is related, item by item, to the items of the list. -/
theorem forall₂_of_each {f : α → EStateM ε σ β} {R : α → β → Prop}
    (hf : ∀ a s b s', f a s = .ok b s' → R a b) {as : List α} {s s' : σ} {bs : List β}
    (h : each f as s = .ok bs s') : List.Forall₂ R as bs := by
  induction as generalizing s bs with
  | nil =>
    obtain ⟨rfl, -⟩ := each_nil_eq_ok.mp h
    exact .nil
  | cons a as ih =>
    obtain ⟨b, s₁, bs', hb, hbs, rfl⟩ := each_cons_eq_ok.mp h
    exact .cons (hf a s b s₁ hb) (ih hbs)

theorem each_map {γ : Type u} (f : β → EStateM ε σ γ) (g : α → β) (as : List α) : each f (as.map g) = each (fun a => f (g a)) as := by
  induction as with
  | nil => rfl
  | cons a as ih => simp only [List.map_cons, each, ih]

theorem each_append (f : α → EStateM ε σ β) (as as' : List α) :
    each f (as ++ as') = (do let bs ← each f as; let bs' ← each f as'; return bs ++ bs') := by
  induction as with
  | nil => simp [each]
  | cons a as ih => simp [each, ih]

/-- What a loop returns has one item for each item of the list. -/
theorem length_of_each {f : α → EStateM ε σ β} {as : List α} {s s' : σ} {bs : List β}
    (h : each f as s = .ok bs s') : bs.length = as.length := by
  induction as generalizing s bs with
  | nil =>
    obtain ⟨rfl, -⟩ := each_nil_eq_ok.mp h
    rfl
  | cons a as ih =>
    obtain ⟨b, s₁, bs', -, hbs, rfl⟩ := each_cons_eq_ok.mp h
    simp [ih hbs]

/-- Run a program on each item of a list, in order, and keep what it returns for those for which it
returns something. -/
def collect (f : α → EStateM ε σ (Option β)) : List α → EStateM ε σ (List β)
  | [] => pure []
  | a :: as => do
    let b ← f a
    let bs ← collect f as
    return b.toList ++ bs

/-- A loop that collects, over a nonempty list, returned. -/
theorem collect_cons_eq_ok {f : α → EStateM ε σ (Option β)} {a : α} {as : List α} {s s' : σ} {bs : List β} :
    collect f (a :: as) s = .ok bs s' ↔
      ∃ b s₁ bs', f a s = .ok b s₁ ∧ collect f as s₁ = .ok bs' s' ∧ bs = b.toList ++ bs' := by
  simp only [collect, bind_eq_ok, pure_apply, EStateM.Result.ok.injEq]
  constructor
  · rintro ⟨b, s₁, hb, bs', s₂, hbs, rfl, rfl⟩
    exact ⟨b, s₁, bs', hb, hbs, rfl⟩
  · rintro ⟨b, s₁, bs', hb, hbs, rfl⟩
    exact ⟨b, s₁, hb, bs', s', hbs, rfl, rfl⟩

/-- A loop whose body is a loop and then returns: one loop, and what is returned. -/
theorem collect_eq_each {γ : Type u} {f : α → EStateM ε σ (Option β)} {g : γ → EStateM ε σ PUnit} {items : α → List γ} {kept : α → Option β}
    {as : List α} (h : ∀ a ∈ as, f a = (do let _ ← each g (items a); return kept a)) :
    collect f as = (do let _ ← each g (as.flatMap items); return as.filterMap kept) := by
  induction as with
  | nil => rfl
  | cons a as ih =>
    obtain ⟨hfirst, hrest⟩ := List.forall_mem_cons.mp h
    simp only [collect, hfirst, ih hrest, List.flatMap_cons, each_append, bind_assoc, pure_bind]
    cases hkept : kept a <;> simp [hkept]

/-- Bodies that do the same with every item of the list. -/
theorem collect_congr {f g : α → EStateM ε σ (Option β)} {as : List α} (h : ∀ a ∈ as, f a = g a) :
    collect f as = collect g as := by
  induction as with
  | nil => rfl
  | cons a as ih =>
    simp only [collect, h a List.mem_cons_self, ih fun a' ha' => h a' (List.mem_cons_of_mem _ ha')]

/-- What is related to a list, item by item, comes from its items. -/
theorem exists_of_forall₂ {α β : Type*} {R : α → β → Prop} {as : List α} {bs : List β} (h : List.Forall₂ R as bs)
    {b : β} (hb : b ∈ bs) : ∃ a ∈ as, R a b := by
  induction h with
  | nil => cases hb
  | cons hr _ ih =>
    rcases List.mem_cons.mp hb with rfl | hb
    · exact ⟨_, List.mem_cons_self .., hr⟩
    · obtain ⟨a, ha, hab⟩ := ih hb
      exact ⟨a, List.mem_cons_of_mem _ ha, hab⟩

/-- What a loop collects comes, item by item and in order, from some of the items of the list. -/
theorem collect_sublist {f : α → EStateM ε σ (Option β)} {R : α → β → Prop}
    (hf : ∀ a s b s', f a s = .ok (some b) s' → R a b) {as : List α} {s s' : σ} {bs : List β}
    (h : collect f as s = .ok bs s') : ∃ as', as'.Sublist as ∧ List.Forall₂ R as' bs := by
  induction as generalizing s bs with
  | nil =>
    cases h
    exact ⟨[], List.Sublist.refl _, .nil⟩
  | cons a as ih =>
    obtain ⟨b, s₁, bs', hb, hbs, rfl⟩ := collect_cons_eq_ok.mp h
    obtain ⟨as', hsub, hR⟩ := ih hbs
    cases b with
    | none => exact ⟨as', hsub.cons a, hR⟩
    | some b => exact ⟨a :: as', hsub.cons_cons a, .cons (hf a s b s₁ hb) hR⟩

/-- **Loops with an accumulator**: what the body keeps whenever it returns, the loop keeps. -/
theorem foldlM_invariant {f : β → α → EStateM ε σ β} {P : β → Prop} {as : List α}
    (hf : ∀ b, ∀ a ∈ as, ∀ s b' s', P b → f b a s = .ok b' s' → P b') {b b' : β} {s s' : σ} (hb : P b)
    (h : as.foldlM f b s = .ok b' s') : P b' := by
  induction as generalizing b s with
  | nil =>
    cases h
    exact hb
  | cons a as ih =>
    rw [List.foldlM_cons] at h
    obtain ⟨b₁, s₁, hb₁, h⟩ := bind_eq_ok.mp h
    exact ih (fun b a' ha' => hf b a' (List.mem_cons_of_mem _ ha'))
      (hf b a (List.mem_cons_self ..) s b₁ s₁ hb hb₁) h

/-! ### What a program does not touch -/

/-- The program leaves `f` of the state as it was, whether it returns or raises. -/
def Keeps {γ : Type v} (f : σ → γ) (x : EStateM ε σ α) : Prop := ∀ s, f (final (x s)) = f s

section Keeps

variable {γ : Type v} {f : σ → γ}

theorem Keeps.of_ok {x : EStateM ε σ α} (hx : Keeps f x) {s s' : σ} {a : α} (h : x s = .ok a s') : f s' = f s := by
  have := hx s
  rwa [h] at this

theorem Keeps.of_error {x : EStateM ε σ α} (hx : Keeps f x) {s s' : σ} {e : ε} (h : x s = .error e s') :
    f s' = f s := by
  have := hx s
  rwa [h] at this

theorem keeps_pure (a : α) : Keeps f (pure a : EStateM ε σ α) := fun _ => rfl

theorem keeps_throw (e : ε) : Keeps f (throw e : EStateM ε σ α) := fun _ => rfl

theorem Keeps.bind {x : EStateM ε σ α} {g : α → EStateM ε σ β} (hx : Keeps f x) (hg : ∀ a, Keeps f (g a)) :
    Keeps f (x >>= g) := by
  intro s
  rw [bind_apply]
  cases h : x s with
  | ok a s' => exact (hg a s').trans (hx.of_ok h)
  | error e s' => exact hx.of_error h

theorem keeps_focus {τ : Type u} {view : σ → τ} {put : σ → τ → σ} (h : ∀ s t, f (put s t) = f s)
    (x : EStateM ε τ α) : Keeps f (focus view put x) := by
  intro s
  unfold focus
  cases x (view s) with
  | ok a t => exact h s t
  | error e t => exact h s t

theorem keeps_ofExcept (x : Except ε α) : Keeps f (ofExcept x : EStateM ε σ α) := by
  cases x with
  | ok a => exact keeps_pure a
  | error e => exact keeps_throw e

theorem keeps_modify {g : σ → σ} (h : ∀ s, f (g s) = f s) : Keeps f (modify g : EStateM ε σ PUnit) := h

theorem Keeps.map {x : EStateM ε σ α} (hx : Keeps f x) (g : α → β) : Keeps f (g <$> x) := by
  intro s
  rw [map_apply]
  cases h : x s with
  | ok a s' => exact hx.of_ok h
  | error e s' => exact hx.of_error h

theorem Keeps.tryCatch {x : EStateM ε σ α} {handle : ε → EStateM ε σ α} (hx : Keeps f x)
    (hhandle : ∀ e, Keeps f (handle e)) : Keeps f (tryCatch x handle : EStateM ε σ α) := by
  intro s
  rw [tryCatch_apply]
  cases h : x s with
  | ok a s' => exact hx.of_ok h
  | error e s' => exact (hhandle e s').trans (hx.of_error h)

theorem Keeps.each {g : α → EStateM ε σ β} (hg : ∀ a, Keeps f (g a)) (as : List α) : Keeps f (each g as) := by
  induction as with
  | nil => exact keeps_pure _
  | cons a as ih => exact (hg a).bind fun _ => ih.bind fun _ => keeps_pure _

theorem Keeps.collect {g : α → EStateM ε σ (Option β)} (hg : ∀ a, Keeps f (g a)) (as : List α) :
    Keeps f (collect g as) := by
  induction as with
  | nil => exact keeps_pure _
  | cons a as ih => exact (hg a).bind fun _ => ih.bind fun _ => keeps_pure _

theorem Keeps.foldlM {g : β → α → EStateM ε σ β} (hg : ∀ b a, Keeps f (g b a)) (as : List α) (b : β) :
    Keeps f (as.foldlM g b) := by
  induction as generalizing b with
  | nil => exact keeps_pure b
  | cons a as ih =>
    rw [List.foldlM_cons]
    exact (hg b a).bind fun b' => ih b'

end Keeps

/-! ### What holds when a program ends -/

/-- The program, started in `s`, ends with `Q` if it returns and with `E` if it raises. -/
def Ends (x : EStateM ε σ α) (s : σ) (Q : α → σ → Prop) (E : ε → σ → Prop) : Prop :=
  match x s with
  | .ok a s' => Q a s'
  | .error e s' => E e s'

section Ends

variable {x : EStateM ε σ α} {s : σ} {Q : α → σ → Prop} {E : ε → σ → Prop}

theorem ends_of (hQ : ∀ a s', x s = .ok a s' → Q a s') (hE : ∀ e s', x s = .error e s' → E e s') :
    Ends x s Q E := by
  unfold Ends
  cases h : x s with
  | ok a s' => exact hQ a s' h
  | error e s' => exact hE e s' h

theorem ends_of_eq_ok {a : α} {s' : σ} (hx : x s = .ok a s') (hQ : Q a s') : Ends x s Q E := by
  unfold Ends
  rwa [hx]

theorem Ends.mono (h : Ends x s Q E) {Q' : α → σ → Prop} {E' : ε → σ → Prop} (hQ : ∀ a s', Q a s' → Q' a s')
    (hE : ∀ e s', E e s' → E' e s') : Ends x s Q' E' := by
  unfold Ends at h ⊢
  cases hx : x s with
  | ok a s' => rw [hx] at h; exact hQ a s' h
  | error e s' => rw [hx] at h; exact hE e s' h

theorem Ends.and (h : Ends x s Q E) {Q' : α → σ → Prop} {E' : ε → σ → Prop} (h' : Ends x s Q' E') :
    Ends x s (fun a s' => Q a s' ∧ Q' a s') fun e s' => E e s' ∧ E' e s' := by
  unfold Ends at h h' ⊢
  cases hx : x s with
  | ok a s' => rw [hx] at h h'; exact ⟨h, h'⟩
  | error e s' => rw [hx] at h h'; exact ⟨h, h'⟩

theorem Ends.of_ok (h : Ends x s Q E) {a : α} {s' : σ} (hx : x s = .ok a s') : Q a s' := by
  unfold Ends at h
  rwa [hx] at h

/-- A program that does not raise. -/
theorem Ends.exists_ok (h : Ends x s Q fun _ _ => False) : ∃ a s', x s = .ok a s' ∧ Q a s' := by
  unfold Ends at h
  cases hx : x s with
  | ok a s' => rw [hx] at h; exact ⟨a, s', rfl, h⟩
  | error e s' => rw [hx] at h; exact h.elim

theorem Ends.final {P : σ → Prop} (h : Ends x s (fun _ => P) fun _ => P) : P (final (x s)) := by
  unfold Ends at h
  cases hx : x s with
  | ok a s' => rw [hx] at h; exact h
  | error e s' => rw [hx] at h; exact h

/-- A program that leaves `f` alone, with what it returned. -/
theorem Keeps.ends {γ : Type v} {f : σ → γ} (h : Keeps f x) (s : σ) :
    Ends x s (fun a s' => x s = .ok a s' ∧ f s' = f s) fun _ s' => f s' = f s :=
  ends_of (fun _ _ hx => ⟨hx, h.of_ok hx⟩) fun _ _ hx => h.of_error hx

/-- Sequences. -/
theorem Ends.bind {f : α → EStateM ε σ β} {Q : β → σ → Prop} (h : Ends x s (fun a s' => Ends (f a) s' Q E) E) :
    Ends (x >>= f) s Q E := by
  unfold Ends at h ⊢
  rw [bind_apply]
  cases hx : x s with
  | ok a s' => rw [hx] at h; exact h
  | error e s' => rw [hx] at h; exact h

theorem ends_ofExcept {y : Except ε α} (hQ : ∀ a, y = .ok a → Q a s) (hE : ∀ e, E e s) :
    Ends (ofExcept y) s Q E := by
  cases y with
  | ok a => exact hQ a rfl
  | error e => exact hE e

/-- A program on a part of the state: what holds of that part at its end. -/
theorem Ends.focus {τ : Type u} {view : σ → τ} {put : σ → τ → σ} {y : EStateM ε τ α} {Q : α → τ → Prop}
    {E : ε → τ → Prop} (h : Ends y (view s) Q E) :
    Ends (focus view put y) s (fun a s' => ∃ t, s' = put s t ∧ Q a t) fun e s' => ∃ t, s' = put s t ∧ E e t := by
  unfold Ends at h
  unfold Ends Effect.focus
  cases hy : y (view s) with
  | ok a t => rw [hy] at h; exact ⟨t, rfl, h⟩
  | error e t => rw [hy] at h; exact ⟨t, rfl, h⟩

/-- A program on a part of the state ends with that part replaced. -/
theorem ends_focus {τ : Type u} (view : σ → τ) (put : σ → τ → σ) (y : EStateM ε τ α) (s : σ) :
    Ends (focus view put y) s (fun _ s' => ∃ t, s' = put s t) fun _ s' => ∃ t, s' = put s t := by
  unfold Ends focus
  cases y (view s) with
  | ok a t => exact ⟨t, rfl⟩
  | error e t => exact ⟨t, rfl⟩

/-- Handlers. -/
theorem Ends.tryCatch {handle : ε → EStateM ε σ α} (h : Ends x s Q fun e s' => Ends (handle e) s' Q E) :
    Ends (tryCatch x handle : EStateM ε σ α) s Q E := by
  unfold Ends at h ⊢
  rw [tryCatch_apply]
  cases hx : x s with
  | ok a s' => rw [hx] at h; exact h
  | error e s' => rw [hx] at h; exact h

/-- **Loops that collect**: the invariant is about what was collected so far and the state. -/
theorem ends_collect {f : α → EStateM ε σ (Option β)} {I : List β → σ → Prop} {as : List α}
    (hf : ∀ a ∈ as, ∀ bs s, I bs s → Ends (f a) s (fun b s' => I (bs ++ b.toList) s') E) (bs : List β) {s : σ}
    (hs : I bs s) : Ends (collect f as) s (fun more s' => I (bs ++ more) s') E := by
  induction as generalizing bs s with
  | nil =>
    show I (bs ++ []) s
    rwa [List.append_nil]
  | cons a as ih =>
    refine Ends.bind ((hf a (List.mem_cons_self ..) bs s hs).mono ?_ fun _ _ h => h)
    intro b s' hb
    refine Ends.bind ((ih (fun a' ha' => hf a' (List.mem_cons_of_mem _ ha')) _ hb).mono ?_ fun _ _ h => h)
    intro more s'' hmore
    show I (bs ++ (b.toList ++ more)) s''
    rwa [← List.append_assoc]

/-- **Loops that collect**, with an invariant about the items that are left and the state. -/
theorem ends_collect_rest {f : α → EStateM ε σ (Option β)} {I : List α → σ → Prop} {P : σ → Prop}
    (hnil : ∀ s, I [] s → P s)
    (hf : ∀ a as s, I (a :: as) s → Ends (f a) s (fun _ s' => I as s') fun _ => P) {as : List α} {s : σ}
    (hs : I as s) : Ends (collect f as) s (fun _ => P) fun _ => P := by
  induction as generalizing s with
  | nil => exact hnil s hs
  | cons a as ih =>
    refine Ends.bind ((hf a as s hs).mono ?_ fun _ _ h => h)
    intro b s' hb
    refine Ends.bind ((ih hb).mono ?_ fun _ _ h => h)
    intro more s'' hmore
    exact hmore

end Ends

/-! ### What does not depend on the state -/

section Steady

variable {γ : Type v} {f : α → γ} {x : EStateM ε σ α}

/-- Whenever the program returns, `f` of what it returns is the same. -/
def Steady (f : α → γ) (x : EStateM ε σ α) : Prop :=
  ∀ s t a b s' t', x s = .ok a s' → x t = .ok b t' → f a = f b

theorem steady_pure (a : α) : Steady f (pure a : EStateM ε σ α) := by
  intro s t a₁ a₂ s' t' h₁ h₂
  cases h₁
  cases h₂
  rfl

theorem steady_unit (x : EStateM ε σ PUnit) : Steady id x := fun _ _ _ _ _ _ _ _ => rfl

theorem steady_throw (e : ε) : Steady f (throw e : EStateM ε σ α) := by
  intro s t a₁ a₂ s' t' h₁ _
  cases h₁

/-- Sequences: the second part may depend on what the first part returns. -/
theorem Steady.bind {g : β → EStateM ε σ α} {y : EStateM ε σ β} (hy : Steady id y) (hg : ∀ b, Steady f (g b)) :
    Steady f (y >>= g) := by
  intro s t a₁ a₂ s' t' h₁ h₂
  obtain ⟨b₁, s₁, hb₁, h₁⟩ := bind_eq_ok.mp h₁
  obtain ⟨b₂, t₁, hb₂, h₂⟩ := bind_eq_ok.mp h₂
  obtain rfl : b₁ = b₂ := hy _ _ _ _ _ _ hb₁ hb₂
  exact hg b₁ _ _ _ _ _ _ h₁ h₂

theorem steady_ofExcept (y : Except ε α) : Steady f (ofExcept y : EStateM ε σ α) := by
  cases y with
  | ok a => exact steady_pure a
  | error e => exact steady_throw e

theorem Steady.map {g : β → α} {y : EStateM ε σ β} (hy : Steady id y) : Steady f (g <$> y) := by
  intro s t a₁ a₂ s' t' h₁ h₂
  obtain ⟨b₁, hb₁, rfl⟩ := map_eq_ok.mp h₁
  obtain ⟨b₂, hb₂, rfl⟩ := map_eq_ok.mp h₂
  exact congrArg (fun b => f (g b)) (hy _ _ _ _ _ _ hb₁ hb₂)

theorem Steady.each {g : α → EStateM ε σ β} (hg : ∀ a, Steady id (g a)) (as : List α) : Steady id (each g as) := by
  induction as with
  | nil => exact steady_pure []
  | cons a as ih => exact (hg a).bind fun b => ih.bind fun bs => steady_pure (b :: bs)

theorem Steady.collect {g : α → EStateM ε σ (Option β)} (hg : ∀ a, Steady id (g a)) (as : List α) :
    Steady id (collect g as) := by
  induction as with
  | nil => exact steady_pure []
  | cons a as ih => exact (hg a).bind fun b => ih.bind fun bs => steady_pure (b.toList ++ bs)

theorem Steady.foldlM {g : β → α → EStateM ε σ β} (hg : ∀ b a, Steady id (g b a)) (as : List α) (b : β) :
    Steady id (as.foldlM g b) := by
  induction as generalizing b with
  | nil => exact steady_pure b
  | cons a as ih =>
    rw [List.foldlM_cons]
    exact (hg b a).bind ih

end Steady

/-! ### Simulation -/

/-- What a program did, seen on a part of the state. -/
def project {τ : Type u} (view : σ → τ) : EStateM.Result ε σ α → EStateM.Result ε τ α
  | .ok a s => .ok a (view s)
  | .error e s => .error e (view s)

section Project

variable {τ : Type u} {view : σ → τ}

theorem project_eq_ok {r : EStateM.Result ε σ α} {a : α} {t : τ} :
    project view r = .ok a t ↔ ∃ s, r = .ok a s ∧ view s = t := by
  cases r with
  | ok b s =>
    constructor
    · intro h
      cases h
      exact ⟨s, rfl, rfl⟩
    · rintro ⟨s', hs, rfl⟩
      cases hs
      rfl
  | error e s => simp [project]

/-- Sequences: if the first parts agree on the view, and so do the second parts after them. -/
theorem project_bind {x : EStateM ε σ α} {y : EStateM ε τ α} {f : α → EStateM ε σ β} {g : α → EStateM ε τ β}
    {s : σ} (hx : project view (x s) = y (view s))
    (hf : ∀ a s', x s = .ok a s' → project view (f a s') = g a (view s')) :
    project view ((x >>= f) s) = (y >>= g) (view s) := by
  rw [bind_apply, bind_apply, ← hx]
  cases h : x s with
  | ok a s' => exact hf a s' h
  | error e s' => rfl

/-- A program on the part agrees with itself. -/
theorem project_focus {put : σ → τ → σ} (hput : ∀ s t, view (put s t) = t) (x : EStateM ε τ α) (s : σ) :
    project view (focus view put x s) = x (view s) := by
  unfold focus
  cases x (view s) with
  | ok a t => simp only [project, hput]
  | error e t => simp only [project, hput]

/-- Loops: if the bodies agree on the view in the states that the loop goes through. -/
theorem project_each {f : α → EStateM ε σ β} {g : α → EStateM ε τ β} {P : List α → σ → Prop}
    (hbody : ∀ a as s, P (a :: as) s → project view (f a s) = g a (view s))
    (hstep : ∀ a as s b s', P (a :: as) s → f a s = .ok b s' → P as s') {as : List α} {s : σ} (hs : P as s) :
    project view (each f as s) = each g as (view s) := by
  induction as generalizing s with
  | nil => rfl
  | cons a as ih =>
    refine project_bind (hbody a as s hs) ?_
    intro b s' hb
    refine project_bind (ih (hstep a as s b s' hs hb)) ?_
    intro bs s'' _
    rfl

end Project

end NanoDelta.Library.Effect
