import Mathlib.Data.List.Perm.Basic
import NanoDelta.Library.Effect

/-!
# Programs that follow a script

A program that writes to the state and reads nothing from it does the same in every state: it returns the same and
appends the same to its log, unless what it writes to raises. The script of a program says what that is. It is an
`Except`: a program may raise of itself, whatever the state.

* `Follows.bind`, `follows_each`, `follows_collect`: the script of a sequence, and of a loop.
* `scripts_perm`: the scripts of the items of a list in another order.
* `Scripted.eq`: two runs of a program, in any two states.
* `Alike`: two programs whose scripts are related, and `alike_each_perm`, a loop in another order.
-/

namespace NanoDelta.Library.Effect

universe u

variable {ε σ α β δ : Type u} {log : σ → List δ} {calm : Prop}

/-- What a program returns and appends to its log, or what it raises. -/
abbrev Script (ε α δ : Type u) := Except ε (α × List δ)

/-- In every state the program does what the script says. It may raise something else if not `calm`. -/
def Follows (log : σ → List δ) (calm : Prop) (x : EStateM ε σ α) (script : Script ε α δ) : Prop :=
  ∀ s, match x s with
    | .ok a s' => ∃ ds, script = .ok (a, ds) ∧ log s' = log s ++ ds
    | .error e _ => calm → script = .error e

theorem Follows.of_ok {x : EStateM ε σ α} {script : Script ε α δ} (h : Follows log calm x script) {s s' : σ} {a : α}
    (hx : x s = .ok a s') : ∃ ds, script = .ok (a, ds) ∧ log s' = log s ++ ds := by
  have hs := h s
  rwa [hx] at hs

theorem Follows.of_error {x : EStateM ε σ α} {script : Script ε α δ} (h : Follows log calm x script) {s s' : σ} {e : ε}
    (hx : x s = .error e s') (hcalm : calm) : script = .error e := by
  have hs := h s
  rw [hx] at hs
  exact hs hcalm

/-- If nothing else raises, a script that returns is followed to its end. -/
theorem Follows.returns {x : EStateM ε σ α} {a : α} {ds : List δ} (h : Follows log calm x (.ok (a, ds))) (hcalm : calm)
    (s : σ) : ∃ s', x s = .ok a s' ∧ log s' = log s ++ ds := by
  cases hx : x s with
  | ok b s' =>
    obtain ⟨es, he, hlog⟩ := h.of_ok hx
    cases he
    exact ⟨s', rfl, hlog⟩
  | error e s' => cases h.of_error hx hcalm

/-! ### Sequences -/

theorem follows_pure (a : α) : Follows log calm (pure a : EStateM ε σ α) (.ok (a, [])) :=
  fun _ => ⟨[], rfl, (List.append_nil _).symm⟩

theorem follows_throw (e : ε) : Follows log calm (throw e : EStateM ε σ α) (.error e) := fun _ _ => rfl

theorem follows_ofExcept (y : Except ε α) :
    Follows log calm (ofExcept y : EStateM ε σ α) (y.map fun a => (a, [])) := by
  cases y with
  | ok a => exact follows_pure a
  | error e => exact follows_throw e

/-- One script after another. -/
def Script.bind (script : Script ε α δ) (rest : α → Script ε β δ) : Script ε β δ :=
  match script with
  | .ok (a, ds) => (rest a).map fun r => (r.1, ds ++ r.2)
  | .error e => .error e

theorem Follows.bind {x : EStateM ε σ α} {f : α → EStateM ε σ β} {script : Script ε α δ} {rest : α → Script ε β δ}
    (hx : Follows log calm x script) (hf : ∀ a, Follows log calm (f a) (rest a)) :
    Follows log calm (x >>= f) (script.bind rest) := by
  intro s
  rw [bind_apply]
  cases h : x s with
  | ok a s₁ =>
    obtain ⟨ds, rfl, hlog⟩ := hx.of_ok h
    simp only
    cases h' : f a s₁ with
    | ok b s₂ =>
      obtain ⟨es, hes, hlog'⟩ := (hf a).of_ok h'
      refine ⟨ds ++ es, ?_, ?_⟩
      · rw [Script.bind, hes]
        rfl
      · rw [hlog', hlog, List.append_assoc]
    | error e s₂ =>
      intro hcalm
      rw [Script.bind, (hf a).of_error h' hcalm]
      rfl
  | error e s₁ =>
    intro hcalm
    rw [hx.of_error h hcalm]
    rfl

theorem Follows.map {x : EStateM ε σ α} {script : Script ε α δ} (hx : Follows log calm x script) (f : α → β) :
    Follows log calm (f <$> x) (script.map fun r => (f r.1, r.2)) := by
  intro s
  rw [map_apply]
  cases h : x s with
  | ok a s₁ =>
    obtain ⟨ds, rfl, hlog⟩ := hx.of_ok h
    exact ⟨ds, rfl, hlog⟩
  | error e s₁ =>
    intro hcalm
    rw [hx.of_error h hcalm]
    rfl

theorem except_map_eq_ok {x : Except ε α} {f : α → β} {b : β} : x.map f = .ok b ↔ ∃ a, x = .ok a ∧ f a = b := by
  cases x with
  | error e => exact ⟨fun h => (nomatch h), fun ⟨_, h, _⟩ => (nomatch h)⟩
  | ok a => exact ⟨fun h => ⟨a, rfl, Except.ok.inj h⟩, fun ⟨_, ha, hb⟩ => by cases ha; exact congrArg _ hb⟩

/-! ### Loops -/

section Loops

variable {script : α → Script ε β δ}

/-- The scripts of the items of a list, one after another. -/
def scripts (script : α → Script ε β δ) (as : List α) : Except ε (List (β × List δ)) := as.mapM (m := Except ε) script

theorem scripts_cons_eq_ok {a : α} {as : List α} {rs : List (β × List δ)} :
    scripts script (a :: as) = .ok rs ↔ ∃ r rest, script a = .ok r ∧ scripts script as = .ok rest ∧ rs = r :: rest := by
  unfold scripts
  rw [List.mapM_cons, except_bind_eq_ok]
  constructor
  · rintro ⟨r, hr, h⟩
    obtain ⟨rest, hrest, h⟩ := except_bind_eq_ok.mp h
    cases h
    exact ⟨r, rest, hr, hrest, rfl⟩
  · rintro ⟨r, rest, hr, hrest, rfl⟩
    exact ⟨r, hr, except_bind_eq_ok.mpr ⟨rest, hrest, rfl⟩⟩

/-- The script of a loop: the results of its items and all that they append. -/
theorem follows_each {f : α → EStateM ε σ β} (hf : ∀ a, Follows log calm (f a) (script a)) (as : List α) :
    Follows log calm (each f as) ((scripts script as).map fun rs => (rs.map Prod.fst, (rs.map Prod.snd).flatten)) := by
  induction as with
  | nil => exact follows_pure []
  | cons a as ih =>
    have hscript : ((scripts script (a :: as)).map fun rs => (rs.map Prod.fst, (rs.map Prod.snd).flatten)) =
        (script a).bind fun b =>
          Script.bind ((scripts script as).map fun rs => (rs.map Prod.fst, (rs.map Prod.snd).flatten)) fun bs =>
            .ok (b :: bs, []) := by
      unfold scripts
      rw [List.mapM_cons]
      cases script a with
      | error e => rfl
      | ok r =>
        cases as.mapM (m := Except ε) script with
        | error e => rfl
        | ok rs => simp [Script.bind, Except.map, Bind.bind, Except.bind, Pure.pure, Except.pure]
    rw [hscript]
    exact (hf a).bind fun b => ih.bind fun bs => follows_pure (b :: bs)

/-- The script of a loop that keeps some results. -/
theorem follows_collect {script : α → Script ε (Option β) δ} {f : α → EStateM ε σ (Option β)}
    (hf : ∀ a, Follows log calm (f a) (script a)) (as : List α) :
    Follows log calm (collect f as)
      ((scripts script as).map fun rs => (rs.filterMap Prod.fst, (rs.map Prod.snd).flatten)) := by
  induction as with
  | nil => exact follows_pure []
  | cons a as ih =>
    have hscript : ((scripts script (a :: as)).map fun rs => (rs.filterMap Prod.fst, (rs.map Prod.snd).flatten)) =
        (script a).bind fun b =>
          Script.bind ((scripts script as).map fun rs => (rs.filterMap Prod.fst, (rs.map Prod.snd).flatten)) fun bs =>
            .ok (b.toList ++ bs, []) := by
      unfold scripts
      rw [List.mapM_cons]
      cases script a with
      | error e => rfl
      | ok r =>
        obtain ⟨b, ds⟩ := r
        cases as.mapM (m := Except ε) script with
        | error e => rfl
        | ok rs => cases b <;> simp [Script.bind, Except.map, Bind.bind, Except.bind, Pure.pure, Except.pure]
    rw [hscript]
    exact (hf a).bind fun b => ih.bind fun bs => follows_pure (b.toList ++ bs)

/-- **Scripts in another order** return the same results, in that order. -/
theorem scripts_perm {as as' : List α} (hperm : as.Perm as') :
    ∀ {rs : List (β × List δ)}, scripts script as = .ok rs → ∃ rs', scripts script as' = .ok rs' ∧ rs.Perm rs' := by
  induction hperm with
  | nil => exact fun h => ⟨_, h, .refl _⟩
  | cons a _ ih =>
    intro rs h
    obtain ⟨r, rest, hr, hrest, rfl⟩ := scripts_cons_eq_ok.mp h
    obtain ⟨rest', hrest', hperm⟩ := ih hrest
    exact ⟨r :: rest', scripts_cons_eq_ok.mpr ⟨r, rest', hr, hrest', rfl⟩, hperm.cons r⟩
  | swap a a' as =>
    intro rs h
    obtain ⟨r', tail, hr', htail, rfl⟩ := scripts_cons_eq_ok.mp h
    obtain ⟨r, rest, hr, hrest, rfl⟩ := scripts_cons_eq_ok.mp htail
    refine ⟨r :: r' :: rest, scripts_cons_eq_ok.mpr ⟨r, r' :: rest, hr, ?_, rfl⟩, .swap r r' rest⟩
    exact scripts_cons_eq_ok.mpr ⟨r', rest, hr', hrest, rfl⟩
  | trans _ _ ih ih' =>
    intro rs h
    obtain ⟨rs', h', hperm⟩ := ih h
    obtain ⟨rs'', h'', hperm'⟩ := ih' h'
    exact ⟨rs'', h'', hperm.trans hperm'⟩

end Loops

/-! ### What a loop appends -/

section Appends

variable {R : α → β → List δ → Prop}

/-- What a loop returns and appends, item by item. -/
theorem each_appends {f : α → EStateM ε σ β}
    (hf : ∀ a s b s', f a s = .ok b s' → ∃ ds, log s' = log s ++ ds ∧ R a b ds) {as : List α} {s s' : σ} {bs : List β}
    (h : each f as s = .ok bs s') : ∃ rs : List (β × List δ), bs = rs.map Prod.fst ∧
      log s' = log s ++ (rs.map Prod.snd).flatten ∧ List.Forall₂ (fun a r => R a r.1 r.2) as rs := by
  induction as generalizing s bs with
  | nil =>
    obtain ⟨rfl, rfl⟩ := each_nil_eq_ok.mp h
    exact ⟨[], rfl, (List.append_nil _).symm, .nil⟩
  | cons a as ih =>
    obtain ⟨b, s₁, bs', hb, hbs, rfl⟩ := each_cons_eq_ok.mp h
    obtain ⟨ds, hlog, hR⟩ := hf a s b s₁ hb
    obtain ⟨rs, rfl, hlog', hrest⟩ := ih hbs
    refine ⟨(b, ds) :: rs, rfl, ?_, .cons hR hrest⟩
    rw [hlog', hlog, List.map_cons, List.flatten_cons, List.append_assoc]

/-- The same for a loop that keeps some results. -/
theorem collect_appends {R : α → Option β → List δ → Prop} {f : α → EStateM ε σ (Option β)}
    (hf : ∀ a s b s', f a s = .ok b s' → ∃ ds, log s' = log s ++ ds ∧ R a b ds) {as : List α} {s s' : σ} {bs : List β}
    (h : collect f as s = .ok bs s') : ∃ rs : List (Option β × List δ), bs = rs.filterMap Prod.fst ∧
      log s' = log s ++ (rs.map Prod.snd).flatten ∧ List.Forall₂ (fun a r => R a r.1 r.2) as rs := by
  induction as generalizing s bs with
  | nil =>
    cases h
    exact ⟨[], rfl, (List.append_nil _).symm, .nil⟩
  | cons a as ih =>
    obtain ⟨b, s₁, bs', hb, hbs, rfl⟩ := collect_cons_eq_ok.mp h
    obtain ⟨ds, hlog, hR⟩ := hf a s b s₁ hb
    obtain ⟨rs, rfl, hlog', hrest⟩ := ih hbs
    refine ⟨(b, ds) :: rs, ?_, ?_, .cons hR hrest⟩
    · cases b <;> rfl
    · rw [hlog', hlog, List.map_cons, List.flatten_cons, List.append_assoc]

end Appends

/-! ### Programs that have a script -/

/-- There is a script that the program follows. -/
def Scripted (log : σ → List δ) (calm : Prop) (x : EStateM ε σ α) : Prop := ∃ script, Follows log calm x script

section Scripted

variable {x : EStateM ε σ α}

theorem Follows.scripted {script : Script ε α δ} (h : Follows log calm x script) : Scripted log calm x := ⟨script, h⟩

/-- Two runs that return, in any two states: they return the same and append the same. -/
theorem Scripted.eq (h : Scripted log calm x) {s s' t t' : σ} {a b : α} (hs : x s = .ok a s') (ht : x t = .ok b t') :
    a = b ∧ ∃ ds, log s' = log s ++ ds ∧ log t' = log t ++ ds := by
  obtain ⟨script, hscript⟩ := h
  obtain ⟨ds, hds, hlog⟩ := hscript.of_ok hs
  obtain ⟨es, hes, hlog'⟩ := hscript.of_ok ht
  cases hds.symm.trans hes
  exact ⟨rfl, ds, hlog, hlog'⟩

/-- If nothing else raises, a program that returns in a state returns in every state. -/
theorem Scripted.returns (h : Scripted log calm x) (hcalm : calm) {s s' : σ} {a : α} (hs : x s = .ok a s') (t : σ) :
    ∃ t', x t = .ok a t' := by
  obtain ⟨script, hscript⟩ := h
  obtain ⟨ds, rfl, -⟩ := hscript.of_ok hs
  obtain ⟨t', ht, -⟩ := hscript.returns hcalm t
  exact ⟨t', ht⟩

theorem scripted_pure (a : α) : Scripted log calm (pure a : EStateM ε σ α) := (follows_pure a).scripted

theorem scripted_throw (e : ε) : Scripted log calm (throw e : EStateM ε σ α) := (follows_throw e).scripted

theorem scripted_ofExcept (y : Except ε α) : Scripted log calm (ofExcept y : EStateM ε σ α) :=
  (follows_ofExcept y).scripted

theorem Scripted.bind {f : α → EStateM ε σ β} (hx : Scripted log calm x) (hf : ∀ a, Scripted log calm (f a)) :
    Scripted log calm (x >>= f) := by
  obtain ⟨script, hscript⟩ := hx
  choose rest hrest using hf
  exact (hscript.bind hrest).scripted

theorem Scripted.map (hx : Scripted log calm x) (f : α → β) : Scripted log calm (f <$> x) := by
  obtain ⟨script, hscript⟩ := hx
  exact (hscript.map f).scripted

theorem Scripted.each {f : α → EStateM ε σ β} (hf : ∀ a, Scripted log calm (f a)) (as : List α) :
    Scripted log calm (each f as) := by
  choose script hscript using hf
  exact (follows_each hscript as).scripted

theorem Scripted.collect {f : α → EStateM ε σ (Option β)} (hf : ∀ a, Scripted log calm (f a)) (as : List α) :
    Scripted log calm (collect f as) := by
  choose script hscript using hf
  exact (follows_collect hscript as).scripted

theorem Scripted.foldlM {f : β → α → EStateM ε σ β} (hf : ∀ b a, Scripted log calm (f b a)) (as : List α) (b : β) :
    Scripted log calm (as.foldlM f b) := by
  induction as generalizing b with
  | nil => exact scripted_pure b
  | cons a as ih =>
    rw [List.foldlM_cons]
    exact (hf b a).bind ih

end Scripted

/-! ### Two programs -/

section Alike

variable {D : List δ → List δ → Prop} {R : α → β → Prop} {x : EStateM ε σ α} {y : EStateM ε σ β}

/-- If the first program returns, the second one returns something related to it, in any state, unless what it writes to
raises; and what they append is related. -/
def Alike (log : σ → List δ) (calm : Prop) (D : List δ → List δ → Prop) (R : α → β → Prop) (x : EStateM ε σ α)
    (y : EStateM ε σ β) : Prop :=
  ∀ s a s', x s = .ok a s' → ∀ t,
    (∀ b t', y t = .ok b t' → R a b ∧ ∃ ds es, log s' = log s ++ ds ∧ log t' = log t ++ es ∧ D ds es) ∧
    (calm → ∃ b t', y t = .ok b t')

/-- Two programs with scripts. -/
theorem alike_of_follows {script : Script ε α δ} {script' : Script ε β δ} (hx : Follows log calm x script)
    (hy : Follows log calm y script')
    (h : ∀ a ds, script = .ok (a, ds) → ∃ b es, script' = .ok (b, es) ∧ R a b ∧ D ds es) :
    Alike log calm D R x y := by
  intro s a s' hs t
  obtain ⟨ds, hds, hlog⟩ := hx.of_ok hs
  obtain ⟨b, es, rfl, hR, hD⟩ := h a ds hds
  refine ⟨fun b' t' ht => ?_, fun hcalm => ?_⟩
  · obtain ⟨es', hes', hlog'⟩ := hy.of_ok ht
    cases hes'
    exact ⟨hR, ds, es, hlog, hlog', hD⟩
  · obtain ⟨t', ht, -⟩ := hy.returns hcalm t
    exact ⟨b, t', ht⟩

/-- A program is like itself. -/
theorem Scripted.alike (hD : ∀ ds, D ds ds) (hx : Scripted log calm x) : Alike log calm D Eq x x := by
  obtain ⟨script, hscript⟩ := hx
  exact alike_of_follows hscript hscript fun a ds h => ⟨a, ds, h, rfl, hD ds⟩

theorem Alike.bind {α' β' : Type u} {Q : α' → β' → Prop} {f : α → EStateM ε σ α'} {g : β → EStateM ε σ β'}
    (hD : ∀ {ds es ds' es'}, D ds es → D ds' es' → D (ds ++ ds') (es ++ es')) (hxy : Alike log calm D R x y)
    (hfg : ∀ a b, R a b → Alike log calm D Q (f a) (g b)) : Alike log calm D Q (x >>= f) (y >>= g) := by
  intro s a' s' hs t
  obtain ⟨a, s₁, ha, hs⟩ := bind_eq_ok.mp hs
  obtain ⟨hsame, hreturns⟩ := hxy s a s₁ ha t
  refine ⟨fun b' t' ht => ?_, fun hcalm => ?_⟩
  · obtain ⟨b, t₁, hb, ht⟩ := bind_eq_ok.mp ht
    obtain ⟨hR, ds, es, hlog, hlog', hds⟩ := hsame b t₁ hb
    obtain ⟨hQ, ds', es', hlog₁, hlog₁', hds'⟩ := (hfg a b hR s₁ a' s' hs t₁).1 b' t' ht
    refine ⟨hQ, ds ++ ds', es ++ es', ?_, ?_, hD hds hds'⟩
    · rw [hlog₁, hlog, List.append_assoc]
    · rw [hlog₁', hlog', List.append_assoc]
  · obtain ⟨b, t₁, hb⟩ := hreturns hcalm
    obtain ⟨b', t', ht⟩ := (hfg a b (hsame b t₁ hb).1 s₁ a' s' hs t₁).2 hcalm
    exact ⟨b', t', bind_eq_ok.mpr ⟨b, t₁, hb, ht⟩⟩

theorem Alike.map {α' β' : Type u} {Q : α' → β' → Prop} {f : α → α'} {g : β → β'} (hxy : Alike log calm D R x y)
    (hfg : ∀ a b, R a b → Q (f a) (g b)) : Alike log calm D Q (f <$> x) (g <$> y) := by
  intro s a' s' hs t
  obtain ⟨a, ha, rfl⟩ := map_eq_ok.mp hs
  obtain ⟨hsame, hreturns⟩ := hxy s a s' ha t
  refine ⟨fun b' t' ht => ?_, fun hcalm => ?_⟩
  · obtain ⟨b, hb, rfl⟩ := map_eq_ok.mp ht
    obtain ⟨hR, hlogs⟩ := hsame b t' hb
    exact ⟨hfg a b hR, hlogs⟩
  · obtain ⟨b, t', hb⟩ := hreturns hcalm
    exact ⟨g b, t', map_eq_ok.mpr ⟨b, hb, rfl⟩⟩

/-- **A loop in another order** returns the same results, in that order, and appends the same in another order. -/
theorem alike_each_perm {f : α → EStateM ε σ β} (hf : ∀ a, Scripted log calm (f a)) {as as' : List α}
    (hperm : as.Perm as') : Alike log calm List.Perm List.Perm (each f as) (each f as') := by
  choose script hscript using hf
  refine alike_of_follows (follows_each hscript as) (follows_each hscript as') fun bs ds h => ?_
  cases hrs : scripts script as with
  | error e =>
    rw [hrs] at h
    cases h
  | ok rs =>
    rw [hrs] at h
    cases h
    obtain ⟨rs', hrs', hrsperm⟩ := scripts_perm hperm hrs
    rw [hrs']
    exact ⟨_, _, rfl, hrsperm.map _, (hrsperm.map _).flatten⟩

/-- The same for a loop that keeps some results. -/
theorem alike_collect_perm {f : α → EStateM ε σ (Option β)} (hf : ∀ a, Scripted log calm (f a)) {as as' : List α}
    (hperm : as.Perm as') : Alike log calm List.Perm List.Perm (collect f as) (collect f as') := by
  choose script hscript using hf
  refine alike_of_follows (follows_collect hscript as) (follows_collect hscript as') fun bs ds h => ?_
  cases hrs : scripts script as with
  | error e =>
    rw [hrs] at h
    cases h
  | ok rs =>
    rw [hrs] at h
    cases h
    obtain ⟨rs', hrs', hrsperm⟩ := scripts_perm hperm hrs
    rw [hrs']
    exact ⟨_, _, rfl, hrsperm.filterMap _, (hrsperm.map _).flatten⟩

end Alike

end NanoDelta.Library.Effect
