import Mathlib.Data.List.Basic
import Mathlib.Data.List.Perm.Basic
import Mathlib.Data.List.Nodup
import NanoDelta.Library.Script

/-!
# Sieves and trails

Items go through stages. A stage decides once about every item that reaches it, and it rejects the item or lets it
through to the next stage. What is decided about one item is then a trail: it follows the stages in their order, and
only its last decision can reject.

* `Sieved`: the decisions of a stage.
* `each_sieves`, `collect_sieves`: a stage that is a loop.
* `Sieves.trail`: the trail of an item that went through several stages.
-/

namespace NanoDelta.Library

universe u v w

variable {ι : Type u} {κ : Type v} {δ : Type w}

/-- What there is to know about decisions: the item, the stage, and if the item is rejected. -/
structure Verdicts (ι : Type u) (κ : Type v) (δ : Type w) where
  about : δ → Option ι
  stage : δ → κ
  rejects : δ → Bool

variable {V : Verdicts ι κ δ} {st : κ} {ids ids' kept kept' : List ι} {ds ds' : List δ}

/-- The decisions of a stage: one about each item, and those that do not reject are about what it keeps. -/
structure Sieved (V : Verdicts ι κ δ) (st : κ) (ids kept : List ι) (ds : List δ) : Prop where
  once : (ds.filterMap V.about).Perm ids
  stage : ∀ d ∈ ds, V.about d ≠ none → V.stage d = st
  kept : ((ds.filter fun d => !V.rejects d).filterMap V.about).Perm kept

namespace Sieved

theorem nil (V : Verdicts ι κ δ) (st : κ) : Sieved V st [] [] [] := ⟨.nil, fun _ hd => (nomatch hd), .nil⟩

/-- A decision about an item. -/
theorem single {d : δ} {i : ι} (habout : V.about d = some i) :
    Sieved V (V.stage d) [i] (if V.rejects d then [] else [i]) [d] := by
  refine ⟨by simp [habout], fun e he _ => by rw [List.mem_singleton.mp he], ?_⟩
  cases hrejects : V.rejects d <;> simp [hrejects, habout]

/-- A decision about no item. -/
theorem aside {d : δ} (habout : V.about d = none) : Sieved V st [] [] [d] := by
  refine ⟨by simp [habout], fun e he hne => ?_, ?_⟩
  · rw [List.mem_singleton.mp he] at hne
    exact absurd habout hne
  · cases hrejects : V.rejects d <;> simp [hrejects, habout]

theorem append (h : Sieved V st ids kept ds) (h' : Sieved V st ids' kept' ds') :
    Sieved V st (ids ++ ids') (kept ++ kept') (ds ++ ds') := by
  refine ⟨?_, fun d hd => ?_, ?_⟩
  · rw [List.filterMap_append]
    exact h.once.append h'.once
  · exact (List.mem_append.mp hd).elim (h.stage d) (h'.stage d)
  · rw [List.filter_append, List.filterMap_append]
    exact h.kept.append h'.kept

theorem perm (h : Sieved V st ids kept ds) (hids : ids.Perm ids') (hkept : kept.Perm kept') : Sieved V st ids' kept' ds :=
  ⟨h.once.trans hids, h.stage, h.kept.trans hkept⟩

/-- A stage that is a loop. -/
theorem flatMap {α β : Type*} {inputs : α → List ι} {outputs : β → List ι} {decisions : β → List δ} {as : List α}
    {bs : List β} (h : List.Forall₂ (fun a b => Sieved V st (inputs a) (outputs b) (decisions b)) as bs) :
    Sieved V st (as.flatMap inputs) (bs.flatMap outputs) (bs.flatMap decisions) := by
  induction h with
  | nil => exact .nil V st
  | cons hfirst _ ih =>
    rw [List.flatMap_cons, List.flatMap_cons, List.flatMap_cons]
    exact hfirst.append ih

end Sieved

/-! ### Programs -/

section Programs

open Effect

variable {ε σ α β : Type w} {log : σ → List δ}

/-- What a program decides, if it returns: on which items, and which of them it keeps. -/
def Sieving (log : σ → List δ) (V : Verdicts ι κ δ) (st : κ) (inputs outputs : β → List ι) (x : EStateM ε σ β) : Prop :=
  ∀ s b s', x s = .ok b s' → ∃ ds, log s' = log s ++ ds ∧ Sieved V st (inputs b) (outputs b) ds

section Rules

variable {x : EStateM ε σ α} {f : α → EStateM ε σ β} {inputs outputs : β → List ι}

theorem sieving_pure {b : β} (hinputs : inputs b = []) (houtputs : outputs b = []) :
    Sieving log V st inputs outputs (pure b : EStateM ε σ β) := by
  rintro s _ _ ⟨⟩
  rw [hinputs, houtputs]
  exact ⟨[], (List.append_nil _).symm, .nil V st⟩

theorem sieving_throw (e : ε) : Sieving log V st inputs outputs (throw e : EStateM ε σ β) := by
  rintro s _ _ ⟨⟩

/-- After a step that decides nothing. -/
theorem Sieving.after (hf : ∀ a, Sieving log V st inputs outputs (f a))
    (hx : Sieving log V st (fun _ => []) (fun _ => []) x) : Sieving log V st inputs outputs (x >>= f) := by
  intro s b s' h
  obtain ⟨a, s₁, ha, hb⟩ := bind_eq_ok.mp h
  obtain ⟨ds, hlog, hds⟩ := hx s a s₁ ha
  obtain ⟨ds', hlog', hds'⟩ := hf a s₁ b s' hb
  refine ⟨ds ++ ds', ?_, hds.append hds'⟩
  rw [hlog', hlog, List.append_assoc]

theorem sieving_ofExcept {y : Except ε α} (hf : ∀ a, Sieving log V st inputs outputs (f a)) :
    Sieving log V st inputs outputs (Effect.ofExcept y >>= f) := by
  cases y with
  | error e => exact sieving_throw e
  | ok a => exact hf a

/-- Before a result is returned. -/
theorem Sieving.returning {g : α → β} {inputs' outputs' : α → List ι} (hx : Sieving log V st inputs' outputs' x)
    (hinputs : ∀ a, inputs (g a) = inputs' a) (houtputs : ∀ a, outputs (g a) = outputs' a) :
    Sieving log V st inputs outputs (x >>= fun a => pure (g a)) := by
  intro s b s' h
  obtain ⟨a, s₁, ha, hb⟩ := bind_eq_ok.mp h
  cases hb
  rw [hinputs, houtputs]
  exact hx s a s' ha

end Rules

variable {inputs : α → List ι} {outputs : β → List ι}

theorem flatMap_filterMap {α β γ : Type*} (f : α → Option β) (g : β → List γ) (as : List α) :
    (as.filterMap f).flatMap g = as.flatMap fun a => (f a).toList.flatMap g := by
  rw [List.filterMap_eq_flatMap_toList, List.flatMap_assoc]

/-- A loop over the items. -/
theorem each_sieves {kept : α → List ι} {f : α → EStateM ε σ β}
    (hf : ∀ a, Sieving log V st (fun _ => inputs a) (fun _ => kept a) (f a)) (as : List α) :
    Sieving log V st (fun _ => as.flatMap inputs) (fun _ => as.flatMap kept) (each f as) := by
  induction as with
  | nil =>
    intro s bs s' h
    obtain ⟨rfl, rfl⟩ := each_nil_eq_ok.mp h
    exact ⟨[], (List.append_nil _).symm, .nil V st⟩
  | cons a as ih =>
    intro s bs s' h
    obtain ⟨b, s₁, bs', hb, hbs, rfl⟩ := each_cons_eq_ok.mp h
    obtain ⟨ds, hlog, hds⟩ := hf a s b s₁ hb
    obtain ⟨ds', hlog', hds'⟩ := ih s₁ bs' s' hbs
    refine ⟨ds ++ ds', ?_, hds.append hds'⟩
    rw [hlog', hlog, List.append_assoc]

/-- A loop that keeps some results. -/
theorem collect_sieves {f : α → EStateM ε σ (Option β)}
    (hf : ∀ a, Sieving log V st (fun _ => inputs a) (fun b => b.toList.flatMap outputs) (f a)) (as : List α) :
    Sieving log V st (fun _ => as.flatMap inputs) (fun bs => bs.flatMap outputs) (collect f as) := by
  intro s bs s' h
  obtain ⟨rs, rfl, hlog, hrs⟩ :=
    collect_appends (R := fun a b ds => Sieved V st (inputs a) (b.toList.flatMap outputs) ds) (fun a => hf a) h
  refine ⟨_, hlog, ?_⟩
  beta_reduce
  rw [flatMap_filterMap]
  exact Sieved.flatMap hrs

/-- A loop that makes the items that it decides on. -/
theorem each_generates {f : α → EStateM ε σ β} (hf : ∀ a, Sieving log V st outputs outputs (f a)) (as : List α) :
    Sieving log V st (fun bs => bs.flatMap outputs) (fun bs => bs.flatMap outputs) (each f as) := by
  intro s bs s' h
  obtain ⟨rs, rfl, hlog, hrs⟩ :=
    each_appends (R := fun _ b ds => Sieved V st (outputs b) (outputs b) ds) (fun a => hf a) h
  refine ⟨_, hlog, ?_⟩
  beta_reduce
  rw [List.flatMap_map]
  exact Sieved.flatMap (List.forall₂_same.mpr fun r hr => exists_of_forall₂ hrs hr |>.elim fun _ h => h.2)

/-- A loop that makes items, or none. -/
theorem collect_generates {f : α → EStateM ε σ (Option β)}
    (hf : ∀ a, Sieving log V st (fun b => b.toList.flatMap outputs) (fun b => b.toList.flatMap outputs) (f a))
    (as : List α) :
    Sieving log V st (fun bs => bs.flatMap outputs) (fun bs => bs.flatMap outputs) (collect f as) := by
  intro s bs s' h
  obtain ⟨rs, rfl, hlog, hrs⟩ := collect_appends
    (R := fun _ b ds => Sieved V st (b.toList.flatMap outputs) (b.toList.flatMap outputs) ds) (fun a => hf a) h
  refine ⟨_, hlog, ?_⟩
  beta_reduce
  rw [flatMap_filterMap]
  exact Sieved.flatMap (List.forall₂_same.mpr fun r hr => exists_of_forall₂ hrs hr |>.elim fun _ h => h.2)

/-- A loop with a state: each item adds to what is kept so far. -/
theorem foldlM_sieves {f : β → α → EStateM ε σ β}
    (hf : ∀ b a s b' s', f b a s = .ok b' s' → ∃ ds new, log s' = log s ++ ds ∧ outputs b' = outputs b ++ new ∧
      Sieved V st (inputs a) new ds) (as : List α) {b b' : β} {s s' : σ} (h : as.foldlM f b s = .ok b' s') :
    ∃ ds new, log s' = log s ++ ds ∧ outputs b' = outputs b ++ new ∧ Sieved V st (as.flatMap inputs) new ds := by
  induction as generalizing b s with
  | nil =>
    cases h
    exact ⟨[], [], (List.append_nil _).symm, (List.append_nil _).symm, .nil V st⟩
  | cons a as ih =>
    rw [List.foldlM_cons] at h
    obtain ⟨b₁, s₁, hb, h⟩ := bind_eq_ok.mp h
    obtain ⟨ds, new, hlog, hnew, hds⟩ := hf b a s b₁ s₁ hb
    obtain ⟨ds', new', hlog', hnew', hds'⟩ := ih h
    refine ⟨ds ++ ds', new ++ new', ?_, ?_, hds.append hds'⟩
    · rw [hlog', hlog, List.append_assoc]
    · rw [hnew', hnew, List.append_assoc]

end Programs

/-! ### Trails -/

/-- The decisions of stages one after another, from the items that reach the first to those that the last one keeps. -/
inductive Sieves (V : Verdicts ι κ δ) : List κ → List ι → List ι → List δ → Prop where
  | nil (ids : List ι) : Sieves V [] ids ids []
  | cons {st : κ} {sts : List κ} {ids kept out : List ι} {ds ds' : List δ} (first : Sieved V st ids kept ds)
    (rest : Sieves V sts kept out ds') : Sieves V (st :: sts) ids out (ds ++ ds')

/-- The trail of an item: it follows the stages, no decision but the last one rejects, and the item is through if and
only if it has the decisions of all stages and none rejects. -/
structure Trail (V : Verdicts ι κ δ) (stages : List κ) (own : List δ) (through : Prop) : Prop where
  follows : own.map V.stage <+: stages
  passed : ∀ d ∈ own.dropLast, V.rejects d = false
  ends : (∃ last, own.getLast? = some last ∧ V.rejects last = true ∧ ¬ through) ∨
    (own.map V.stage = stages ∧ (∀ d ∈ own, V.rejects d = false) ∧ through)

section Trails

variable [DecidableEq ι] {i : ι}

/-- The decisions about an item. -/
def Verdicts.own (V : Verdicts ι κ δ) (i : ι) (ds : List δ) : List δ := ds.filter fun d => V.about d = some i

theorem own_append : V.own i (ds ++ ds') = V.own i ds ++ V.own i ds' := List.filter_append ..

theorem length_own (ds : List δ) : (V.own i ds).length = (ds.filterMap V.about).count i := by
  induction ds with
  | nil => rfl
  | cons d ds ih =>
    unfold Verdicts.own at ih ⊢
    cases h : V.about d with
    | none => simpa [h] using ih
    | some j =>
      by_cases hj : j = i
      · simpa [h, hj] using ih
      · simpa [h, hj] using ih

/-- An item that does not reach the stage. -/
theorem Sieved.own_eq_nil (h : Sieved V st ids kept ds) (hi : i ∉ ids) : V.own i ds = [] := by
  rw [← List.length_eq_zero_iff, length_own, h.once.count_eq]
  exact List.count_eq_zero_of_not_mem hi

/-- An item that reaches the stage has one decision there, and is kept unless it is rejected. -/
theorem Sieved.own_eq_singleton (h : Sieved V st ids kept ds) (hids : ids.Nodup) (hi : i ∈ ids) :
    ∃ d, V.own i ds = [d] ∧ V.stage d = st ∧ (i ∈ kept ↔ V.rejects d = false) := by
  have hlength : (V.own i ds).length = 1 := by
    rw [length_own, h.once.count_eq]
    exact List.count_eq_one_of_mem hids hi
  obtain ⟨d, hd⟩ := List.length_eq_one_iff.mp hlength
  have hmem : d ∈ ds ∧ V.about d = some i := by
    have hin : d ∈ V.own i ds := by
      rw [hd]
      exact List.mem_singleton_self d
    obtain ⟨hmem, habout⟩ := List.mem_filter.mp hin
    exact ⟨hmem, of_decide_eq_true habout⟩
  refine ⟨d, hd, h.stage d hmem.1 (by rw [hmem.2]; exact Option.some_ne_none i), ?_⟩
  rw [← h.kept.mem_iff, List.mem_filterMap]
  constructor
  · rintro ⟨e, he, habout⟩
    obtain ⟨he, hpasses⟩ := List.mem_filter.mp he
    have hin : e ∈ V.own i ds := List.mem_filter.mpr ⟨he, decide_eq_true habout⟩
    rw [hd] at hin
    rw [← List.mem_singleton.mp hin]
    simpa using hpasses
  · intro hpasses
    exact ⟨d, List.mem_filter.mpr ⟨hmem.1, by simp [hpasses]⟩, hmem.2⟩

omit [DecidableEq ι] in
theorem Sieved.nodup_kept (h : Sieved V st ids kept ds) (hids : ids.Nodup) : kept.Nodup :=
  h.kept.nodup_iff.mp ((h.once.nodup_iff.mpr hids).sublist (List.filter_sublist.filterMap _))

omit [DecidableEq ι] in
theorem Sieved.subset (h : Sieved V st ids kept ds) : kept ⊆ ids := fun _ hj =>
  h.once.subset ((List.filter_sublist.filterMap _).subset (h.kept.mem_iff.mpr hj))

theorem Sieves.own_eq_nil {sts : List κ} {out : List ι} (h : Sieves V sts ids out ds) (hi : i ∉ ids) :
    V.own i ds = [] ∧ i ∉ out := by
  induction h with
  | nil => exact ⟨rfl, hi⟩
  | cons first rest ih =>
    obtain ⟨hown, hout⟩ := ih fun hkept => hi (first.subset hkept)
    refine ⟨?_, hout⟩
    rw [own_append, first.own_eq_nil hi, hown, List.append_nil]

/-- **The trail of an item.** -/
theorem Sieves.trail {sts : List κ} {out : List ι} (h : Sieves V sts ids out ds) (hids : ids.Nodup) (hi : i ∈ ids) :
    Trail V sts (V.own i ds) (i ∈ out) := by
  induction h with
  | nil ids => exact ⟨List.prefix_rfl, fun d hd => (nomatch hd), .inr ⟨rfl, fun d hd => (nomatch hd), hi⟩⟩
  | @cons st sts _ kept out ds ds' first rest ih =>
    obtain ⟨d, hown, rfl, hkept⟩ := first.own_eq_singleton hids hi
    rw [own_append, hown, List.singleton_append]
    cases hrejects : V.rejects d with
    | true =>
      have hnot : i ∉ kept := fun hmem => by
        rw [hkept.mp hmem] at hrejects
        cases hrejects
      obtain ⟨hnil, hout⟩ := rest.own_eq_nil hnot
      rw [hnil]
      exact ⟨⟨sts, rfl⟩, fun e he => (nomatch he), .inl ⟨d, rfl, hrejects, hout⟩⟩
    | false =>
      obtain ⟨hfollows, hpassed, hends⟩ := ih (first.nodup_kept hids) (hkept.mpr hrejects)
      refine ⟨?_, fun e he => ?_, ?_⟩
      · exact (List.prefix_cons_inj _).mpr hfollows
      · cases hrest : V.own i ds' with
        | nil =>
          rw [hrest] at he
          cases he
        | cons e' es =>
          rw [hrest, List.dropLast_cons_cons] at he
          rw [hrest] at hpassed
          rcases List.mem_cons.mp he with rfl | he
          · exact hrejects
          · exact hpassed e he
      · rcases hends with ⟨last, hlast, hrejected, hout⟩ | ⟨hall, hnone, hout⟩
        · refine .inl ⟨last, ?_, hrejected, hout⟩
          rw [List.getLast?_cons, hlast]
          rfl
        · refine .inr ⟨congrArg _ hall, fun e he => ?_, hout⟩
          rcases List.mem_cons.mp he with rfl | he
          · exact hrejects
          · exact hnone e he

end Trails

end NanoDelta.Library
