import Mathlib.Data.List.Induction
import Mathlib.Data.List.Sort
import NanoDelta.Library.Dict

/-!
# Groups and series

A list in groups by a key, and the items that follow each other in a list that is sorted by a
linear order.

* `flatten_groupBy_perm`: the groups have every item once.
* `mem_flatMap_groupBy`: what is made of the groups one by one, and `groupBy_perm`, of a list in another order.
* `mem_adjacent_iff`: two items of a series are adjacent if nothing is between them.
* `insertionSort_eq_of_perm`: sorting a list in another order.
-/

namespace NanoDelta.Library

universe u v w

/-! ### Groups -/

section Groups

variable {α : Type u} {κ : Type v} {β : Type w} [DecidableEq κ]

/-- The items of a list by their keys: the keys in the order of their first items, the items of a key in their order. -/
def groupBy (key : α → κ) (as : List α) : Dict κ (List α) :=
  as.foldl (fun groups a => groups.set (key a) ((groups.get? (key a)).getD [] ++ [a])) .empty

/-- The group of a key has the items with that key. -/
theorem get?_groupBy (key : α → κ) (as : List α) (k : κ) :
    ((groupBy key as).get? k).getD [] = as.filter fun a => key a = k := by
  have hfold : ∀ (rest : List α) (groups : Dict κ (List α)),
      ((rest.foldl (fun groups a => groups.set (key a) ((groups.get? (key a)).getD [] ++ [a])) groups).get? k).getD [] =
        (groups.get? k).getD [] ++ rest.filter fun a => key a = k := by
    intro rest
    induction rest with
    | nil => simp
    | cons a rest ih =>
      intro groups
      rw [List.foldl_cons, ih, Dict.get?_set]
      by_cases ha : key a = k
      · simp [ha]
      · simp [ha, Ne.symm ha]
  exact (hfold as .empty).trans (List.nil_append _)

theorem flatten_values_setEntries (entries : List (κ × List α)) (k : κ) (a : α) :
    ((Dict.setEntries entries k ((((entries.find? fun e => e.1 = k).map Prod.snd).getD []) ++ [a])).map
      Prod.snd).flatten.Perm ((entries.map Prod.snd).flatten ++ [a]) := by
  induction entries with
  | nil => exact .refl _
  | cons e entries ih =>
    by_cases he : e.1 = k
    · simp only [Dict.setEntries, he, if_true, List.find?_cons, decide_true, Option.map_some, Option.getD_some,
        List.map_cons, List.flatten_cons, List.append_assoc]
      exact List.perm_append_comm.append_left _
    · simp only [Dict.setEntries, he, if_false, List.find?_cons, decide_false, List.map_cons, List.flatten_cons,
        List.append_assoc]
      exact ih.append_left _

/-- The groups have every item of the list, once. -/
theorem flatten_groupBy_perm (key : α → κ) (as : List α) : (groupBy key as).values.flatten.Perm as := by
  have hfold : ∀ (rest : List α) (groups : Dict κ (List α)),
      (rest.foldl (fun groups a => groups.set (key a) ((groups.get? (key a)).getD [] ++ [a])) groups).values.flatten.Perm
        (groups.values.flatten ++ rest) := by
    intro rest
    induction rest with
    | nil => exact fun groups => by rw [List.append_nil, List.foldl_nil]
    | cons a rest ih =>
      intro groups
      rw [List.foldl_cons]
      refine (ih _).trans ?_
      have hcons : groups.values.flatten ++ a :: rest = groups.values.flatten ++ [a] ++ rest := List.append_cons ..
      rw [hcons]
      exact (flatten_values_setEntries groups.entries (key a) a).append_right rest
  exact hfold as .empty

/-- The keys of the groups are those of the items. -/
theorem mem_keys_groupBy (key : α → κ) (as : List α) {k : κ} :
    k ∈ (groupBy key as).entries.map Prod.fst ↔ k ∈ as.map key := by
  have hfold : ∀ (rest : List α) (groups : Dict κ (List α)),
      k ∈ (rest.foldl (fun groups a => groups.set (key a) ((groups.get? (key a)).getD [] ++ [a]))
        groups).entries.map Prod.fst ↔ k ∈ groups.entries.map Prod.fst ∨ k ∈ rest.map key := by
    intro rest
    induction rest with
    | nil => simp
    | cons a rest ih =>
      intro groups
      rw [List.foldl_cons, ih, Dict.set, Dict.mem_keys_setEntries, List.map_cons, List.mem_cons]
      tauto
  exact (hfold as .empty).trans (or_iff_right (by simp [Dict.empty]))

/-- What is made of the groups, by their keys. -/
theorem map_entries_groupBy (key : α → κ) (as : List α) (f : List α → β) :
    ((groupBy key as).entries.map fun e => (e.1, f e.2)) =
      ((groupBy key as).entries.map Prod.fst).map fun k => (k, f (as.filter fun a => key a = k)) := by
  rw [List.map_map]
  refine List.map_congr_left fun e he => Prod.ext rfl ?_
  have hgroup := get?_groupBy key as e.1
  rw [Dict.get?_eq_some_iff.mpr he, Option.getD_some] at hgroup
  exact congrArg f hgroup

/-- What is made of the groups of a list in another order, if it does not depend on the order of a group. -/
theorem groupBy_perm {key : α → κ} {as as' : List α} (h : as.Perm as') {f : List α → β}
    (hf : ∀ k, f (as.filter fun a => key a = k) = f (as'.filter fun a => key a = k)) :
    ((groupBy key as).entries.map fun e => (e.1, f e.2)).Perm ((groupBy key as').entries.map fun e => (e.1, f e.2)) := by
  have hkeys : ((groupBy key as).entries.map Prod.fst).Perm ((groupBy key as').entries.map Prod.fst) := by
    refine (List.perm_ext_iff_of_nodup (groupBy key as).nodup (groupBy key as').nodup).mpr fun k => ?_
    rw [mem_keys_groupBy, mem_keys_groupBy]
    exact (h.map key).mem_iff
  rw [map_entries_groupBy, map_entries_groupBy, funext fun k => congrArg (Prod.mk k) (hf k)]
  exact hkeys.map _

/-- What is made of the groups, if nothing is made of an empty one. -/
theorem mem_flatMap_groupBy {key : α → κ} {as : List α} {f : List α → List β} (hnil : f [] = []) {b : β} :
    b ∈ (groupBy key as).values.flatMap f ↔ ∃ k, b ∈ f (as.filter fun a => key a = k) := by
  rw [List.mem_flatMap]
  constructor
  · rintro ⟨group, hgroup, hb⟩
    obtain ⟨e, he, rfl⟩ := List.mem_map.mp hgroup
    refine ⟨e.1, ?_⟩
    rwa [← get?_groupBy, Dict.get?_eq_some_iff.mpr he, Option.getD_some]
  · rintro ⟨k, hb⟩
    rw [← get?_groupBy] at hb
    cases hget : (groupBy key as).get? k with
    | none =>
      rw [hget, Option.getD_none, hnil] at hb
      cases hb
    | some group =>
      rw [hget, Option.getD_some] at hb
      exact ⟨group, List.mem_map.mpr ⟨_, Dict.get?_eq_some_iff.mp hget, rfl⟩, hb⟩

/-- A group has the items with its key, and there is one. -/
theorem of_mem_groupBy {key : α → κ} {as : List α} {e : κ × List α} (he : e ∈ (groupBy key as).entries) :
    e.2 = as.filter (fun a => key a = e.1) ∧ e.2 ≠ [] := by
  have hgroup := get?_groupBy key as e.1
  rw [Dict.get?_eq_some_iff.mpr he, Option.getD_some] at hgroup
  refine ⟨hgroup, ?_⟩
  obtain ⟨a, ha, hkey⟩ := List.mem_map.mp ((mem_keys_groupBy key as).mp (List.mem_map_of_mem he))
  rw [hgroup]
  exact List.ne_nil_of_mem (List.mem_filter.mpr ⟨ha, decide_eq_true hkey⟩)

/-- Setting a key to a group that begins as before. -/
theorem filterMap_setEntries {f : List α → Option β} {entries : List (κ × List α)} {k : κ} {group group' : List α}
    (hfind : (entries.find? fun e => e.1 = k).map Prod.snd = some group) (hf : f group' = f group) :
    ((Dict.setEntries entries k group').map Prod.snd).filterMap f = (entries.map Prod.snd).filterMap f := by
  induction entries with
  | nil => cases hfind
  | cons e entries ih =>
    by_cases he : e.1 = k
    · simp only [List.find?_cons, he, decide_true, Option.map_some, Option.some.injEq] at hfind
      simp only [Dict.setEntries, he, if_true, List.map_cons, List.filterMap_cons, hf, hfind]
    · simp only [List.find?_cons, he, decide_false] at hfind
      simp only [Dict.setEntries, he, if_false, List.map_cons, List.filterMap_cons, ih hfind]

/-- The first items of the groups, in the order that they have in the list. -/
theorem heads_groupBy_sublist (key : α → κ) (as : List α) : ((groupBy key as).values.filterMap List.head?).Sublist as := by
  induction as using List.reverseRecOn with
  | nil => exact .slnil
  | append_singleton as a ih =>
    have hset : groupBy key (as ++ [a]) =
        (groupBy key as).set (key a) (((groupBy key as).get? (key a)).getD [] ++ [a]) := by
      simp [groupBy, List.foldl_append]
    rw [hset]
    cases hget : (groupBy key as).get? (key a) with
    | none =>
      rw [Dict.values_set_of_get?_eq_none hget, List.filterMap_append]
      exact ih.append (.refl _)
    | some group =>
      have hne : group ≠ [] := (of_mem_groupBy (Dict.get?_eq_some_iff.mp hget)).2
      have hheads : ((groupBy key as).set (key a) (group ++ [a])).values.filterMap List.head? =
          (groupBy key as).values.filterMap List.head? :=
        filterMap_setEntries hget (List.head?_append_of_ne_nil group hne)
      rw [Option.getD_some, hheads]
      exact ih.trans (List.sublist_append_left ..)

/-- What is chosen from the groups: from each one, of its own items. -/
theorem filter_filterMap_groupBy {key : α → κ} {as : List α} {f : List α → Option α} (hf : ∀ g, ∀ a ∈ f g, a ∈ g) (k : κ) :
    ((groupBy key as).values.filterMap f).filter (fun a => key a = k) = (f (as.filter fun a => key a = k)).toList := by
  have hgroups : ∀ e ∈ (groupBy key as).entries, ∀ a ∈ e.2, key a = e.1 := by
    intro e he a ha
    rw [(of_mem_groupBy he).1] at ha
    exact of_decide_eq_true (List.mem_filter.mp ha).2
  have hkeys : ∀ entries : List (κ × List α), (entries.map Prod.fst).Nodup → (∀ e ∈ entries, ∀ a ∈ e.2, key a = e.1) →
      ((entries.map Prod.snd).filterMap f).filter (fun a => key a = k) =
        (((entries.find? fun e => e.1 = k).map Prod.snd).bind f).toList := by
    intro entries hnodup hown
    induction entries with
    | nil => rfl
    | cons e entries ih =>
      obtain ⟨hnew, hnodup⟩ := List.nodup_cons.mp hnodup
      obtain ⟨hfirst, hrest⟩ := List.forall_mem_cons.mp hown
      have hlater := ih hnodup hrest
      rw [List.map_cons, List.filterMap_cons, List.find?_cons]
      by_cases he : e.1 = k
      · have hnone : (entries.find? fun e => e.1 = k) = none := by
          apply List.find?_eq_none.mpr
          rintro e' he' heq
          exact hnew (List.mem_map.mpr ⟨e', he', (of_decide_eq_true heq).trans he.symm⟩)
        rw [hnone] at hlater
        cases hchoice : f e.2 with
        | none => simpa [he, hchoice] using hlater
        | some a =>
          have ha : key a = k := (hfirst a (hf _ _ hchoice)).trans he
          simpa [he, hchoice, ha] using hlater
      · cases hchoice : f e.2 with
        | none => simpa [he] using hlater
        | some a =>
          have ha : key a ≠ k := fun heq => he ((hfirst a (hf _ _ hchoice)).symm.trans heq)
          simpa [he, ha] using hlater
  refine (hkeys _ (groupBy key as).nodup hgroups).trans ?_
  rw [← get?_groupBy key as k]
  show (((groupBy key as).get? k).bind f).toList = _
  cases (groupBy key as).get? k with
  | none =>
    cases hnil : f [] with
    | none => simp [hnil]
    | some a => cases hf _ _ hnil
  | some group => rfl

end Groups

/-! ### Adjacent items -/

section Adjacent

variable {α : Type u} {β : Type v}

/-- The pairs of items that follow each other. -/
def adjacent (as : List α) : List (α × α) := as.zip as.tail

theorem adjacent_cons_cons (a b : α) (as : List α) : adjacent (a :: b :: as) = (a, b) :: adjacent (b :: as) := rfl

theorem length_adjacent (as : List α) : (adjacent as).length = as.length - 1 := by
  unfold adjacent
  rw [List.length_zip, List.length_tail]
  omega

theorem adjacent_drop (n : ℕ) (as : List α) : adjacent (as.drop n) = (adjacent as).drop n := by
  unfold adjacent List.zip
  rw [List.tail_drop, ← List.drop_tail, List.drop_zipWith]

theorem adjacent_map (f : α → β) (as : List α) :
    adjacent (as.map f) = (adjacent as).map fun p => (f p.1, f p.2) := by
  unfold adjacent
  rw [← List.map_tail, List.zip_map]
  rfl

/-- Two lists with the same adjacent items are the same, if there are any. -/
theorem adjacent_inj {as bs : List α} (h : 2 ≤ as.length) (heq : adjacent as = adjacent bs) : as = bs := by
  induction as generalizing bs with
  | nil => simp at h
  | cons a as ih =>
    obtain ⟨a', as, rfl⟩ := List.exists_cons_of_length_pos (Nat.lt_of_succ_le (Nat.le_of_succ_le_succ h))
    have hlength := congrArg List.length heq
    rw [length_adjacent, length_adjacent] at hlength
    obtain ⟨b, b', bs, rfl⟩ : ∃ b b' bs', bs = b :: b' :: bs' := by
      match bs, hlength with
      | [], h => simp at h
      | [b], h => simp at h
      | b :: b' :: bs', _ => exact ⟨b, b', bs', rfl⟩
    rw [adjacent_cons_cons, adjacent_cons_cons, List.cons.injEq, Prod.mk.injEq] at heq
    obtain ⟨⟨rfl, rfl⟩, hrest⟩ := heq
    cases as with
    | nil =>
      simp at hlength
      simp [hlength]
    | cons c as => rw [ih (by simp) hrest]

variable [LinearOrder β] {key : α → β}

/-- In a list with increasing keys, two items are adjacent exactly if no key is between theirs. -/
theorem mem_adjacent_iff {as : List α} (h : as.Pairwise fun a b => key a < key b) {a b : α} :
    (a, b) ∈ adjacent as ↔ a ∈ as ∧ b ∈ as ∧ key a < key b ∧ ∀ c ∈ as, key c ≤ key a ∨ key b ≤ key c := by
  induction as with
  | nil => simp [adjacent]
  | cons x as ih =>
    obtain ⟨hx, has⟩ := List.pairwise_cons.mp h
    cases as with
    | nil =>
      constructor
      · intro hmem
        cases hmem
      · rintro ⟨ha, hb, hlt, -⟩
        obtain rfl := List.mem_singleton.mp ha
        obtain rfl := List.mem_singleton.mp hb
        exact absurd hlt (lt_irrefl _)
    | cons y as =>
      rw [adjacent_cons_cons, List.mem_cons, ih has]
      obtain ⟨hy, -⟩ := List.pairwise_cons.mp has
      constructor
      · rintro (hab | ⟨ha, hb, hlt, hbetween⟩)
        · obtain ⟨rfl, rfl⟩ := Prod.mk.inj hab
          refine ⟨List.mem_cons_self .., by simp, hx b (List.mem_cons_self ..), ?_⟩
          intro c hc
          rcases List.mem_cons.mp hc with rfl | hc'
          · exact Or.inl le_rfl
          · rcases List.mem_cons.mp hc' with rfl | hc'
            · exact Or.inr le_rfl
            · exact Or.inr (hy c hc').le
        · refine ⟨List.mem_cons_of_mem _ ha, List.mem_cons_of_mem _ hb, hlt, ?_⟩
          intro c hc
          rcases List.mem_cons.mp hc with rfl | hc
          · exact Or.inl (hx a ha).le
          · exact hbetween c hc
      · rintro ⟨ha, hb, hlt, hbetween⟩
        have hb' : b ∈ y :: as := by
          rcases List.mem_cons.mp hb with rfl | hb'
          · rcases List.mem_cons.mp ha with rfl | ha'
            · exact absurd hlt (lt_irrefl _)
            · exact absurd hlt (hx a ha').not_gt
          · exact hb'
        rcases List.mem_cons.mp ha with rfl | ha'
        · left
          rcases List.mem_cons.mp hb' with rfl | hlater
          · rfl
          · rcases hbetween y (by simp) with hle | hle
            · exact absurd (hx y (List.mem_cons_self ..)) hle.not_gt
            · exact absurd (hy b hlater) hle.not_gt
        · exact Or.inr ⟨ha', hb', hlt, fun c hc => hbetween c (List.mem_cons_of_mem _ hc)⟩

/-- Items with different keys, sorted by their keys, have increasing keys. -/
theorem pairwise_lt_insertionSort {as : List α} (h : as.Pairwise fun a b => key a ≠ key b) :
    (as.insertionSort fun a b => key a ≤ key b).Pairwise fun a b => key a < key b := by
  have hle : (as.insertionSort fun a b => key a ≤ key b).Pairwise fun a b => key a ≤ key b := by
    have htotal : Std.Total fun a b : α => key a ≤ key b := ⟨fun a b => le_total _ _⟩
    have htrans : IsTrans α fun a b => key a ≤ key b := ⟨fun _ _ _ => le_trans⟩
    exact List.pairwise_insertionSort _ as
  have hne : (as.insertionSort fun a b => key a ≤ key b).Pairwise fun a b => key a ≠ key b :=
    (List.perm_insertionSort _ as).symm.pairwise h fun hab => Ne.symm hab
  exact hle.imp₂ (fun _ _ => lt_of_le_of_ne) hne

/-- Adjacent items of the sorted list, of a list whose items have different keys. -/
theorem mem_adjacent_insertionSort_iff {as : List α} (h : as.Pairwise fun a b => key a ≠ key b) {a b : α} :
    (a, b) ∈ adjacent (as.insertionSort fun a b => key a ≤ key b) ↔
      a ∈ as ∧ b ∈ as ∧ key a < key b ∧ ∀ c ∈ as, key c ≤ key a ∨ key b ≤ key c := by
  rw [mem_adjacent_iff (pairwise_lt_insertionSort h)]
  simp only [List.mem_insertionSort]

end Adjacent

/-! ### Sorting by a key -/

section Sorting

variable {α : Type u} {β : Type v} [LinearOrder β] {key : α → β} {r : α → α → Prop} [DecidableRel r]

theorem pairwise_insertionSort_key (hr : ∀ a b, r a b ↔ key a ≤ key b) (as : List α) :
    (as.insertionSort r).Pairwise fun a b => key a ≤ key b := by
  have htotal : Std.Total r := ⟨fun a b => by simpa only [hr] using le_total _ _⟩
  have htrans : IsTrans α r := ⟨fun a b c hab hbc => (hr a c).mpr (((hr a b).mp hab).trans ((hr b c).mp hbc))⟩
  exact (List.pairwise_insertionSort r as).imp fun h => (hr _ _).mp h

/-- The keys of a sorted list do not depend on the order it had. -/
theorem map_key_insertionSort (hr : ∀ a b, r a b ↔ key a ≤ key b) {as as' : List α} (hperm : as.Perm as') :
    (as.insertionSort r).map key = (as'.insertionSort r).map key := by
  refine List.Perm.eq_of_pairwise (fun _ _ _ _ => le_antisymm) ?_ ?_ ?_
  · exact List.pairwise_map.mpr (pairwise_insertionSort_key hr as)
  · exact List.pairwise_map.mpr (pairwise_insertionSort_key hr as')
  · exact (((List.perm_insertionSort r as).trans hperm).trans (List.perm_insertionSort r as').symm).map key

/-- Nor does the sorted list, if its items have different keys. -/
theorem insertionSort_eq_of_perm (hr : ∀ a b, r a b ↔ key a ≤ key b) {as as' : List α} (hperm : as.Perm as')
    (hinj : ∀ a ∈ as, ∀ b ∈ as, key a = key b → a = b) : as.insertionSort r = as'.insertionSort r := by
  have hmem : ∀ {a}, a ∈ as'.insertionSort r → a ∈ as := fun ha =>
    hperm.mem_iff.mpr ((List.mem_insertionSort r).mp ha)
  refine List.Perm.eq_of_pairwise ?_ (pairwise_insertionSort_key hr as)
    (pairwise_insertionSort_key hr as') (((List.perm_insertionSort r as).trans hperm).trans
      (List.perm_insertionSort r as').symm)
  exact fun a b ha hb hab hba => hinj a ((List.mem_insertionSort r).mp ha) b (hmem hb) (le_antisymm hab hba)

end Sorting

/-! ### Lists without repetition -/

section Distinct

variable {α : Type u}

theorem eraseDups_of_nodup [DecidableEq α] {as : List α} (h : as.Nodup) : as.eraseDups = as := by
  induction as with
  | nil => rfl
  | cons a as ih =>
    obtain ⟨hnot, hnodup⟩ := List.nodup_cons.mp h
    have hfilter : as.filter (fun b => !b == a) = as := by
      refine List.filter_eq_self.mpr fun b hb => ?_
      have hne : b ≠ a := fun heq => hnot (heq ▸ hb)
      simpa using hne
    rw [List.eraseDups_cons, hfilter, ih hnodup]

/-- What a list adds to another is what that does not have. -/
theorem eraseDups_append_of_nodup [DecidableEq α] {as bs : List α} (ha : as.Nodup) (hb : bs.Nodup) :
    (as ++ bs).eraseDups = as ++ bs.filter (· ∉ as) := by
  have hrest : bs.removeAll as = bs.filter (· ∉ as) := by
    unfold List.removeAll
    refine List.filter_congr fun b _ => ?_
    simp
  rw [List.eraseDups_append, eraseDups_of_nodup ha, hrest, eraseDups_of_nodup (hb.filter _)]

/-- Sorted lists with the same items, each once, are equal. -/
theorem eq_of_sorted_of_mem_iff [LinearOrder α] {as bs : List α} (ha : as.Pairwise (· ≤ ·)) (hb : bs.Pairwise (· ≤ ·))
    (ha' : as.Nodup) (hb' : bs.Nodup) (h : ∀ a, a ∈ as ↔ a ∈ bs) : as = bs :=
  ((List.perm_ext_iff_of_nodup ha' hb').mpr h).eq_of_pairwise (fun _ _ _ _ => le_antisymm) ha hb

end Distinct

end NanoDelta.Library
