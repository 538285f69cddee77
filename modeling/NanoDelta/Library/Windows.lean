import Mathlib
import NanoDelta.Library.Machine

/-!
# Windows over a stream

Each element of a stream belongs to a window, its key. Only one window is open, and of its elements only a summary is
kept: an element of a later window closes it, one of an earlier window comes too late and is dropped.

* `tiled`: each summary is that of the elements of its window that were taken, in their order, and every element that
  was taken is in one window.
* `closed_of_iff`: which elements are in windows that were closed.
* `rolled`: over a stream in order, a coarse window is the sum of the fine windows in it, all of which are closed when it
  is.
-/

namespace NanoDelta.Library

universe u v w v' w'

/-- How the elements of a window are summed up. The summary knows its window. -/
structure Windowing (α : Type u) (κ : Type v) (β : Type w) where
  key : α → κ
  start : α → β
  extend : β → α → β
  label : β → κ
  label_start : ∀ a, label (start a) = key a
  label_extend : ∀ b a, label (extend b a) = label b

namespace Windowing

variable {α : Type u} {κ : Type v} {β : Type w} [LinearOrder κ] (W : Windowing α κ β)

attribute [simp] label_start label_extend

/-- An element comes too late for its window. -/
def Late (current : Option β) (a : α) : Prop := ∃ b ∈ current, W.key a < W.label b

instance (current : Option β) (a : α) : Decidable (W.Late current a) :=
  inferInstanceAs (Decidable (∃ b ∈ current, _))

/-- One element: the window that is open after it, and the one that it closes. -/
def place (current : Option β) (a : α) : Option β × Option β :=
  match current with
  | none => (some (W.start a), none)
  | some b =>
    if W.label b < W.key a then (some (W.start a), some b)
    else if W.key a < W.label b then (some b, none)
    else (some (W.extend b a), none)

/-- The windows as a machine. -/
def machine : Machine (Option β) α (Option β) where
  step := W.place

/-- The window that is open after a stream. -/
def current (as : List α) : Option β := W.machine.exec none as

/-- The windows that a stream closes, in their order. -/
def closed (as : List α) : List β := (W.machine.outputs none as).filterMap id

/-- The elements that do not come too late. -/
def takenFrom : Option β → List α → List α
  | _, [] => []
  | current, a :: as => (if W.Late current a then [] else [a]) ++ takenFrom (W.place current a).1 as

/-- The elements of a stream that are taken. -/
def taken (as : List α) : List α := W.takenFrom none as

/-- The summary of a list of elements. -/
def fold : List α → Option β
  | [] => none
  | a :: as => some (as.foldl W.extend (W.start a))

/-- The elements of one window. -/
def part (k : κ) (as : List α) : List α := as.filter fun a => W.key a = k

theorem current_concat (as : List α) (a : α) : W.current (as ++ [a]) = (W.place (W.current as) a).1 :=
  W.machine.exec_concat none as a

theorem closed_concat (as : List α) (a : α) :
    W.closed (as ++ [a]) = W.closed as ++ (W.place (W.current as) a).2.toList := by
  unfold closed
  rw [Machine.outputs_concat, List.filterMap_append]
  show _ ++ [(W.place (W.current as) a).2].filterMap id = _
  cases (W.place (W.current as) a).2 <;> rfl

theorem takenFrom_append (current : Option β) (as bs : List α) :
    W.takenFrom current (as ++ bs) = W.takenFrom current as ++ W.takenFrom (W.machine.exec current as) bs := by
  induction as generalizing current with
  | nil => rfl
  | cons a as ih =>
    simp only [List.cons_append, takenFrom, ih, List.append_assoc]
    rfl

theorem taken_concat (as : List α) (a : α) :
    W.taken (as ++ [a]) = W.taken as ++ if W.Late (W.current as) a then [] else [a] := by
  unfold taken
  rw [takenFrom_append]
  exact congrArg _ (List.append_nil _)

omit [LinearOrder κ] in
theorem fold_concat {as : List α} {b : β} (h : W.fold as = some b) (a : α) :
    W.fold (as ++ [a]) = some (W.extend b a) := by
  cases as with
  | nil => cases h
  | cons first rest =>
    obtain rfl := Option.some.inj h
    simp [fold]

omit [LinearOrder κ] in
theorem fold_append {as : List α} {b : β} (h : W.fold as = some b) (bs : List α) :
    W.fold (as ++ bs) = some (bs.foldl W.extend b) := by
  cases as with
  | nil => cases h
  | cons first rest =>
    obtain rfl := Option.some.inj h
    simp [fold]

theorem part_append (k : κ) (as bs : List α) : W.part k (as ++ bs) = W.part k as ++ W.part k bs :=
  List.filter_append ..

theorem part_single (k : κ) (a : α) : W.part k [a] = if W.key a = k then [a] else [] := by
  simp [part, List.filter_cons]

/-- What an element does: it comes too late, it goes into the window that is open, or it opens one. -/
theorem place_cases (current : Option β) (a : α) :
    (W.Late current a ∧ W.place current a = (current, none)) ∨
    (∃ b, current = some b ∧ W.label b = W.key a ∧ W.place current a = (some (W.extend b a), none)) ∨
    ((∀ b ∈ current, W.label b < W.key a) ∧ W.place current a = (some (W.start a), current)) := by
  cases current with
  | none => exact Or.inr (Or.inr ⟨fun _ hb => (nomatch hb), rfl⟩)
  | some b =>
    unfold place Late
    rcases lt_trichotomy (W.label b) (W.key a) with h | h | h
    · refine Or.inr (Or.inr ⟨?_, by simp [h]⟩)
      rintro _ ⟨⟩
      exact h
    · exact Or.inr (Or.inl ⟨b, rfl, h, by simp [h]⟩)
    · exact Or.inl ⟨⟨b, rfl, h⟩, by simp [h, h.not_gt]⟩

/-- What an element closes is the window that was open. -/
theorem mem_of_mem_place {current : Option β} {a : α} {b : β} (h : b ∈ (W.place current a).2) : b ∈ current := by
  rcases W.place_cases current a with ⟨-, hplace⟩ | ⟨_, -, -, hplace⟩ | ⟨-, hplace⟩
  · rw [hplace] at h
    cases h
  · rw [hplace] at h
    cases h
  · rwa [hplace] at h

/-- What the windows are of the elements that were taken. -/
structure Tiled (taken : List α) (closed : List β) (current : Option β) : Prop where
  /-- No window is after the one that is open. -/
  last : ∀ a ∈ taken, ∃ b ∈ current, W.key a ≤ W.label b
  increasing : (closed ++ current.toList).Pairwise fun b b' => W.label b < W.label b'
  folded : ∀ b ∈ closed ++ current.toList, W.fold (W.part (W.label b) taken) = some b
  conserved : (closed ++ current.toList).flatMap (fun b => W.part (W.label b) taken) = taken

variable {W}

/-- No element that was taken is in a window after the one that is open. -/
theorem Tiled.part_eq_nil {taken : List α} {closed : List β} {current : Option β} (h : W.Tiled taken closed current)
    {k : κ} (hk : ∀ b ∈ current, W.label b < k) : W.part k taken = [] := by
  apply List.filter_eq_nil_iff.mpr
  intro a ha
  obtain ⟨b, hb, hle⟩ := h.last a ha
  simpa using (hle.trans_lt (hk b hb)).ne

/-- The window that is open is the last one. -/
theorem Tiled.closed_lt {taken : List α} {closed : List β} {b : β} (h : W.Tiled taken closed (some b)) :
    ∀ b' ∈ closed, W.label b' < W.label b := by
  intro b' hb'
  exact (List.pairwise_append.mp h.increasing).2.2 b' hb' b (by simp)

theorem Tiled.extend {taken : List α} {closed : List β} {b : β} (h : W.Tiled taken closed (some b)) {a : α}
    (ha : W.label b = W.key a) : W.Tiled (taken ++ [a]) closed (some (W.extend b a)) := by
  have hother : ∀ b' ∈ closed, W.part (W.label b') (taken ++ [a]) = W.part (W.label b') taken := by
    intro b' hb'
    rw [part_append, part_single, if_neg, List.append_nil]
    rw [← ha]
    exact (h.closed_lt b' hb').ne'
  have hself : W.part (W.label b) (taken ++ [a]) = W.part (W.label b) taken ++ [a] := by
    rw [part_append, part_single, if_pos ha.symm]
  refine ⟨?_, ?_, ?_, ?_⟩
  · intro a' ha'
    refine ⟨_, rfl, ?_⟩
    rw [W.label_extend]
    rcases List.mem_append.mp ha' with ha' | ha'
    · obtain ⟨_, ⟨⟩, hle⟩ := h.last a' ha'
      exact hle
    · rw [List.mem_singleton.mp ha', ha]
  · simpa [List.pairwise_append] using h.increasing
  · intro b' hb'
    rcases List.mem_append.mp hb' with hb' | hb'
    · rw [hother b' hb']
      exact h.folded b' (List.mem_append_left _ hb')
    · obtain rfl : b' = W.extend b a := by simpa using hb'
      rw [W.label_extend, hself]
      exact W.fold_concat (h.folded b (by simp)) a
  · have hconserved := h.conserved
    simp only [Option.toList_some, List.flatMap_append, List.flatMap_cons, List.flatMap_nil, List.append_nil] at *
    rw [W.label_extend, hself, ← List.append_assoc, List.flatMap_congr hother, hconserved]

theorem Tiled.open {taken : List α} {closed : List β} {current : Option β} (h : W.Tiled taken closed current) {a : α}
    (ha : ∀ b ∈ current, W.label b < W.key a) :
    W.Tiled (taken ++ [a]) (closed ++ current.toList) (some (W.start a)) := by
  have hbefore : ∀ b ∈ closed ++ current.toList, W.label b < W.key a := by
    intro b hb
    cases current with
    | none =>
      have hne : taken ≠ [] := by
        intro hnil
        have hfold := h.folded b hb
        rw [hnil] at hfold
        cases hfold
      obtain ⟨first, hfirst⟩ := List.exists_mem_of_ne_nil _ hne
      obtain ⟨_, hnone, -⟩ := h.last first hfirst
      cases hnone
    | some last =>
      rcases List.mem_append.mp hb with hb | hb
      · exact (h.closed_lt b hb).trans (ha last rfl)
      · obtain rfl : b = last := by simpa using hb
        exact ha b rfl
  have hother : ∀ b ∈ closed ++ current.toList, W.part (W.label b) (taken ++ [a]) = W.part (W.label b) taken := by
    intro b hb
    rw [part_append, part_single, if_neg (hbefore b hb).ne', List.append_nil]
  have hself : W.part (W.key a) (taken ++ [a]) = [a] := by
    rw [part_append, part_single, if_pos rfl, h.part_eq_nil ha, List.nil_append]
  refine ⟨?_, ?_, ?_, ?_⟩
  · intro a' ha'
    refine ⟨_, rfl, ?_⟩
    rw [W.label_start]
    rcases List.mem_append.mp ha' with ha' | ha'
    · obtain ⟨b, hb, hle⟩ := h.last a' ha'
      exact hle.trans (ha b hb).le
    · rw [List.mem_singleton.mp ha']
  · rw [Option.toList_some, List.pairwise_append]
    refine ⟨h.increasing, List.pairwise_singleton .., ?_⟩
    intro b hb b' hb'
    rw [List.mem_singleton.mp hb', W.label_start]
    exact hbefore b hb
  · intro b hb
    rcases List.mem_append.mp hb with hb | hb
    · rw [hother b hb]
      exact h.folded b hb
    · obtain rfl : b = W.start a := by simpa using hb
      rw [W.label_start, hself]
      rfl
  · rw [Option.toList_some, List.flatMap_append, List.flatMap_congr hother, h.conserved]
    simp [hself]

variable (W)

/-- **The windows of a stream**: each is the summary of the elements of its window that were taken, and every element that
was taken is in one of them. -/
theorem tiled (as : List α) : W.Tiled (W.taken as) (W.closed as) (W.current as) := by
  induction as using List.reverseRecOn with
  | nil => exact ⟨fun _ ha => (nomatch ha), .nil, fun _ hb => (nomatch hb), rfl⟩
  | append_singleton as a ih =>
    rw [W.taken_concat, W.closed_concat, W.current_concat]
    rcases W.place_cases (W.current as) a with ⟨hlate, hplace⟩ | ⟨b, hcurrent, hlabel, hplace⟩ | ⟨hlater, hplace⟩
    · rw [hplace, if_pos hlate]
      simpa using ih
    · have hlate : ¬ W.Late (W.current as) a := by
        rw [hcurrent]
        rintro ⟨_, ⟨⟩, hlt⟩
        exact hlt.ne hlabel.symm
      rw [hplace, if_neg hlate]
      rw [hcurrent] at ih
      simpa using ih.extend hlabel
    · have hlate : ¬ W.Late (W.current as) a := by
        rintro ⟨b, hb, hlt⟩
        exact (hlater b hb).asymm hlt
      rw [hplace, if_neg hlate]
      exact ih.open hlater

/-! ### Which elements are in windows that were closed -/

/-- The window that is open is the last one that an element of the stream belongs to. -/
theorem current_last (as : List α) :
    (W.current as = none → as = []) ∧
      ∀ b ∈ W.current as, (∃ a ∈ as, W.key a = W.label b) ∧ ∀ a ∈ as, W.key a ≤ W.label b := by
  induction as using List.reverseRecOn with
  | nil => exact ⟨fun _ => rfl, fun _ hb => (nomatch hb)⟩
  | append_singleton as a ih =>
    rw [W.current_concat]
    rcases W.place_cases (W.current as) a with ⟨⟨b, hb, hlt⟩, hplace⟩ | ⟨b, hb, hlabel, hplace⟩ | ⟨hlater, hplace⟩
    · rw [hplace, Option.mem_def.mp hb]
      refine ⟨by simp, ?_⟩
      rintro _ ⟨⟩
      obtain ⟨⟨a', ha', hkey⟩, hle⟩ := ih.2 b hb
      refine ⟨⟨a', by simp [ha'], hkey⟩, ?_⟩
      simp only [List.forall_mem_append, List.forall_mem_singleton]
      exact ⟨hle, hlt.le⟩
    · rw [hplace]
      refine ⟨by simp, ?_⟩
      rintro _ ⟨⟩
      rw [W.label_extend]
      refine ⟨⟨a, by simp, hlabel.symm⟩, ?_⟩
      simp only [List.forall_mem_append, List.forall_mem_singleton]
      exact ⟨(ih.2 b hb).2, hlabel.ge⟩
    · rw [hplace]
      refine ⟨by simp, ?_⟩
      rintro _ ⟨⟩
      rw [W.label_start]
      refine ⟨⟨a, by simp, rfl⟩, ?_⟩
      simp only [List.forall_mem_append, List.forall_mem_singleton]
      refine ⟨?_, le_rfl⟩
      intro a' ha'
      cases hcurrent : W.current as with
      | none => simp [ih.1 hcurrent] at ha'
      | some b => exact ((ih.2 b hcurrent).2 a' ha').trans (hlater b hcurrent).le

/-- An element comes too late if one of a later window was before it. -/
theorem late_current_iff {as : List α} {a : α} : W.Late (W.current as) a ↔ ∃ a' ∈ as, W.key a < W.key a' := by
  obtain ⟨hnone, hlast⟩ := W.current_last as
  constructor
  · rintro ⟨b, hb, hlt⟩
    obtain ⟨⟨a', ha', hkey⟩, -⟩ := hlast b hb
    exact ⟨a', ha', hkey ▸ hlt⟩
  · rintro ⟨a', ha', hlt⟩
    cases hcurrent : W.current as with
    | none => simp [hnone hcurrent] at ha'
    | some b => exact ⟨b, rfl, hlt.trans_le ((hlast b hcurrent).2 a' ha')⟩

theorem exists_of_mem_takenFrom {current : Option β} {as : List α} {a : α} (h : a ∈ W.takenFrom current as) :
    ∃ before after, as = before ++ a :: after ∧ ¬ W.Late (W.machine.exec current before) a := by
  induction as generalizing current with
  | nil => cases h
  | cons first as ih =>
    rcases List.mem_append.mp h with h | h
    · split_ifs at h with hlate
      · cases h
      · obtain rfl := List.mem_singleton.mp h
        exact ⟨[], as, rfl, hlate⟩
    · obtain ⟨before, after, rfl, hnot⟩ := ih h
      exact ⟨first :: before, after, rfl, hnot⟩

/-- The elements that are taken are those that no element of a later window was before. -/
theorem mem_taken_iff {as : List α} {a : α} :
    a ∈ W.taken as ↔ ∃ before after, as = before ++ a :: after ∧ ∀ a' ∈ before, W.key a' ≤ W.key a := by
  constructor
  · intro h
    obtain ⟨before, after, rfl, hnot⟩ := W.exists_of_mem_takenFrom h
    refine ⟨before, after, rfl, ?_⟩
    intro a' ha'
    by_contra hlt
    exact hnot (W.late_current_iff.mpr ⟨a', ha', not_le.mp hlt⟩)
  · rintro ⟨before, after, rfl, hle⟩
    have hnot : ¬ W.Late (W.current before) a := by
      rw [W.late_current_iff]
      rintro ⟨a', ha', hlt⟩
      exact (hle a' ha').not_gt hlt
    have hsplit : W.taken (before ++ a :: after) =
        W.taken before ++ (a :: W.takenFrom (W.place (W.current before) a).1 after) := by
      unfold taken
      rw [takenFrom_append, takenFrom]
      exact congrArg (fun first => _ ++ (first ++ _)) (if_neg hnot)
    rw [hsplit]
    simp

/-- **Elements in windows that were closed**: none of a later window was before them, and one came after. -/
theorem exists_closed_iff (as : List α) (P : α → Prop) :
    (∃ b ∈ W.closed as, ∃ a ∈ W.part (W.label b) (W.taken as), P a) ↔
      ∃ before a after, as = before ++ a :: after ∧ P a ∧ (∀ a' ∈ before, W.key a' ≤ W.key a) ∧
        ∃ a' ∈ after, W.key a < W.key a' := by
  have htiled := W.tiled as
  obtain ⟨-, hlast⟩ := W.current_last as
  constructor
  · rintro ⟨b, hb, a, ha, hP⟩
    obtain ⟨htaken, hkey⟩ := List.mem_filter.mp ha
    have hkey := of_decide_eq_true hkey
    obtain ⟨before, after, rfl, hle⟩ := W.mem_taken_iff.mp htaken
    refine ⟨before, a, after, rfl, hP, hle, ?_⟩
    obtain ⟨c, hc, -⟩ := htiled.last a htaken
    obtain ⟨⟨a', ha', hkey'⟩, -⟩ := hlast c hc
    rw [Option.mem_def.mp hc] at htiled
    have hlt : W.key a < W.key a' := by
      rw [hkey, hkey']
      exact htiled.closed_lt b hb
    simp only [List.mem_append, List.mem_cons] at ha'
    rcases ha' with ha' | rfl | ha'
    · exact absurd hlt (hle a' ha').not_gt
    · exact absurd hlt (lt_irrefl _)
    · exact ⟨a', ha', hlt⟩
  · rintro ⟨before, a, after, rfl, hP, hle, a', ha', hlt⟩
    have htaken : a ∈ W.taken (before ++ a :: after) := W.mem_taken_iff.mpr ⟨before, after, rfl, hle⟩
    rw [← htiled.conserved] at htaken
    obtain ⟨b, hb, ha⟩ := List.mem_flatMap.mp htaken
    refine ⟨b, ?_, a, ha, hP⟩
    rcases List.mem_append.mp hb with hb | hb
    · exact hb
    · have hkey : W.key a = W.label b := of_decide_eq_true (List.mem_filter.mp ha).2
      have hle' := (hlast b (Option.mem_toList.mp hb)).2 a' (by simp [ha'])
      rw [← hkey] at hle'
      exact absurd hlt hle'.not_gt

/-! ### Streams in order -/

/-- Nothing comes too late in a stream that is in order. -/
theorem taken_eq_self {as : List α} (h : as.Pairwise fun a a' => W.key a ≤ W.key a') : W.taken as = as := by
  induction as using List.reverseRecOn with
  | nil => rfl
  | append_singleton as a ih =>
    obtain ⟨hbefore, -, hlast⟩ := List.pairwise_append.mp h
    rw [W.taken_concat, ih hbefore, if_neg]
    rw [W.late_current_iff]
    rintro ⟨a', ha', hlt⟩
    exact (hlast a' ha' a (by simp)).not_gt hlt

/-- The windows that are closed from a state on. -/
def closedFrom (current : Option β) (as : List α) : List β := (W.machine.outputs current as).filterMap id

theorem closed_append (as bs : List α) : W.closed (as ++ bs) = W.closed as ++ W.closedFrom (W.current as) bs := by
  unfold closed closedFrom
  rw [Machine.outputs_append, List.filterMap_append]
  rfl

/-- What is closed later is not before the window that is open. -/
theorem label_le_of_mem_closedFrom {b : β} {as : List α} : ∀ b' ∈ W.closedFrom (some b) as, W.label b ≤ W.label b' := by
  induction as generalizing b with
  | nil => exact fun _ hb' => (nomatch hb')
  | cons a as ih =>
    have hcons : W.closedFrom (some b) (a :: as) =
        (W.place (some b) a).2.toList ++ W.closedFrom (W.place (some b) a).1 as := by
      show ((W.place (some b) a).2 :: _).filterMap id = _
      cases (W.place (some b) a).2 <;> rfl
    rw [hcons]
    rcases W.place_cases (some b) a with ⟨-, hplace⟩ | ⟨_, ⟨⟩, -, hplace⟩ | ⟨hlater, hplace⟩
    · rw [hplace]
      exact ih
    · rw [hplace]
      intro b' hb'
      have hle := ih b' hb'
      rwa [W.label_extend] at hle
    · rw [hplace]
      have hlt := hlater b rfl
      simp only [Option.toList_some, List.forall_mem_append, List.forall_mem_singleton]
      refine ⟨le_rfl, ?_⟩
      intro b' hb'
      have hle := ih b' hb'
      rw [W.label_start] at hle
      exact hlt.le.trans hle

end Windowing

/-! ### Coarse windows -/

/-- Windows that are made of finer ones: a coarse summary can be made from the summaries of fine windows. -/
structure Coarser {α : Type u} {κ : Type v} {β : Type w} {κ' : Type v'} {β' : Type w'} [Preorder κ] [Preorder κ']
    (F : Windowing α κ β) (C : Windowing α κ' β') where
  up : κ → κ'
  mono : Monotone up
  key_up : ∀ a, C.key a = up (F.key a)
  begin : β → β'
  add : β' → β → β'
  begin_start : ∀ a, begin (F.start a) = C.start a
  begin_extend : ∀ b a, begin (F.extend b a) = C.extend (begin b) a
  add_start : ∀ c a, add c (F.start a) = C.extend c a
  add_extend : ∀ c b a, add c (F.extend b a) = C.extend (add c b) a

namespace Coarser

open Windowing

variable {α : Type u} {κ : Type v} {β : Type w} {κ' : Type v'} {β' : Type w'} [LinearOrder κ] [LinearOrder κ']
variable {F : Windowing α κ β} {C : Windowing α κ' β'} (R : Coarser F C)

/-- The coarse summary of fine windows. -/
def roll : List β → Option β'
  | [] => none
  | b :: bs => some (bs.foldl R.add (R.begin b))

/-- The fine windows in a coarse one. -/
def inside (k : κ') (bs : List β) : List β := bs.filter fun b => R.up (F.label b) = k

theorem begin_of_fold {as : List α} {b : β} (h : F.fold as = some b) : C.fold as = some (R.begin b) := by
  induction as using List.reverseRecOn generalizing b with
  | nil => cases h
  | append_singleton as a ih =>
    cases hfold : F.fold as with
    | none =>
      cases as with
      | nil =>
        obtain rfl := Option.some.inj h
        exact congrArg some (R.begin_start a).symm
      | cons => cases hfold
    | some b' =>
      rw [F.fold_concat hfold] at h
      obtain rfl := Option.some.inj h
      rw [C.fold_concat (ih hfold), R.begin_extend]

theorem add_of_fold {as : List α} {b : β} (h : F.fold as = some b) (c : β') : as.foldl C.extend c = R.add c b := by
  induction as using List.reverseRecOn generalizing b with
  | nil => cases h
  | append_singleton as a ih =>
    rw [List.foldl_append, List.foldl_cons, List.foldl_nil]
    cases hfold : F.fold as with
    | none =>
      cases as with
      | nil =>
        obtain rfl := Option.some.inj h
        exact (R.add_start c a).symm
      | cons => cases hfold
    | some b' =>
      rw [F.fold_concat hfold] at h
      obtain rfl := Option.some.inj h
      rw [ih hfold, R.add_extend]

/-- The coarse summary of the elements of fine windows is that of their summaries. -/
theorem fold_flatMap {bs : List β} {part : β → List α} (h : ∀ b ∈ bs, F.fold (part b) = some b) :
    C.fold (bs.flatMap part) = R.roll bs := by
  induction bs using List.reverseRecOn with
  | nil => rfl
  | append_singleton bs b ih =>
    simp only [List.forall_mem_append, List.forall_mem_singleton] at h
    rw [List.flatMap_append, List.flatMap_singleton]
    cases bs with
    | nil => exact R.begin_of_fold h.2
    | cons first rest =>
      rw [C.fold_append (ih h.1), R.add_of_fold h.2]
      simp [roll]

theorem inside_append (k : κ') (bs bs' : List β) : R.inside k (bs ++ bs') = R.inside k bs ++ R.inside k bs' :=
  List.filter_append ..

include R in
theorem pairwise_key {as : List α} (h : as.Pairwise fun a a' => F.key a ≤ F.key a') :
    as.Pairwise fun a a' => C.key a ≤ C.key a' := by
  refine h.imp ?_
  intro a a' hle
  rw [R.key_up, R.key_up]
  exact R.mono hle

/-- The elements of a coarse window are those of the fine windows in it. -/
theorem part_flatMap (k : κ') (bs : List β) (as : List α) :
    C.part k (bs.flatMap fun b => F.part (F.label b) as) = (R.inside k bs).flatMap fun b => F.part (F.label b) as := by
  have hkey : ∀ b, ∀ a ∈ F.part (F.label b) as, C.key a = R.up (F.label b) := by
    intro b a ha
    rw [R.key_up, of_decide_eq_true (List.mem_filter.mp ha).2]
  induction bs with
  | nil => rfl
  | cons b bs ih =>
    rw [List.flatMap_cons, C.part_append, ih]
    by_cases hb : R.up (F.label b) = k
    · have hpart : C.part k (F.part (F.label b) as) = F.part (F.label b) as :=
        List.filter_eq_self.mpr fun a ha => decide_eq_true ((hkey b a ha).trans hb)
      have hinside : R.inside k (b :: bs) = b :: R.inside k bs := List.filter_cons_of_pos (decide_eq_true hb)
      rw [hpart, hinside, List.flatMap_cons]
    · have hpart : C.part k (F.part (F.label b) as) = [] := by
        apply List.filter_eq_nil_iff.mpr
        intro a ha
        simpa [hkey b a ha] using hb
      have hinside : R.inside k (b :: bs) = R.inside k bs := List.filter_cons_of_neg (by simpa using hb)
      rw [hpart, hinside, List.nil_append]

/-- The fine window that is open is after the coarse windows that are closed. -/
theorem lt_up_current {as : List α} (h : as.Pairwise fun a a' => F.key a ≤ F.key a') {c : β'} (hc : c ∈ C.closed as)
    {b : β} (hb : b ∈ F.current as) : C.label c < R.up (F.label b) := by
  have hcoarse := C.tiled as
  rw [C.taken_eq_self (R.pairwise_key h)] at hcoarse
  obtain ⟨⟨a, ha, -⟩, hlast⟩ := (F.current_last as).2 b hb
  obtain ⟨c', hc', -⟩ := hcoarse.last a ha
  obtain ⟨⟨a', ha', hkey⟩, -⟩ := (C.current_last as).2 c' hc'
  have hle := R.mono (hlast a' ha')
  rw [← R.key_up, hkey] at hle
  rw [Option.mem_def.mp hc'] at hcoarse
  exact (hcoarse.closed_lt c hc).trans_le hle

/-- No fine window in a coarse one is closed after it. -/
theorem inside_closed_append {as bs : List α} (h : as.Pairwise fun a a' => F.key a ≤ F.key a') {c : β'}
    (hc : c ∈ C.closed as) : R.inside (C.label c) (F.closed (as ++ bs)) = R.inside (C.label c) (F.closed as) := by
  rw [F.closed_append, R.inside_append]
  apply List.append_right_eq_self.mpr
  apply List.filter_eq_nil_iff.mpr
  intro b hb
  cases hcurrent : F.current as with
  | none =>
    rw [(F.current_last as).1 hcurrent] at hc
    cases hc
  | some b' =>
    rw [hcurrent] at hb
    have hle := R.mono (F.label_le_of_mem_closedFrom b hb)
    simpa using ((R.lt_up_current h hc hcurrent).trans_le hle).ne'

/-- **Coarse windows are the sums of the fine ones in them**, over a stream in order. -/
theorem rolled {as : List α} (h : as.Pairwise fun a a' => F.key a ≤ F.key a') {c : β'} (hc : c ∈ C.closed as) :
    R.roll (R.inside (C.label c) (F.closed as)) = some c := by
  have horder := R.pairwise_key h
  have hfine := F.tiled as
  have hcoarse := C.tiled as
  rw [F.taken_eq_self h] at hfine
  rw [C.taken_eq_self horder] at hcoarse
  have hcurrent : R.inside (C.label c) (F.current as).toList = [] := by
    apply List.filter_eq_nil_iff.mpr
    intro b hb
    simpa using (R.lt_up_current h hc (Option.mem_toList.mp hb)).ne'
  have hpart : C.part (C.label c) as = (R.inside (C.label c) (F.closed as)).flatMap fun b => F.part (F.label b) as :=
    calc
      C.part (C.label c) as
        = C.part (C.label c) ((F.closed as ++ (F.current as).toList).flatMap fun b => F.part (F.label b) as) := by
          rw [hfine.conserved]
      _ = (R.inside (C.label c) (F.closed as ++ (F.current as).toList)).flatMap fun b => F.part (F.label b) as :=
          R.part_flatMap ..
      _ = (R.inside (C.label c) (F.closed as)).flatMap fun b => F.part (F.label b) as := by
          rw [R.inside_append, hcurrent, List.append_nil]
  have hfold := hcoarse.folded c (List.mem_append_left _ hc)
  rw [hpart, R.fold_flatMap] at hfold
  · exact hfold
  · intro b hb
    exact hfine.folded b (List.mem_append_left _ (List.mem_of_mem_filter hb))

end Coarser

end NanoDelta.Library
