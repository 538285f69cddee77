import NanoDelta.Library.Dict

/-!
# Tickets

A ticket is issued with a key and kept in a dictionary under it until it is closed. Whoever holds it knows its number, and
closes it by the key: if a key is issued again while a ticket with it is out, the dictionary loses the first one.

* `Tickets.Filed`: the dictionary has the tickets that are out, in order.
* `Tickets.Sound`: what a holder sees of that.
* `Tickets.filed_issue`, `Tickets.filed_close`: which steps keep it.
-/

namespace NanoDelta.Library

universe u v

variable {κ : Type u} {ν : Type v}

/-- The tickets by key, all that were issued, in order, and those that are out, with their numbers. -/
structure Tickets (κ : Type u) (ν : Type v) where
  table : Dict κ ν
  issued : List ν
  out : List (ℕ × ν)

namespace Tickets

/-- The dictionary has the tickets that are out, in order. -/
structure Filed (key : ν → κ) (t : Tickets κ ν) : Prop where
  entries : t.table.entries = t.out.map fun ticket => (key ticket.2, ticket.2)
  issued : ∀ ticket ∈ t.out, t.issued[ticket.1]? = some ticket.2

theorem Filed.values {key : ν → κ} {t : Tickets κ ν} (h : Filed key t) : t.table.values = t.out.map Prod.snd := by
  unfold Dict.values
  rw [h.entries, List.map_map]
  rfl

variable [DecidableEq κ]

/-- Issue a ticket. -/
def issue (key : ν → κ) (v : ν) (t : Tickets κ ν) : Tickets κ ν :=
  ⟨t.table.set (key v) v, t.issued ++ [v], t.out ++ [(t.issued.length, v)]⟩

/-- Close a ticket that was issued. -/
def close (key : ν → κ) (n : ℕ) (v : ν) (t : Tickets κ ν) : Tickets κ ν :=
  ⟨t.table.erase (key v), t.issued, t.out.filter fun ticket => ticket.1 ≠ n⟩

/-- The tickets that are out have keys of their own, and are what the dictionary has. -/
structure Sound (key : ν → κ) (t : Tickets κ ν) : Prop where
  distinct : (t.out.map fun ticket => key ticket.2).Nodup
  present : ∀ k v, t.table.get? k = some v ↔ ∃ n, (n, v) ∈ t.out ∧ key v = k

variable {key : ν → κ} {t : Tickets κ ν}

theorem Filed.sound (h : Filed key t) : Sound key t := by
  constructor
  · have hnodup := t.table.nodup
    rw [h.entries, List.map_map] at hnodup
    exact hnodup
  · intro k v
    rw [Dict.get?_eq_some_iff, h.entries, List.mem_map]
    constructor
    · rintro ⟨⟨n, w⟩, hout, heq⟩
      cases heq
      exact ⟨n, hout, rfl⟩
    · rintro ⟨n, hout, rfl⟩
      exact ⟨(n, v), hout, rfl⟩

/-- **A ticket is issued**: its key is not that of a ticket that is out. -/
theorem filed_issue (h : Filed key t) (v : ν) :
    (Sound key (t.issue key v) → ∀ ticket ∈ t.out, key ticket.2 ≠ key v) ∧
      ((∀ ticket ∈ t.out, key ticket.2 ≠ key v) → Filed key (t.issue key v)) := by
  constructor
  · intro hsound ticket hout heq
    have hdistinct := hsound.distinct
    unfold issue at hdistinct
    rw [List.map_append, List.nodup_append] at hdistinct
    exact hdistinct.2.2 _ (List.mem_map_of_mem hout) _ (List.mem_singleton_self _) heq
  · intro hfresh
    have hnew : t.table.get? (key v) = none := by
      rw [Dict.get?_eq_none_iff, h.entries]
      intro e he
      obtain ⟨ticket, hout, rfl⟩ := List.mem_map.mp he
      exact hfresh ticket hout
    constructor
    · show (t.table.set (key v) v).entries = _
      rw [Dict.entries_set_of_get?_eq_none hnew, h.entries]
      simp [issue]
    · intro ticket hout
      rcases List.mem_append.mp hout with hout | hout
      · exact List.getElem?_append_left (List.getElem?_eq_some_iff.mp (h.issued ticket hout)).1 ▸ h.issued ticket hout
      · rw [List.mem_singleton.mp hout]
        simp [issue]

/-- **A ticket is closed**: its key is not that of another ticket that is out. -/
theorem filed_close (h : Filed key t) {n : ℕ} {v : ν} (hv : t.issued[n]? = some v) :
    (Sound key (t.close key n v) → ∀ ticket ∈ t.out, ticket.1 ≠ n → key ticket.2 ≠ key v) ∧
      ((∀ ticket ∈ t.out, ticket.1 ≠ n → key ticket.2 ≠ key v) → Filed key (t.close key n v)) := by
  constructor
  · intro hsound ticket hout hne heq
    have hpresent := (hsound.present (key v) ticket.2).mpr ⟨ticket.1, by simpa [close] using ⟨hout, hne⟩, heq⟩
    unfold close at hpresent
    rw [Dict.get?_erase, if_pos rfl] at hpresent
    cases hpresent
  · intro hother
    constructor
    · show t.table.entries.filter _ = (t.out.filter _).map _
      rw [h.entries, List.filter_map]
      congr 1
      apply List.filter_congr
      intro ticket hout
      have hsame : key ticket.2 = key v ↔ ticket.1 = n := by
        constructor
        · intro heq
          by_contra hne
          exact hother ticket hout hne heq
        · rintro rfl
          have hissued := h.issued ticket hout
          rw [hv] at hissued
          rw [Option.some.inj hissued]
      simp [hsame]
    · intro ticket hout
      exact h.issued ticket (List.mem_of_mem_filter hout)

end Tickets

end NanoDelta.Library
