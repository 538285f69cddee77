import Mathlib.Algebra.Order.Floor.Div
import Mathlib.Data.List.Basic
import Mathlib.Order.Interval.Finset.Nat

/-!
# Blocks of a list

A list is cut into blocks by a function from the places of its items to the numbers of the blocks. If the function is
monotone, the blocks follow each other as the items do. `slot` spreads the places evenly: place `i` of `n` is in block
`i * w / n` of `w`, and then no block is more than one item longer than another.
-/

namespace NanoDelta.Library

universe u

variable {α : Type u}

/-- The items whose places `f` sends to block `j`. -/
def block (f : ℕ → ℕ) (l : List α) (j : ℕ) : List α := (l.zipIdx.filter fun e => f e.2 = j).map Prod.fst

/-- The first `w` blocks. -/
def blocks (f : ℕ → ℕ) (w : ℕ) (l : List α) : List (List α) := (List.range w).map (block f l)

section Blocks

variable {f : ℕ → ℕ}

@[simp] theorem length_blocks (f : ℕ → ℕ) (w : ℕ) (l : List α) : (blocks f w l).length = w := by simp [blocks]

@[simp] theorem block_nil (f : ℕ → ℕ) (j : ℕ) : block f ([] : List α) j = [] := rfl

theorem block_concat (f : ℕ → ℕ) (l : List α) (a : α) (j : ℕ) :
    block f (l ++ [a]) j = block f l j ++ if f l.length = j then [a] else [] := by
  unfold block
  rw [List.zipIdx_append, List.filter_append, List.map_append]
  split_ifs with h <;> simp [h]

/-- An item is in a block just if its place is. -/
theorem mem_block {l : List α} {j : ℕ} {a : α} : a ∈ block f l j ↔ ∃ i, f i = j ∧ l[i]? = some a := by
  unfold block
  simp only [List.mem_map, List.mem_filter, List.mem_zipIdx_iff_getElem?, decide_eq_true_eq]
  constructor
  · rintro ⟨⟨b, i⟩, ⟨hget, hi⟩, rfl⟩
    exact ⟨i, hi, hget⟩
  · rintro ⟨i, hi, hget⟩
    exact ⟨(a, i), ⟨hget, hi⟩, rfl⟩

theorem block_ne_nil {l : List α} {j : ℕ} : block f l j ≠ [] ↔ ∃ i < l.length, f i = j := by
  constructor
  · intro h
    obtain ⟨a, ha⟩ := List.exists_mem_of_ne_nil _ h
    obtain ⟨i, hi, hget⟩ := mem_block.mp ha
    obtain ⟨hlt, -⟩ := List.getElem?_eq_some_iff.mp hget
    exact ⟨i, hlt, hi⟩
  · rintro ⟨i, hlt, hi⟩
    exact List.ne_nil_of_mem (mem_block.mpr ⟨i, hi, List.getElem?_eq_getElem hlt⟩)

theorem length_block (f : ℕ → ℕ) (l : List α) (j : ℕ) :
    (block f l j).length = ((Finset.range l.length).filter fun i => f i = j).card := by
  induction l using List.reverseRecOn with
  | nil => rfl
  | append_singleton l a ih =>
    rw [block_concat, List.length_append, ih, List.length_append, List.length_singleton, Finset.range_add_one,
      Finset.filter_insert]
    split_ifs with h
    · rw [Finset.card_insert_of_notMem (by simp)]
      rfl
    · rfl

/-- After the last block there is no item. -/
theorem block_eq_nil {l : List α} {w : ℕ} (h : ∀ i < l.length, f i < w) {j : ℕ} (hj : w ≤ j) : block f l j = [] := by
  by_contra hne
  obtain ⟨i, hlt, rfl⟩ := block_ne_nil.mp hne
  exact absurd (h i hlt) (not_lt.mpr hj)

/-- **The blocks, put together, are the list**: none of its items is lost or there twice, and their order is the same. -/
theorem flatten_blocks (hf : Monotone f) {l : List α} {w : ℕ} (h : ∀ i < l.length, f i < w) :
    (blocks f w l).flatten = l := by
  induction l using List.reverseRecOn generalizing w with
  | nil =>
    apply List.flatten_eq_nil_iff.mpr
    intro b hb
    obtain ⟨j, -, rfl⟩ := List.mem_map.mp hb
    rfl
  | append_singleton l a ih =>
    -- the last item is alone in what is after its block, and the blocks up to there have the others
    have hlast : f l.length < w := h l.length (by simp)
    have hupto : ∀ i < l.length, f i < f l.length + 1 := fun i hi => Nat.lt_succ_of_le (hf hi.le)
    obtain ⟨rest, rfl⟩ := Nat.exists_eq_add_of_lt hlast
    have hsplit : blocks f (f l.length + rest + 1) (l ++ [a]) =
        (List.range (f l.length)).map (block f (l ++ [a])) ++ block f (l ++ [a]) (f l.length) ::
          (List.range rest).map fun j => block f (l ++ [a]) (f l.length + 1 + j) := by
      rw [blocks, show f l.length + rest + 1 = f l.length + 1 + rest by omega, List.range_add, List.range_succ,
        List.map_append, List.map_append, List.append_assoc, List.map_map]
      rfl
    have hbefore : (List.range (f l.length)).map (block f (l ++ [a])) = (List.range (f l.length)).map (block f l) := by
      apply List.map_congr_left
      intro j hj
      rw [block_concat, if_neg (List.mem_range.mp hj).ne', List.append_nil]
    have hafter : ((List.range rest).map fun j => block f (l ++ [a]) (f l.length + 1 + j)) = List.replicate rest [] := by
      rw [List.eq_replicate_iff]
      refine ⟨by simp, ?_⟩
      intro b hb
      obtain ⟨j, -, rfl⟩ := List.mem_map.mp hb
      rw [block_concat, if_neg (by omega), List.append_nil]
      exact block_eq_nil hupto (by omega)
    have hrest := ih hupto
    rw [blocks, List.range_succ, List.map_append, List.flatten_append, List.map_singleton, List.flatten_singleton] at hrest
    rw [hsplit, hbefore, hafter, block_concat, if_pos rfl, List.flatten_append, List.flatten_cons]
    simp only [List.flatten_replicate_nil, List.append_nil]
    rw [← List.append_assoc, hrest]

/-- **Blocks of an ordered list are in order.** -/
theorem pairwise_blocks (hf : Monotone f) {r : α → α → Prop} {l : List α} (hl : l.Pairwise r) {w : ℕ}
    (h : ∀ i < l.length, f i < w) : (blocks f w l).Pairwise fun b c => ∀ x ∈ b, ∀ y ∈ c, r x y := by
  rw [← flatten_blocks hf h] at hl
  exact (List.pairwise_flatten.mp hl).2

end Blocks

/-! ### Even blocks -/

/-- The block of place `i` if the `w` blocks are spread over `n` places. -/
def slot (w n i : ℕ) : ℕ := min (w - 1) (i * w / max 1 n)

section Slot

variable {w n i j : ℕ}

theorem slot_mono (w n : ℕ) : Monotone (slot w n) := fun _ _ h =>
  min_le_min le_rfl (Nat.div_le_div_right (Nat.mul_le_mul_right w h))

theorem slot_lt (hw : 1 ≤ w) : slot w n i < w := (min_le_left _ _).trans_lt (by omega)

/-- Before the end, the last block is no limit. -/
theorem slot_eq_div (hi : i < n) : slot w n i = i * w / n := by
  have hpos : 0 < n := by omega
  unfold slot
  rw [max_eq_right hpos]
  refine min_eq_right ?_
  rcases Nat.eq_zero_or_pos w with rfl | hw
  · simp
  · have hlt : i * w / n < w := Nat.div_lt_of_lt_mul (Nat.mul_lt_mul_of_pos_right hi hw)
    omega

/-- The first place of a block. -/
def start (w n j : ℕ) : ℕ := (j * n) ⌈/⌉ w

theorem start_le_iff (hw : 1 ≤ w) : start w n j ≤ i ↔ j * n ≤ i * w := by
  unfold start
  rw [ceilDiv_le_iff_le_mul hw, mul_comm w]

theorem start_le (hw : 1 ≤ w) (hj : j ≤ w) : start w n j ≤ n :=
  (start_le_iff hw).mpr (by rw [mul_comm]; exact Nat.mul_le_mul_left n hj)

/-- The places of a block are those from its first one up to the first one of the next. -/
theorem slot_eq_iff (hw : 1 ≤ w) (hi : i < n) : slot w n i = j ↔ start w n j ≤ i ∧ i < start w n (j + 1) := by
  have hpos : 0 < n := by omega
  rw [slot_eq_div hi, start_le_iff hw, ← not_le, start_le_iff hw, ← Nat.le_div_iff_mul_le hpos,
    ← Nat.le_div_iff_mul_le hpos]
  omega

/-- Two first places are as far from each other as the blocks are long, but for one. -/
theorem start_succ (hw : 1 ≤ w) (n j : ℕ) :
    start w n j + n / w ≤ start w n (j + 1) ∧ start w n (j + 1) ≤ start w n j + (n / w + 1) := by
  have hdiv : n / w * w ≤ n := Nat.div_mul_le_self n w
  have hmod : n < (n / w + 1) * w := Nat.lt_mul_of_div_lt (Nat.lt_succ_self _) hw
  have hfirst : j * n ≤ start w n j * w := (start_le_iff hw).mp le_rfl
  have hnext : j * n + n ≤ start w n (j + 1) * w := (Nat.succ_mul j n).symm.trans_le ((start_le_iff hw).mp le_rfl)
  constructor
  · have hmul : n / w * w ≤ start w n (j + 1) * w := by omega
    have hle : n / w ≤ start w n (j + 1) := Nat.le_of_mul_le_mul_right hmul hw
    have hback : start w n j ≤ start w n (j + 1) - n / w := by
      rw [start_le_iff hw, Nat.sub_mul]
      omega
    omega
  · rw [start_le_iff hw, Nat.succ_mul, Nat.add_mul (start w n j)]
    omega

/-- **Even blocks** have `n / w` items or one more. -/
theorem length_block_slot (hw : 1 ≤ w) (l : List α) {j : ℕ} (hj : j < w) :
    l.length / w ≤ (block (slot w l.length) l j).length ∧
      (block (slot w l.length) l j).length ≤ l.length / w + 1 := by
  have hplaces : ((Finset.range l.length).filter fun i => slot w l.length i = j) =
      Finset.Ico (start w l.length j) (start w l.length (j + 1)) := by
    ext i
    rw [Finset.mem_filter, Finset.mem_range, Finset.mem_Ico]
    constructor
    · rintro ⟨hi, hslot⟩
      exact (slot_eq_iff hw hi).mp hslot
    · intro hi
      have hlt : i < l.length := hi.2.trans_le (start_le hw hj)
      exact ⟨hlt, (slot_eq_iff hw hlt).mpr hi⟩
  obtain ⟨hlow, hhigh⟩ := start_succ hw l.length j
  rw [length_block, hplaces, Nat.card_Ico]
  constructor
  · exact Nat.le_sub_of_add_le' hlow
  · exact Nat.sub_le_iff_le_add'.mpr hhigh

/-- With no fewer places than blocks, the blocks from the first to that of the last item have an item. -/
theorem exists_slot_eq (hw : 1 ≤ w) (hn : w ≤ n) (hj : j ≤ slot w n i) : ∃ k ≤ i, slot w n k = j := by
  induction i with
  | zero =>
    have hzero : slot w n 0 = 0 := by simp [slot]
    exact ⟨0, le_rfl, by omega⟩
  | succ i ih =>
    by_cases hle : j ≤ slot w n i
    · obtain ⟨k, hk, hslot⟩ := ih hle
      exact ⟨k, by omega, hslot⟩
    · -- a step is of one block at most
      have hstep : (i + 1) * w / max 1 n ≤ i * w / max 1 n + 1 := by
        rw [max_eq_right (by omega : 1 ≤ n), add_mul, one_mul, ← Nat.add_div_right _ (by omega : 0 < n)]
        exact Nat.div_le_div_right (by omega)
      refine ⟨i + 1, le_rfl, ?_⟩
      unfold slot at hj hle ⊢
      omega

end Slot

end NanoDelta.Library
