import Mathlib.Data.List.Nodup
import Mathlib.Data.String.Basic

/-!
# Separated texts and digests

Texts joined by a separator can be taken apart at the last separator if what follows
it has none. A digest function is *collision free for* a separator if it is injective
and its digests do not contain the separator. No function onto texts of a fixed length
is, but every finite table of different digests extends to one that is: `recorded`.
-/

namespace NanoDelta.Library.Text

/-! ### The last separator -/

section Separated

variable {α : Type*} [DecidableEq α] {sep : α}

theorem takeWhile_reverse_append_cons (xs : List α) {ys : List α} (h : sep ∉ ys) :
    (xs ++ sep :: ys).reverse.takeWhile (· ≠ sep) = ys.reverse := by
  have hall : ∀ a ∈ ys.reverse, decide (a ≠ sep) = true := by
    intro a ha
    rw [List.mem_reverse] at ha
    exact decide_eq_true fun he => h (he ▸ ha)
  rw [List.reverse_append, List.reverse_cons, List.append_assoc, List.takeWhile_append_of_pos hall]
  simp

/-- Two lists with the same last separator agree on both sides of it. -/
theorem append_cons_inj {xs xs' ys ys' : List α} (h : sep ∉ ys) (h' : sep ∉ ys')
    (he : xs ++ sep :: ys = xs' ++ sep :: ys') : xs = xs' ∧ ys = ys' := by
  have hys : ys.reverse = ys'.reverse := by
    rw [← takeWhile_reverse_append_cons xs h, he, takeWhile_reverse_append_cons xs' h']
  obtain rfl := List.reverse_injective hys
  exact ⟨List.append_cancel_right he, rfl⟩

end Separated

/-- Two texts with the same last bar agree on both sides of it. -/
theorem append_bar_inj {a a' b b' : String} (h : '|' ∉ b.toList) (h' : '|' ∉ b'.toList)
    (he : a ++ "|" ++ b = a' ++ "|" ++ b') : a = a' ∧ b = b' := by
  have hlists : a.toList ++ '|' :: b.toList = a'.toList ++ '|' :: b'.toList := by
    simpa using congrArg String.toList he
  obtain ⟨ha, hb⟩ := append_cons_inj h h' hlists
  exact ⟨String.toList_injective ha, String.toList_injective hb⟩

/-- Two texts with the same first bar agree on both sides of it. -/
theorem bar_append_inj {a a' b b' : String} (h : '|' ∉ a.toList) (h' : '|' ∉ a'.toList)
    (he : a ++ "|" ++ b = a' ++ "|" ++ b') : a = a' ∧ b = b' := by
  have hlists : b.toList.reverse ++ '|' :: a.toList.reverse = b'.toList.reverse ++ '|' :: a'.toList.reverse := by
    have := congrArg (fun text : String => text.toList.reverse) he
    simpa using this
  obtain ⟨hb, ha⟩ := append_cons_inj (by simpa using h) (by simpa using h') hlists
  exact ⟨String.toList_injective (List.reverse_injective ha), String.toList_injective (List.reverse_injective hb)⟩

/-! ### Collision-free digests -/

/-- The digest function is injective and its digests have no bar. -/
structure CollisionFree (digest : String → String) : Prop where
  /-- Different texts have different digests. -/
  injective : Function.Injective digest
  /-- No digest has a bar. -/
  plain : ∀ text, '|' ∉ (digest text).toList

/-- Two digests of texts that end in digests agree only if these do. -/
theorem CollisionFree.last {digest : String → String} (h : CollisionFree digest) {a a' u u' : String}
    (he : digest (a ++ "|" ++ digest u) = digest (a' ++ "|" ++ digest u')) : a = a' ∧ digest u = digest u' :=
  append_bar_inj (h.plain u) (h.plain u') (h.injective he)

/-- Two digests of texts that begin with digests agree only if these do. -/
theorem CollisionFree.first {digest : String → String} (h : CollisionFree digest) {b b' u u' : String}
    (he : digest (digest u ++ "|" ++ b) = digest (digest u' ++ "|" ++ b')) : digest u = digest u' :=
  (bar_append_inj (h.plain u) (h.plain u') (h.injective he)).1

/-- Two characters for each: a bar becomes `1x`, any other character `c` becomes `0c`. -/
def spell (c : Char) : List Char := if c = '|' then ['1', 'x'] else ['0', c]

theorem bar_notMem_spell (c : Char) : '|' ∉ spell c := by
  unfold spell
  split
  · decide
  · rename_i h
    simp [eq_comm, h]

theorem flatMap_spell_injective {cs ds : List Char} (h : cs.flatMap spell = ds.flatMap spell) : cs = ds := by
  induction cs generalizing ds with
  | nil =>
    cases ds with
    | nil => rfl
    | cons d ds => simp only [List.flatMap_nil, List.flatMap_cons, spell] at h; split at h <;> cases h
  | cons c cs ih =>
    cases ds with
    | nil => simp only [List.flatMap_nil, List.flatMap_cons, spell] at h; split at h <;> cases h
    | cons d ds =>
      simp only [List.flatMap_cons, spell] at h
      split at h <;> split at h <;> simp only [List.cons_append, List.nil_append, List.cons.injEq] at h
      · rename_i hc hd
        rw [hc, hd, ih h.2.2]
      · exact absurd h.1 (by decide)
      · exact absurd h.1 (by decide)
      · rw [h.2.1, ih h.2.2]

/-- The digest recorded for a text, and its spelling after a tilde if there is none. -/
def recorded (table : List (String × String)) (text : String) : String :=
  match table.lookup text with
  | some digest => digest
  | none => String.ofList ('~' :: text.toList.flatMap spell)

theorem mem_of_lookup_eq_some {table : List (String × String)} {text digest : String}
    (h : table.lookup text = some digest) : (text, digest) ∈ table := by
  induction table with
  | nil => cases h
  | cons e table ih =>
    rw [List.lookup_cons] at h
    split at h
    · rename_i he
      cases h
      rw [beq_iff_eq.mp he]
      exact List.mem_cons_self ..
    · exact List.mem_cons_of_mem _ (ih h)

/-- If the recorded digests are different and have no tilde and no bar, the function is collision
free. -/
theorem recorded_collisionFree {table : List (String × String)} (hnodup : (table.map Prod.snd).Nodup)
    (hplain : ∀ e ∈ table, '~' ∉ e.2.toList ∧ '|' ∉ e.2.toList) : CollisionFree (recorded table) := by
  have htag : ∀ e ∈ table, ∀ cs, e.2 ≠ String.ofList ('~' :: cs) := by
    intro e he cs heq
    exact (hplain e he).1 (by rw [heq]; simp)
  constructor
  · intro a b h
    cases ha : table.lookup a with
    | some d =>
      cases hb : table.lookup b with
      | some d' =>
        simp only [recorded, ha, hb] at h
        subst h
        exact (Prod.ext_iff.mp (List.inj_on_of_nodup_map hnodup (mem_of_lookup_eq_some ha)
          (mem_of_lookup_eq_some hb) rfl)).1
      | none =>
        simp only [recorded, ha, hb] at h
        exact absurd h (htag _ (mem_of_lookup_eq_some ha) _)
    | none =>
      cases hb : table.lookup b with
      | some d' =>
        simp only [recorded, ha, hb] at h
        exact absurd h.symm (htag _ (mem_of_lookup_eq_some hb) _)
      | none =>
        simp only [recorded, ha, hb] at h
        have hlists := String.ofList_injective h
        exact String.toList_injective (flatMap_spell_injective (List.cons.inj hlists).2)
  · intro text
    unfold recorded
    split
    · rename_i d hd
      exact (hplain _ (mem_of_lookup_eq_some hd)).2
    · rw [String.toList_ofList, List.mem_cons, List.mem_flatMap]
      rintro (h | ⟨c, -, hc⟩)
      · exact absurd h (by decide)
      · exact bar_notMem_spell c hc

/-- If no recorded digest is empty, no digest is. -/
theorem recorded_ne_empty {table : List (String × String)} (htable : ∀ e ∈ table, e.2 ≠ "") (text : String) :
    recorded table text ≠ "" := by
  unfold recorded
  split
  · rename_i digest hdigest
    exact htable _ (mem_of_lookup_eq_some hdigest)
  · intro h
    have hlist := congrArg String.toList h
    rw [String.toList_ofList] at hlist
    cases hlist

/-! ### Characters

A text that the kernel takes apart quickly: a literal is not, since its bytes are pushed one by one. A `Spelling` has the
characters of all texts of a table, and `recordedChars` looks them up byte by byte. -/

/-- The characters of a text. -/
structure Spelled (text : String) where
  chars : List Char
  eq : text = String.ofList chars

/-- The characters of a literal. -/
def Spelled.ofList (cs : List Char) : Spelled (String.ofList cs) := ⟨cs, rfl⟩

/-- The characters of a text that is equal to another. -/
def Spelled.congr {text text' : String} (s : Spelled text') (h : text = text') : Spelled text := ⟨s.chars, h.trans s.eq⟩

/-- The characters of a text and then of another. -/
def Spelled.append {text text' : String} (s : Spelled text) (s' : Spelled text') : Spelled (text ++ text') :=
  ⟨s.chars ++ s'.chars, by rw [String.ofList_append, ← s.eq, ← s'.eq]⟩

/-- The characters of the texts and the digests of a table. -/
structure Spelling (table : List (String × String)) where
  chars : List (List Char × List Char)
  eq : table = chars.map fun e => (String.ofList e.1, String.ofList e.2)

def Spelling.nil : Spelling [] := ⟨[], rfl⟩

def Spelling.cons {text digest : String} {table : List (String × String)} (s : Spelled text) (s' : Spelled digest)
    (rest : Spelling table) : Spelling ((text, digest) :: table) :=
  ⟨(s.chars, s'.chars) :: rest.chars, by rw [List.map_cons, ← s.eq, ← s'.eq, ← rest.eq]⟩

def Spelling.append {table table' : List (String × String)} (s : Spelling table) (s' : Spelling table') :
    Spelling (table ++ table') :=
  ⟨s.chars ++ s'.chars, by rw [List.map_append, ← s.eq, ← s'.eq]⟩

/-- The bytes of a list of characters. -/
def bytesOf (cs : List Char) : List UInt8 := cs.flatMap String.utf8EncodeChar

theorem toByteArray_ofList (cs : List Char) : (String.ofList cs).toByteArray = ⟨⟨bytesOf cs⟩⟩ := by
  apply ByteArray.ext
  apply Array.toList_inj.mp
  rw [String.toByteArray_ofList, List.utf8Encode, List.toList_data_toByteArray, bytesOf]

/-- The text of a list of characters, made of bytes. -/
def textOf (cs : List Char) : String :=
  .ofByteArray ⟨⟨bytesOf cs⟩⟩ (toByteArray_ofList cs ▸ (String.ofList cs).isValidUTF8)

theorem textOf_eq (cs : List Char) : textOf cs = String.ofList cs := String.toByteArray_inj.mp (toByteArray_ofList cs).symm

/-- `recorded`, by the characters of the table. -/
def recordedChars (cs : List (List Char × List Char)) (text : String) : String :=
  match cs.find? fun e => bytesOf e.1 = text.toByteArray.data.toList with
  | some e => textOf e.2
  | none => String.ofList ('~' :: text.toList.flatMap spell)

theorem beq_ofList (text : String) (cs : List Char) :
    (text == String.ofList cs) = decide (bytesOf cs = text.toByteArray.data.toList) := by
  rw [Bool.eq_iff_iff, beq_iff_eq, decide_eq_true_eq, ← String.toByteArray_inj, toByteArray_ofList, ByteArray.ext_iff,
    ← Array.toList_inj]
  exact eq_comm

theorem lookup_ofList (cs : List (List Char × List Char)) (text : String) :
    (cs.map fun e => (String.ofList e.1, String.ofList e.2)).lookup text =
      (cs.find? fun e => bytesOf e.1 = text.toByteArray.data.toList).map fun e => textOf e.2 := by
  induction cs with
  | nil => rfl
  | cons e cs ih =>
    rw [List.map_cons, List.lookup_cons, List.find?_cons, ih, beq_ofList]
    cases decide (bytesOf e.1 = text.toByteArray.data.toList) with
    | false => rfl
    | true => exact congrArg some (textOf_eq e.2).symm

section Spelling

variable {table : List (String × String)}

theorem recorded_eq (s : Spelling table) : recorded table = recordedChars s.chars := by
  obtain ⟨cs, rfl⟩ := s
  funext text
  rw [recorded, recordedChars, lookup_ofList]
  cases cs.find? fun e => bytesOf e.1 = text.toByteArray.data.toList <;> rfl

/-- Digests are different if their characters are. -/
theorem Spelling.nodup (s : Spelling table) (h : (s.chars.map Prod.snd).Nodup) : (table.map Prod.snd).Nodup := by
  obtain ⟨cs, rfl⟩ := s
  have hsnd : (cs.map fun e => (String.ofList e.1, String.ofList e.2)).map Prod.snd = (cs.map Prod.snd).map String.ofList := by
    rw [List.map_map, List.map_map]
    rfl
  rw [hsnd]
  exact h.map fun _ _ => String.ofList_injective

end Spelling

end NanoDelta.Library.Text
