import Mathlib.Data.List.TakeWhile
import Mathlib.Data.String.Basic

/-!
# Texts made of fields

A text that is written field by field can be read back, if no character of a field is one that its label begins with.

* `Made.append_inj`: a field and what follows it.
* `render`: fields with a label after each; `render_inj`: the fields are those of the text.
* `ofDigitChars_padded`: a number in decimal, with zeros before it.
-/

namespace NanoDelta.Library.Text

variable {p : Char → Bool}

/-! ### A field and what follows it -/

/-- Every character of the text is one of `p`. -/
def Made (p : Char → Bool) (text : String) : Prop := ∀ c ∈ text.toList, p c = true

/-- The text does not begin with a character of `p`. -/
def Follows (p : Char → Bool) (text : String) : Prop := ∀ c ∈ text.toList.head?, p c = false

instance (text : String) : Decidable (Made p text) := List.decidableBAll _ text.toList

instance (text : String) : Decidable (Follows p text) :=
  Option.decidableForallMem _

theorem Made.append {a b : String} (ha : Made p a) (hb : Made p b) : Made p (a ++ b) := by
  intro c hc
  rw [String.toList_append] at hc
  exact (List.mem_append.mp hc).elim (ha c) (hb c)

theorem Made.mono {q : Char → Bool} {a : String} (h : Made p a) (hpq : ∀ c, p c = true → q c = true) : Made q a :=
  fun c hc => hpq c (h c hc)

theorem Follows.append {a : String} (ha : a ≠ "") (h : Follows p a) (b : String) : Follows p (a ++ b) := by
  cases hlist : a.toList with
  | nil => exact absurd (String.toList_eq_nil_iff.mp hlist) ha
  | cons c cs =>
    intro d hd
    rw [String.toList_append, hlist] at hd
    refine h d ?_
    rw [hlist]
    exact hd

/-- A field is what its characters reach to. -/
theorem takeWhile_of_made {a b : String} (ha : Made p a) (hb : Follows p b) :
    (a ++ b).toList.takeWhile p = a.toList := by
  rw [String.toList_append, List.takeWhile_append_of_pos ha]
  cases hlist : b.toList with
  | nil => simp
  | cons c cs =>
    have hc : p c = false := hb c (by rw [hlist]; rfl)
    rw [List.takeWhile_cons_of_neg (by simp [hc]), List.append_nil]

/-- **A field and what follows it** are told by the text. -/
theorem Made.append_inj {a a' b b' : String} (ha : Made p a) (ha' : Made p a') (hb : Follows p b) (hb' : Follows p b')
    (h : a ++ b = a' ++ b') : a = a' ∧ b = b' := by
  have hfield : a.toList = a'.toList := by
    rw [← takeWhile_of_made ha hb, h, takeWhile_of_made ha' hb']
  obtain rfl := String.toList_injective hfield
  exact ⟨rfl, String.append_right_inj _ |>.mp h⟩

/-! ### Fields with labels after them -/

/-- The fields, each with its label after it, and the rest. -/
def render : List String → List String → String → String
  | label :: labels, field :: fields, rest => field ++ (label ++ render labels fields rest)
  | _, _, rest => rest

/-- **Fields are told by the text**, if none has a character that its label begins with. -/
theorem render_inj {labels : List String} (hlabels : ∀ label ∈ labels, label ≠ "" ∧ Follows p label)
    {fields fields' : List String} {rest rest' : String} (hlength : fields.length = labels.length)
    (hlength' : fields'.length = labels.length) (hmade : ∀ field ∈ fields, Made p field)
    (hmade' : ∀ field ∈ fields', Made p field) (h : render labels fields rest = render labels fields' rest') :
    fields = fields' ∧ rest = rest' := by
  induction labels generalizing fields fields' with
  | nil =>
    rw [List.length_eq_zero_iff.mp hlength, List.length_eq_zero_iff.mp hlength'] at h ⊢
    exact ⟨rfl, h⟩
  | cons label labels ih =>
    obtain ⟨field, fields, rfl⟩ := List.exists_cons_of_length_eq_add_one hlength
    obtain ⟨field', fields', rfl⟩ := List.exists_cons_of_length_eq_add_one hlength'
    obtain ⟨hne, hfollows⟩ := hlabels label (List.mem_cons_self ..)
    obtain ⟨rfl, htail⟩ := Made.append_inj (hmade field (List.mem_cons_self ..)) (hmade' field' (List.mem_cons_self ..))
      (hfollows.append hne _) (hfollows.append hne _) h
    obtain ⟨rfl, rfl⟩ := ih (fun l hl => hlabels l (List.mem_cons_of_mem _ hl)) (Nat.succ.inj hlength)
      (Nat.succ.inj hlength') (fun f hf => hmade f (List.mem_cons_of_mem _ hf))
      (fun f hf => hmade' f (List.mem_cons_of_mem _ hf)) ((String.append_right_inj _).mp htail)
    exact ⟨rfl, rfl⟩

theorem render_made {q : Char → Bool} {labels fields : List String} {rest : String}
    (hlabels : ∀ label ∈ labels, Made q label) (hfields : ∀ field ∈ fields, Made q field) (hrest : Made q rest) :
    Made q (render labels fields rest) := by
  induction labels generalizing fields with
  | nil => exact hrest
  | cons label labels ih =>
    cases fields with
    | nil => exact hrest
    | cons field fields =>
      have htail := ih (fun l hl => hlabels l (List.mem_cons_of_mem _ hl)) fun f hf => hfields f (List.mem_cons_of_mem _ hf)
      exact (hfields field (List.mem_cons_self ..)).append ((hlabels label (List.mem_cons_self ..)).append htail)

/-! ### Numbers -/

/-- The value of a number is not changed by zeros before it. -/
theorem ofDigitChars_padded (k n : ℕ) :
    Nat.ofDigitChars 10 (List.replicate k '0' ++ Nat.toDigits 10 n) 0 = n := by
  rw [Nat.ofDigitChars_append, Nat.ofDigitChars_replicate_zero, Nat.mul_zero, Nat.ofDigitChars_ten_toDigits]

theorem isDigit_padded {k n : ℕ} {c : Char} (h : c ∈ List.replicate k '0' ++ Nat.toDigits 10 n) : c.isDigit = true := by
  rcases List.mem_append.mp h with h | h
  · rw [List.eq_of_mem_replicate h]
    rfl
  · exact Nat.isDigit_of_mem_toDigits (by decide) (by decide) h

theorem toString_inj {n n' : ℕ} (h : toString n = toString n') : n = n' := by
  have hlist := congrArg String.toList h
  rw [Nat.toString_eq_repr, Nat.toString_eq_repr, Nat.toList_repr, Nat.toList_repr] at hlist
  rw [← @Nat.ofDigitChars_ten_toDigits n, hlist, Nat.ofDigitChars_ten_toDigits]

theorem made_toString (n : ℕ) : Made Char.isDigit (toString n) := by
  intro c hc
  rw [Nat.toString_eq_repr, Nat.toList_repr] at hc
  exact Nat.isDigit_of_mem_toDigits (by decide) (by decide) hc

end NanoDelta.Library.Text
