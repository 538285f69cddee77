import Mathlib

/-!
# Fields of bytes

Numbers of a fixed width in little-endian order, one after the other. `unpackFrom` reads one at an offset, if it is there;
a layout is a list of widths, and `unpack` reads one field after the other from an offset on.

* `unpack_eq_some_iff`: what is read are the numbers whose `pack` stands there, so that reading and writing are inverse.
* `isSome_unpack_iff`: something is read just if there are bytes enough.
-/

namespace NanoDelta.Library.Wire

/-! ### One number -/

/-- A number in so many bytes, the last significant first. -/
def bytesLE : ℕ → ℕ → List UInt8
  | 0, _ => []
  | width + 1, n => UInt8.ofNat n :: bytesLE width (n / 256)

/-- The number that the bytes stand for. -/
def readLE : List UInt8 → ℕ
  | [] => 0
  | b :: bytes => b.toNat + 256 * readLE bytes

@[simp] theorem length_bytesLE (width n : ℕ) : (bytesLE width n).length = width := by
  induction width generalizing n with
  | zero => rfl
  | succ width ih => simp [bytesLE, ih]

theorem readLE_lt (bytes : List UInt8) : readLE bytes < 256 ^ bytes.length := by
  induction bytes with
  | nil => simp [readLE]
  | cons b bytes ih =>
    have hb := b.toNat_lt
    rw [readLE, List.length_cons, pow_succ]
    omega

theorem readLE_bytesLE {width n : ℕ} (h : n < 256 ^ width) : readLE (bytesLE width n) = n := by
  induction width generalizing n with
  | zero =>
    rw [pow_zero] at h
    simp only [bytesLE, readLE]
    omega
  | succ width ih =>
    have hrest : n / 256 < 256 ^ width := by
      rw [pow_succ] at h
      omega
    rw [bytesLE, readLE, ih hrest]
    simp only [UInt8.toNat_ofNat']
    omega

theorem bytesLE_readLE (bytes : List UInt8) : bytesLE bytes.length (readLE bytes) = bytes := by
  induction bytes with
  | nil => rfl
  | cons b bytes ih =>
    have hb := b.toNat_lt
    have hdiv : (b.toNat + 256 * readLE bytes) / 256 = readLE bytes := by omega
    have hmod : UInt8.ofNat (b.toNat + 256 * readLE bytes) = b := by
      apply UInt8.toNat.inj
      rw [UInt8.toNat_ofNat']
      omega
    rw [readLE, List.length_cons, bytesLE, hdiv, hmod, ih]

/-- The number of that width at an offset, if all its bytes are there. -/
def unpackFrom (width : ℕ) (packet : List UInt8) (offset : ℕ) : Option ℕ :=
  if offset + width ≤ packet.length then some (readLE ((packet.drop offset).take width)) else none

/-- **One number**: what is read is the number whose bytes stand there. -/
theorem unpackFrom_eq_some_iff {width : ℕ} {packet : List UInt8} {offset n : ℕ} :
    unpackFrom width packet offset = some n ↔
      n < 256 ^ width ∧ ∃ before after, packet = before ++ bytesLE width n ++ after ∧ before.length = offset := by
  constructor
  · intro h
    unfold unpackFrom at h
    split_ifs at h with hlength
    cases h
    have hwidth : ((packet.drop offset).take width).length = width := by simp; omega
    have hlt := readLE_lt ((packet.drop offset).take width)
    have hbytes := bytesLE_readLE ((packet.drop offset).take width)
    rw [hwidth] at hlt hbytes
    refine ⟨hlt, packet.take offset, (packet.drop offset).drop width, ?_, by simp; omega⟩
    rw [hbytes, List.append_assoc, List.take_append_drop, List.take_append_drop]
  · rintro ⟨hlt, before, after, rfl, rfl⟩
    have hthere : before.length + width ≤ (before ++ bytesLE width n ++ after).length := by simp
    have htake : ((before ++ bytesLE width n ++ after).drop before.length).take width = bytesLE width n := by
      rw [List.append_assoc, List.drop_left, List.take_left' (length_bytesLE width n)]
    rw [unpackFrom, if_pos hthere, htake, readLE_bytesLE hlt]

/-! ### Layouts -/

/-- The bytes of a layout. -/
def size (widths : List ℕ) : ℕ := widths.sum

/-- Where the fields of a layout stand, from an offset on. -/
def offsets (offset : ℕ) : List ℕ → List ℕ
  | [] => []
  | width :: widths => offset :: offsets (offset + width) widths

/-- One field after the other. -/
def unpack (packet : List UInt8) (offset : ℕ) : List ℕ → Option (List ℕ)
  | [] => some []
  | width :: widths => do
    let n ← unpackFrom width packet offset
    let ns ← unpack packet (offset + width) widths
    return n :: ns

/-- The bytes of the numbers, one after the other. -/
def pack : List ℕ → List ℕ → List UInt8
  | width :: widths, n :: ns => bytesLE width n ++ pack widths ns
  | _, _ => []

/-- A number for each field, of its width. -/
def Fits (widths ns : List ℕ) : Prop := List.Forall₂ (fun width n => n < 256 ^ width) widths ns

theorem length_pack {widths ns : List ℕ} (h : Fits widths ns) : (pack widths ns).length = size widths := by
  induction h with
  | nil => rfl
  | cons _ _ ih => simpa [pack, size] using ih

/-- **A layout**: what is read are the numbers whose bytes stand there. -/
theorem unpack_eq_some_iff {widths : List ℕ} {packet : List UInt8} {offset : ℕ} {ns : List ℕ}
    (hoffset : offset ≤ packet.length) :
    unpack packet offset widths = some ns ↔
      Fits widths ns ∧ ∃ before after, packet = before ++ pack widths ns ++ after ∧ before.length = offset := by
  induction widths generalizing offset ns with
  | nil =>
    constructor
    · intro h
      cases h
      exact ⟨.nil, packet.take offset, packet.drop offset, by simp [pack], by simpa using hoffset⟩
    · rintro ⟨hfits, -⟩
      cases hfits
      rfl
  | cons width widths ih =>
    constructor
    · intro h
      obtain ⟨n, hn, hrest⟩ := Option.bind_eq_some_iff.mp h
      obtain ⟨ns', hns, hsome⟩ := Option.bind_eq_some_iff.mp hrest
      cases hsome
      obtain ⟨hlt, before, after, rfl, rfl⟩ := unpackFrom_eq_some_iff.mp hn
      obtain ⟨hfits, before', after', heq, hlength⟩ := (ih (by simp)).mp hns
      have hsplit : before' = before ++ bytesLE width n ∧ after = pack widths ns' ++ after' := by
        rw [List.append_assoc before'] at heq
        exact ⟨(List.append_inj heq (by simp [hlength])).1.symm, (List.append_inj heq (by simp [hlength])).2⟩
      exact ⟨.cons hlt hfits, before, after', by simp [pack, hsplit.2], rfl⟩
    · rintro ⟨hfits, before, after, rfl, rfl⟩
      cases hfits with
      | cons hlt hfits =>
        rename_i n ns'
        have hfirst : unpackFrom width (before ++ pack (width :: widths) (n :: ns') ++ after) before.length = some n :=
          unpackFrom_eq_some_iff.mpr ⟨hlt, before, pack widths ns' ++ after, by simp [pack], rfl⟩
        have hrest : unpack (before ++ pack (width :: widths) (n :: ns') ++ after) (before.length + width) widths =
            some ns' :=
          (ih (by simp [pack])).mpr ⟨hfits, before ++ bytesLE width n, after, by simp [pack], by simp⟩
        simp only [unpack, hfirst, hrest]
        rfl

/-- Something is read just if there are bytes enough. -/
theorem isSome_unpack_iff {widths : List ℕ} {packet : List UInt8} {offset : ℕ} (hoffset : offset ≤ packet.length) :
    (unpack packet offset widths).isSome = true ↔ offset + size widths ≤ packet.length := by
  induction widths generalizing offset with
  | nil => simpa [unpack, size] using hoffset
  | cons width widths ih =>
    by_cases hwidth : offset + width ≤ packet.length
    · have hih := ih hwidth
      cases hrest : unpack packet (offset + width) widths <;>
        simp [unpack, unpackFrom, hwidth, hrest, size, Nat.add_assoc] at hih ⊢ <;> omega
    · have hnone : unpack packet offset (width :: widths) = none := by simp [unpack, unpackFrom, hwidth]
      rw [hnone]
      simp [size]
      omega

end NanoDelta.Library.Wire
