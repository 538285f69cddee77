import NanoDelta.Library.Text

/-!
# SHA-256

The hash function of FIPS 180-4 on the UTF-8 bytes of a text, with the digest
written in lower-case hexadecimal. Words are natural numbers below `2 ^ 32`, so
that a digest can be evaluated inside a proof.
-/

namespace NanoDelta.Library.Sha256

/-! ### Words -/

/-- `2 ^ 32`. -/
def modulus : ℕ := 4294967296

/-- Rotate a word right by `n` bits. -/
def rotr (x n : ℕ) : ℕ := (x >>> n) ||| ((x <<< (32 - n)) % modulus)

/-- The schedule function `σ₀`. -/
def smallSigma0 (x : ℕ) : ℕ := rotr x 7 ^^^ rotr x 18 ^^^ (x >>> 3)

/-- The schedule function `σ₁`. -/
def smallSigma1 (x : ℕ) : ℕ := rotr x 17 ^^^ rotr x 19 ^^^ (x >>> 10)

/-- The round function `Σ₀`. -/
def bigSigma0 (x : ℕ) : ℕ := rotr x 2 ^^^ rotr x 13 ^^^ rotr x 22

/-- The round function `Σ₁`. -/
def bigSigma1 (x : ℕ) : ℕ := rotr x 6 ^^^ rotr x 11 ^^^ rotr x 25

/-- Choose `y` where `x` is set, and `z` where it is not. -/
def choose (x y z : ℕ) : ℕ := (x &&& y) ^^^ ((modulus - 1 - x) &&& z)

/-- The majority of three bits. -/
def majority (x y z : ℕ) : ℕ := (x &&& y) ^^^ (x &&& z) ^^^ (y &&& z)

/-- The round constants. -/
def constants : List ℕ :=
  [0x428a2f98, 0x71374491, 0xb5c0fbcf, 0xe9b5dba5, 0x3956c25b, 0x59f111f1, 0x923f82a4, 0xab1c5ed5,
   0xd807aa98, 0x12835b01, 0x243185be, 0x550c7dc3, 0x72be5d74, 0x80deb1fe, 0x9bdc06a7, 0xc19bf174,
   0xe49b69c1, 0xefbe4786, 0x0fc19dc6, 0x240ca1cc, 0x2de92c6f, 0x4a7484aa, 0x5cb0a9dc, 0x76f988da,
   0x983e5152, 0xa831c66d, 0xb00327c8, 0xbf597fc7, 0xc6e00bf3, 0xd5a79147, 0x06ca6351, 0x14292967,
   0x27b70a85, 0x2e1b2138, 0x4d2c6dfc, 0x53380d13, 0x650a7354, 0x766a0abb, 0x81c2c92e, 0x92722c85,
   0xa2bfe8a1, 0xa81a664b, 0xc24b8b70, 0xc76c51a3, 0xd192e819, 0xd6990624, 0xf40e3585, 0x106aa070,
   0x19a4c116, 0x1e376c08, 0x2748774c, 0x34b0bcb5, 0x391c0cb3, 0x4ed8aa4a, 0x5b9cca4f, 0x682e6ff3,
   0x748f82ee, 0x78a5636f, 0x84c87814, 0x8cc70208, 0x90befffa, 0xa4506ceb, 0xbef9a3f7, 0xc67178f2]

/-! ### Compression -/

/-- `n` more words of the message schedule, latest word first. -/
def schedule : ℕ → List ℕ → List ℕ
  | 0, w => w
  | n + 1, w =>
    schedule n
      (((smallSigma1 (w.getD 1 0) + w.getD 6 0 + smallSigma0 (w.getD 14 0) + w.getD 15 0) % modulus)
        :: w)

/-- The eight working variables. -/
structure Registers where
  (a b c d e f g h : ℕ)

/-- The initial hash value. -/
def Registers.initial : Registers :=
  ⟨0x6a09e667, 0xbb67ae85, 0x3c6ef372, 0xa54ff53a, 0x510e527f, 0x9b05688c, 0x1f83d9ab, 0x5be0cd19⟩

/-- One round, with its constant and its schedule word. -/
def Registers.round (s : Registers) (kw : ℕ × ℕ) : Registers :=
  let t₁ := s.h + bigSigma1 s.e + choose s.e s.f s.g + kw.1 + kw.2
  let t₂ := bigSigma0 s.a + majority s.a s.b s.c
  ⟨(t₁ + t₂) % modulus, s.a, s.b, s.c, (s.d + t₁) % modulus, s.e, s.f, s.g⟩

/-- Add register by register. -/
def Registers.add (s t : Registers) : Registers :=
  ⟨(s.a + t.a) % modulus, (s.b + t.b) % modulus, (s.c + t.c) % modulus, (s.d + t.d) % modulus,
   (s.e + t.e) % modulus, (s.f + t.f) % modulus, (s.g + t.g) % modulus, (s.h + t.h) % modulus⟩

/-- Compress one block of sixteen words. -/
def compress (s : Registers) (block : List ℕ) : Registers :=
  s.add ((constants.zip (schedule 48 block.reverse).reverse).foldl Registers.round s)

/-! ### Padding and the digest -/

/-- Big-endian words of a string of bytes. -/
def words : List ℕ → List ℕ
  | a :: b :: c :: d :: rest => (((a * 256 + b) * 256 + c) * 256 + d) :: words rest
  | _ => []

/-- The first `n` blocks of sixteen words. -/
def blocks : ℕ → List ℕ → List (List ℕ)
  | 0, _ => []
  | n + 1, w => w.take 16 :: blocks n (w.drop 16)

/-- The length of a message in bits, in eight bytes. -/
def lengthBytes (n : ℕ) : List ℕ := [56, 48, 40, 32, 24, 16, 8, 0].map fun s => (n >>> s) % 256

/-- The message with its padding: a multiple of 64 bytes. -/
def pad (bytes : List ℕ) : List ℕ :=
  bytes ++ [0x80] ++ List.replicate ((119 - bytes.length % 64) % 64) 0 ++ lengthBytes (bytes.length * 8)

/-- A word in hexadecimal. -/
def hexWord (n : ℕ) : List Char :=
  [28, 24, 20, 16, 12, 8, 4, 0].map fun s => Nat.digitChar ((n >>> s) % 16)

/-- The hexadecimal SHA-256 digest of a text. -/
def hexdigest (text : String) : String :=
  let padded := pad (text.toByteArray.data.toList.map (·.toNat))
  let r := (blocks (padded.length / 64) (words padded)).foldl compress Registers.initial
  String.ofList ([r.a, r.b, r.c, r.d, r.e, r.f, r.g, r.h].flatMap hexWord)

/-- A digest is written with hexadecimal digits. -/
theorem mem_hexdigest {text : String} {c : Char} (h : c ∈ (hexdigest text).toList) :
    c ∈ ['0', '1', '2', '3', '4', '5', '6', '7', '8', '9', 'a', 'b', 'c', 'd', 'e', 'f'] := by
  have hdigit : ∀ n < 16, Nat.digitChar n ∈
      ['0', '1', '2', '3', '4', '5', '6', '7', '8', '9', 'a', 'b', 'c', 'd', 'e', 'f'] := by decide
  unfold hexdigest at h
  simp only [String.toList_ofList, List.mem_flatMap, hexWord, List.mem_map] at h
  obtain ⟨n, -, s, -, rfl⟩ := h
  exact hdigit _ (Nat.mod_lt _ (by decide))

/-! ### Evaluation

`hexdigest` in a form that the kernel evaluates quickly: the operations are those of `ℕ` itself, the last sixteen words and
the working variables are arguments, and the digest is made of bytes. `byteDigest_eq` and `hexdigest_ofList` say that it is
the same function. -/

/-- A word rotated right by `n` bits, where `n + m` is 32. -/
def turned (x n m : ℕ) : ℕ := Nat.lor (Nat.shiftRight x n) (Nat.mod (Nat.shiftLeft x m) 4294967296)

/-- The next word of the schedule, from the last sixteen. -/
def nextWord (x₀ x₁ x₉ x₁₄ : ℕ) : ℕ :=
  Nat.mod (Nat.add (Nat.add (Nat.add (Nat.xor (Nat.xor (turned x₁₄ 17 15) (turned x₁₄ 19 13)) (Nat.shiftRight x₁₄ 10)) x₉)
    (Nat.xor (Nat.xor (turned x₁ 7 25) (turned x₁ 18 14)) (Nat.shiftRight x₁ 3))) x₀) 4294967296

/-- What a round adds to both of its new variables. -/
def firstSum (k w e f g h : ℕ) : ℕ :=
  Nat.add (Nat.add (Nat.add (Nat.add h (Nat.xor (Nat.xor (turned e 6 26) (turned e 11 21)) (turned e 25 7)))
    (Nat.xor (Nat.land e f) (Nat.land (Nat.sub 4294967295 e) g))) k) w

/-- What a round adds to the first variable only. -/
def secondSum (a b c : ℕ) : ℕ :=
  Nat.add (Nat.xor (Nat.xor (turned a 2 30) (turned a 13 19)) (turned a 22 10))
    (Nat.xor (Nat.xor (Nat.land a b) (Nat.land a c)) (Nat.land b c))

/-- The rounds with these constants, from the next sixteen words of the schedule and the working variables. -/
def rounds : List ℕ → (x₀ x₁ x₂ x₃ x₄ x₅ x₆ x₇ x₈ x₉ x₁₀ x₁₁ x₁₂ x₁₃ x₁₄ x₁₅ a b c d e f g h : ℕ) → Registers
  | [], _, _, _, _, _, _, _, _, _, _, _, _, _, _, _, _, a, b, c, d, e, f, g, h => ⟨a, b, c, d, e, f, g, h⟩
  | k :: ks, x₀, x₁, x₂, x₃, x₄, x₅, x₆, x₇, x₈, x₉, x₁₀, x₁₁, x₁₂, x₁₃, x₁₄, x₁₅, a, b, c, d, e, f, g, h =>
    rounds ks x₁ x₂ x₃ x₄ x₅ x₆ x₇ x₈ x₉ x₁₀ x₁₁ x₁₂ x₁₃ x₁₄ x₁₅ (nextWord x₀ x₁ x₉ x₁₄)
      (Nat.mod (Nat.add (firstSum k x₀ e f g h) (secondSum a b c)) 4294967296) a b c
      (Nat.mod (Nat.add d (firstSum k x₀ e f g h)) 4294967296) e f g

/-- `n` more words of the schedule after these sixteen, the earliest word first. -/
def stream : ℕ → (x₀ x₁ x₂ x₃ x₄ x₅ x₆ x₇ x₈ x₉ x₁₀ x₁₁ x₁₂ x₁₃ x₁₄ x₁₅ : ℕ) → List ℕ
  | 0, x₀, x₁, x₂, x₃, x₄, x₅, x₆, x₇, x₈, x₉, x₁₀, x₁₁, x₁₂, x₁₃, x₁₄, x₁₅ =>
    [x₀, x₁, x₂, x₃, x₄, x₅, x₆, x₇, x₈, x₉, x₁₀, x₁₁, x₁₂, x₁₃, x₁₄, x₁₅]
  | n + 1, x₀, x₁, x₂, x₃, x₄, x₅, x₆, x₇, x₈, x₉, x₁₀, x₁₁, x₁₂, x₁₃, x₁₄, x₁₅ =>
    x₀ :: stream n x₁ x₂ x₃ x₄ x₅ x₆ x₇ x₈ x₉ x₁₀ x₁₁ x₁₂ x₁₃ x₁₄ x₁₅ (nextWord x₀ x₁ x₉ x₁₄)
termination_by structural n => n

section Rounds

variable (x₀ x₁ x₂ x₃ x₄ x₅ x₆ x₇ x₈ x₉ x₁₀ x₁₁ x₁₂ x₁₃ x₁₄ x₁₅ : ℕ)

theorem length_stream (n : ℕ) : (stream n x₀ x₁ x₂ x₃ x₄ x₅ x₆ x₇ x₈ x₉ x₁₀ x₁₁ x₁₂ x₁₃ x₁₄ x₁₅).length = n + 16 := by
  induction n generalizing x₀ x₁ x₂ x₃ x₄ x₅ x₆ x₇ x₈ x₉ x₁₀ x₁₁ x₁₂ x₁₃ x₁₄ x₁₅ with
  | zero => rw [stream]; rfl
  | succ n ih => rw [stream, List.length_cons, ih, Nat.add_right_comm]

/-- The schedule is the stream backwards. -/
theorem reverse_schedule (n : ℕ) (before : List ℕ) :
    (schedule n ([x₁₅, x₁₄, x₁₃, x₁₂, x₁₁, x₁₀, x₉, x₈, x₇, x₆, x₅, x₄, x₃, x₂, x₁, x₀] ++ before)).reverse =
      before.reverse ++ stream n x₀ x₁ x₂ x₃ x₄ x₅ x₆ x₇ x₈ x₉ x₁₀ x₁₁ x₁₂ x₁₃ x₁₄ x₁₅ := by
  induction n generalizing x₀ x₁ x₂ x₃ x₄ x₅ x₆ x₇ x₈ x₉ x₁₀ x₁₁ x₁₂ x₁₃ x₁₄ x₁₅ before with
  | zero => simp [schedule, stream]
  | succ n ih =>
    have hnext := ih x₁ x₂ x₃ x₄ x₅ x₆ x₇ x₈ x₉ x₁₀ x₁₁ x₁₂ x₁₃ x₁₄ x₁₅ (nextWord x₀ x₁ x₉ x₁₄) (x₀ :: before)
    rw [List.reverse_cons, List.append_assoc] at hnext
    rw [stream]
    exact hnext

/-- A longer stream begins with a shorter one. -/
theorem stream_succ (n : ℕ) :
    ∃ word, stream (n + 1) x₀ x₁ x₂ x₃ x₄ x₅ x₆ x₇ x₈ x₉ x₁₀ x₁₁ x₁₂ x₁₃ x₁₄ x₁₅ =
      stream n x₀ x₁ x₂ x₃ x₄ x₅ x₆ x₇ x₈ x₉ x₁₀ x₁₁ x₁₂ x₁₃ x₁₄ x₁₅ ++ [word] := by
  induction n generalizing x₀ x₁ x₂ x₃ x₄ x₅ x₆ x₇ x₈ x₉ x₁₀ x₁₁ x₁₂ x₁₃ x₁₄ x₁₅ with
  | zero =>
    exact ⟨nextWord x₀ x₁ x₉ x₁₄, rfl⟩
  | succ n ih =>
    obtain ⟨word, hword⟩ := ih x₁ x₂ x₃ x₄ x₅ x₆ x₇ x₈ x₉ x₁₀ x₁₁ x₁₂ x₁₃ x₁₄ x₁₅ (nextWord x₀ x₁ x₉ x₁₄)
    exact ⟨word, congrArg (x₀ :: ·) hword⟩

theorem stream_add (n m : ℕ) :
    ∃ words, stream (n + m) x₀ x₁ x₂ x₃ x₄ x₅ x₆ x₇ x₈ x₉ x₁₀ x₁₁ x₁₂ x₁₃ x₁₄ x₁₅ =
      stream n x₀ x₁ x₂ x₃ x₄ x₅ x₆ x₇ x₈ x₉ x₁₀ x₁₁ x₁₂ x₁₃ x₁₄ x₁₅ ++ words := by
  induction m with
  | zero => exact ⟨[], (List.append_nil _).symm⟩
  | succ m ih =>
    obtain ⟨words, hwords⟩ := ih
    obtain ⟨word, hword⟩ := stream_succ x₀ x₁ x₂ x₃ x₄ x₅ x₆ x₇ x₈ x₉ x₁₀ x₁₁ x₁₂ x₁₃ x₁₄ x₁₅ (n + m)
    exact ⟨words ++ [word], by rw [← Nat.add_assoc, hword, hwords, List.append_assoc]⟩

/-- The rounds of a stream. -/
theorem rounds_eq (ks : List ℕ) (s : Registers) :
    rounds ks x₀ x₁ x₂ x₃ x₄ x₅ x₆ x₇ x₈ x₉ x₁₀ x₁₁ x₁₂ x₁₃ x₁₄ x₁₅ s.a s.b s.c s.d s.e s.f s.g s.h =
      (ks.zip (stream ks.length x₀ x₁ x₂ x₃ x₄ x₅ x₆ x₇ x₈ x₉ x₁₀ x₁₁ x₁₂ x₁₃ x₁₄ x₁₅)).foldl Registers.round s := by
  induction ks generalizing x₀ x₁ x₂ x₃ x₄ x₅ x₆ x₇ x₈ x₉ x₁₀ x₁₁ x₁₂ x₁₃ x₁₄ x₁₅ s with
  | nil => rw [rounds]; rfl
  | cons k ks ih =>
    rw [rounds, List.length_cons, stream]
    exact ih x₁ x₂ x₃ x₄ x₅ x₆ x₇ x₈ x₉ x₁₀ x₁₁ x₁₂ x₁₃ x₁₄ x₁₅ (nextWord x₀ x₁ x₉ x₁₄) (s.round (k, x₀))

/-- The rounds of a block. -/
theorem foldl_round_eq (s : Registers) :
    (constants.zip (schedule 48 [x₁₅, x₁₄, x₁₃, x₁₂, x₁₁, x₁₀, x₉, x₈, x₇, x₆, x₅, x₄, x₃, x₂, x₁, x₀]).reverse).foldl Registers.round s =
      rounds constants x₀ x₁ x₂ x₃ x₄ x₅ x₆ x₇ x₈ x₉ x₁₀ x₁₁ x₁₂ x₁₃ x₁₄ x₁₅ s.a s.b s.c s.d s.e s.f s.g s.h := by
  have hschedule := reverse_schedule x₀ x₁ x₂ x₃ x₄ x₅ x₆ x₇ x₈ x₉ x₁₀ x₁₁ x₁₂ x₁₃ x₁₄ x₁₅ 48 []
  obtain ⟨words, hwords⟩ := stream_add x₀ x₁ x₂ x₃ x₄ x₅ x₆ x₇ x₈ x₉ x₁₀ x₁₁ x₁₂ x₁₃ x₁₄ x₁₅ 48 16
  have hzip : constants.zip (stream 64 x₀ x₁ x₂ x₃ x₄ x₅ x₆ x₇ x₈ x₉ x₁₀ x₁₁ x₁₂ x₁₃ x₁₄ x₁₅) =
      constants.zip (stream 48 x₀ x₁ x₂ x₃ x₄ x₅ x₆ x₇ x₈ x₉ x₁₀ x₁₁ x₁₂ x₁₃ x₁₄ x₁₅) := by
    have hlength : constants.length = (stream 48 x₀ x₁ x₂ x₃ x₄ x₅ x₆ x₇ x₈ x₉ x₁₀ x₁₁ x₁₂ x₁₃ x₁₄ x₁₅).length := by
      rw [length_stream]
      rfl
    have happend : (constants ++ []).zip (stream 48 x₀ x₁ x₂ x₃ x₄ x₅ x₆ x₇ x₈ x₉ x₁₀ x₁₁ x₁₂ x₁₃ x₁₄ x₁₅ ++ words) =
        constants.zip (stream 48 x₀ x₁ x₂ x₃ x₄ x₅ x₆ x₇ x₈ x₉ x₁₀ x₁₁ x₁₂ x₁₃ x₁₄ x₁₅) ++ [].zip words :=
      List.zip_append hlength
    rw [List.append_nil, ← hwords, List.zip_nil_left, List.append_nil] at happend
    exact happend
  rw [List.append_nil, List.reverse_nil, List.nil_append] at hschedule
  rw [hschedule, ← hzip]
  exact (rounds_eq x₀ x₁ x₂ x₃ x₄ x₅ x₆ x₇ x₈ x₉ x₁₀ x₁₁ x₁₂ x₁₃ x₁₄ x₁₅ constants s).symm

end Rounds

/-- `compress`, with the words of the block and the working variables as arguments. -/
def compressWords (s : Registers) : List ℕ → Registers
  | [x₀, x₁, x₂, x₃, x₄, x₅, x₆, x₇, x₈, x₉, x₁₀, x₁₁, x₁₂, x₁₃, x₁₄, x₁₅] =>
    s.add (rounds constants x₀ x₁ x₂ x₃ x₄ x₅ x₆ x₇ x₈ x₉ x₁₀ x₁₁ x₁₂ x₁₃ x₁₄ x₁₅ s.a s.b s.c s.d s.e s.f s.g s.h)
  | block => compress s block

theorem compressWords_eq : compressWords = compress := by
  funext s block
  unfold compressWords
  split
  · rw [compress, ← foldl_round_eq]
    rfl
  · rfl

/-- A word in hexadecimal, in bytes. -/
def hexBytes (n : ℕ) : List UInt8 :=
  [28, 24, 20, 16, 12, 8, 4, 0].map fun s =>
    let digit := (n >>> s) % 16
    UInt8.ofNat (if digit < 10 then 48 + digit else 87 + digit)

theorem utf8Encode_digitChar : ∀ digit < 16,
    String.utf8EncodeChar (Nat.digitChar digit) = [UInt8.ofNat (if digit < 10 then 48 + digit else 87 + digit)] := by
  decide

theorem flatMap_hexWord (n : ℕ) : (hexWord n).flatMap String.utf8EncodeChar = hexBytes n := by
  rw [hexWord, hexBytes, List.flatMap_map, List.flatMap_congr fun s _ => utf8Encode_digitChar _ (Nat.mod_lt (n >>> s) (by decide))]
  rfl

/-- The bytes of a digest. -/
def digestBytes (text : String) : List UInt8 :=
  let padded := pad (text.toByteArray.data.toList.map (·.toNat))
  let r := (blocks (padded.length / 64) (words padded)).foldl compressWords Registers.initial
  [r.a, r.b, r.c, r.d, r.e, r.f, r.g, r.h].flatMap hexBytes

theorem toByteArray_hexdigest (text : String) : (hexdigest text).toByteArray = ⟨⟨digestBytes text⟩⟩ := by
  apply ByteArray.ext
  apply Array.toList_inj.mp
  rw [hexdigest, digestBytes, compressWords_eq]
  simp only [String.toByteArray_ofList, List.utf8Encode, List.toList_data_toByteArray, List.flatMap_assoc, flatMap_hexWord]

/-- `hexdigest`, made of bytes. -/
def byteDigest (text : String) : String :=
  .ofByteArray ⟨⟨digestBytes text⟩⟩ (toByteArray_hexdigest text ▸ (hexdigest text).isValidUTF8)

theorem byteDigest_eq : byteDigest = hexdigest := by
  funext text
  exact String.toByteArray_inj.mp (toByteArray_hexdigest text).symm

/-- The bytes of a character. -/
def charBytes (c : Char) : List ℕ :=
  match Nat.ble c.val.toNat 127 with
  | true => [c.val.toNat]
  | false => (String.utf8EncodeChar c).map (·.toNat)

theorem charBytes_eq (c : Char) : charBytes c = (String.utf8EncodeChar c).map (·.toNat) := by
  unfold charBytes
  split
  · rename_i h
    have hle : c.val.toNat ≤ 127 := Nat.le_of_ble_eq_true h
    have hbyte : (UInt8.ofNat c.val.toNat).toNat = c.val.toNat := by
      rw [UInt8.toNat_ofNat']
      exact Nat.mod_eq_of_lt (by omega)
    have hone : String.utf8EncodeChar c = [UInt8.ofNat c.val.toNat] := if_pos hle
    rw [hone, List.map_singleton, hbyte]
  · rfl

/-- The digest of a list of characters. -/
def digestChars (cs : List Char) : List Char :=
  let padded := pad (cs.flatMap charBytes)
  let r := (blocks (padded.length / 64) (words padded)).foldl compressWords Registers.initial
  [r.a, r.b, r.c, r.d, r.e, r.f, r.g, r.h].flatMap hexWord

theorem hexdigest_ofList (cs : List Char) : hexdigest (String.ofList cs) = String.ofList (digestChars cs) := by
  have hbytes : (cs.flatMap String.utf8EncodeChar).map (·.toNat) = cs.flatMap charBytes := by
    rw [List.map_flatMap]
    exact List.flatMap_congr fun c _ => (charBytes_eq c).symm
  rw [hexdigest, digestChars, compressWords_eq, String.toByteArray_ofList, List.utf8Encode, List.toList_data_toByteArray, hbytes]

/-- The digests of a table, by the characters. -/
theorem hexdigest_of_spelling {table : List (String × String)} (s : Text.Spelling table)
    (h : ∀ e ∈ s.chars, digestChars e.1 = e.2) : ∀ e ∈ table, hexdigest e.1 = e.2 := by
  obtain ⟨cs, rfl⟩ := s
  rw [List.forall_mem_map]
  intro e he
  rw [hexdigest_ofList, h e he]

example : hexdigest "abc" = "ba7816bf8f01cfea414140de5dae2223b00361a396177a9cb410ff61f20015ad" := by
  rw [← byteDigest_eq]
  decide +kernel

end NanoDelta.Library.Sha256
