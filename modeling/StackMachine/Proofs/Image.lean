/-
Images and programs correspond one to one.

A word and its two bytes determine each other, so all there is to show is that writing and
reading cut the bytes at the same places. Reading carries the words that are already read
along; both inductions are therefore about a program that continues what is already there.

The length check is what makes the correspondence exact: reading by itself would drop a last
single byte, and such bytes would be read as a program without being its image.
-/
import StackMachine.Image
import Mathlib.Data.Nat.Bitwise

set_option autoImplicit false

namespace StackMachine.Image

/-! ## One word -/

/-- The low byte counts ones, the high byte counts 256s. -/
theorem toNat_wordOfBytes (low high : UInt8) :
    (wordOfBytes low high).toNat = 256 * high.toNat + low.toNat := by
  have hlow : low.toNat < 2 ^ 8 := low.toNat_lt
  have hhigh : high.toNat < 256 := high.toNat_lt
  -- the two bytes have no bit in common, so that joining their bits adds them
  have hjoin : low.toNat ||| high.toNat <<< 8 = high.toNat <<< 8 + low.toNat := by
    rw [Nat.lor_comm, Nat.shiftLeft_add_eq_or_of_lt hlow]
  unfold wordOfBytes
  rw [UInt16.toNat_or, UInt16.toNat_shiftLeft, UInt8.toNat_toUInt16, UInt8.toNat_toUInt16]
  show low.toNat ||| high.toNat <<< 8 % 2 ^ 16 = _
  have hfits : high.toNat <<< 8 % 2 ^ 16 = high.toNat <<< 8 := by
    apply Nat.mod_eq_of_lt
    rw [Nat.shiftLeft_eq]
    omega
  rw [hfits, hjoin, Nat.shiftLeft_eq]
  omega

theorem toNat_high (w : Word) : (w >>> 8).toUInt8.toNat = w.toNat / 256 := by
  have hlt : w.toNat < 65536 := w.toNat_lt
  rw [UInt16.toNat_toUInt8, UInt16.toNat_shiftRight]
  show w.toNat >>> 8 % 2 ^ 8 = _
  rw [Nat.shiftRight_eq_div_pow]
  omega

theorem wordOfBytes_of_bytesOfWord (w : Word) :
    wordOfBytes w.toUInt8 (w >>> 8).toUInt8 = w := by
  apply UInt16.toNat_inj.mp
  rw [toNat_wordOfBytes, toNat_high, UInt16.toNat_toUInt8]
  omega

theorem bytesOfWord_wordOfBytes (low high : UInt8) :
    bytesOfWord (wordOfBytes low high) = [low, high] := by
  have hlow : low.toNat < 256 := low.toNat_lt
  have hvalue := toNat_wordOfBytes low high
  have hfirst : (wordOfBytes low high).toUInt8 = low := by
    apply UInt8.toNat_inj.mp
    rw [UInt16.toNat_toUInt8]
    omega
  have hsecond : (wordOfBytes low high >>> 8).toUInt8 = high := by
    apply UInt8.toNat_inj.mp
    rw [toNat_high]
    omega
  rw [bytesOfWord, hfirst, hsecond]

/-! ## All words -/

theorem length_encode (program : Program) : (encode program).length = 2 * program.size := by
  have hlength : ∀ words : List Word, (words.flatMap bytesOfWord).length = 2 * words.length := by
    intro words
    induction words with
    | nil => rfl
    | cons w words ih =>
      rw [List.flatMap_cons, List.length_append, ih, List.length_cons, bytesOfWord]
      show 2 + 2 * words.length = 2 * (words.length + 1)
      omega
  rw [encode, hlength, Array.length_toList]

/-- Reading goes on through the bytes of words and adds these words. -/
theorem pairUp_flatMap (words : Program) (more : List Word) :
    pairUp words (more.flatMap bytesOfWord) = words ++ more.toArray := by
  induction more generalizing words with
  | nil => simp [pairUp]
  | cons w more ih =>
    rw [List.flatMap_cons, bytesOfWord, List.cons_append, List.cons_append, List.nil_append, pairUp,
      wordOfBytes_of_bytesOfWord, ih]
    simp

/-- An even number of bytes is read to the last one. -/
theorem encode_pairUp (words : Program) (bytes : List UInt8) (heven : bytes.length % 2 = 0) :
    encode (pairUp words bytes) = encode words ++ bytes := by
  fun_induction pairUp words bytes with
  | case1 words low high rest ih =>
    have hrest : rest.length % 2 = 0 := by
      rw [List.length_cons, List.length_cons] at heven
      omega
    rw [ih hrest]
    simp [encode, bytesOfWord_wordOfBytes]
  | case2 bytes words hpair =>
    -- fewer than two bytes are left, and not one
    rcases bytes with _ | ⟨byte, _ | ⟨other, rest⟩⟩
    · simp
    · simp at heven
    · exact absurd rfl (hpair byte other rest)

theorem decode_encode (program : Program) : decode (encode program) = .ok program := by
  have heven : (encode program).length % 2 = 0 := by
    rw [length_encode]
    omega
  rw [decode, if_pos heven, encode, pairUp_flatMap]
  simp

theorem exists_decode {bytes : List UInt8} (heven : bytes.length % 2 = 0) :
    ∃ program, decode bytes = .ok program ∧ encode program = bytes := by
  refine ⟨pairUp #[] bytes, by rw [decode, if_pos heven], ?_⟩
  rw [encode_pairUp #[] bytes heven]
  rfl

theorem decode_of_odd {bytes : List UInt8} (hodd : bytes.length % 2 = 1) :
    decode bytes = .error (.truncated bytes.length) := by
  rw [decode, if_neg (by omega)]

/-- Word `i` stands in bytes `2 * i` and `2 * i + 1`. -/
theorem getElem?_encode {program : Program} {i : Nat} {w : Word} (hi : program[i]? = some w) :
    ∃ low high, (encode program)[2 * i]? = some low ∧ (encode program)[2 * i + 1]? = some high
      ∧ w.toNat = 256 * high.toNat + low.toNat := by
  have hget : ∀ (words : List Word) (i : Nat), words[i]? = some w →
      (words.flatMap bytesOfWord)[2 * i]? = some w.toUInt8
        ∧ (words.flatMap bytesOfWord)[2 * i + 1]? = some (w >>> 8).toUInt8 := by
    intro words
    induction words with
    | nil => simp
    | cons first words ih =>
      intro i hi
      rcases i with _ | i
      · obtain rfl : first = w := by simpa using hi
        exact ⟨rfl, rfl⟩
      · -- the first word has two bytes of its own
        exact ih i (by simpa using hi)
  obtain ⟨hlow, hhigh⟩ := hget program.toList i (by rw [Array.getElem?_toList, hi])
  refine ⟨w.toUInt8, (w >>> 8).toUInt8, hlow, hhigh, ?_⟩
  rw [toNat_high, UInt16.toNat_toUInt8]
  omega

/-- **The image codec.** Every program is read back from its image, which has two bytes for
each word, the low one first. Conversely every even number of bytes is the image of the
program that is read from it, and an odd number is refused with that number. So what can be
read is what can be written. -/
theorem decode_inverse :
    (∀ program : Program, decode (encode program) = .ok program
      ∧ (encode program).length = 2 * program.size
      ∧ ∀ (i : Nat) (w : Word), program[i]? = some w →
        ∃ low high, (encode program)[2 * i]? = some low
          ∧ (encode program)[2 * i + 1]? = some high
          ∧ w.toNat = 256 * high.toNat + low.toNat)
    ∧ (∀ bytes : List UInt8, bytes.length % 2 = 0 →
      ∃ program, decode bytes = .ok program ∧ encode program = bytes)
    ∧ (∀ bytes : List UInt8, bytes.length % 2 = 1 →
      decode bytes = .error (.truncated bytes.length))
    ∧ ∀ bytes : List UInt8,
      (∃ program, decode bytes = .ok program) ↔ ∃ program, encode program = bytes := by
  refine ⟨?_, ?_, ?_, ?_⟩
  · intro program
    exact ⟨decode_encode program, length_encode program, fun i w hi => getElem?_encode hi⟩
  · intro bytes heven
    exact exists_decode heven
  · intro bytes hodd
    exact decode_of_odd hodd
  · intro bytes
    constructor
    · rintro ⟨program, hprogram⟩
      -- an odd number of bytes would not have been read
      rcases Nat.mod_two_eq_zero_or_one bytes.length with heven | hodd
      · obtain ⟨program', -, himage⟩ := exists_decode heven
        exact ⟨program', himage⟩
      · rw [decode_of_odd hodd] at hprogram
        simp at hprogram
    · rintro ⟨program, rfl⟩
      exact ⟨program, decode_encode program⟩

/-- Two words, the bytes they are made of, and three bytes that are no image. -/
theorem decode_inverse_sample :
    encode #[0x1234, 0x00FF] = [0x34, 0x12, 0xFF, 0x00]
    ∧ decode [0x34, 0x12, 0xFF, 0x00] = .ok #[0x1234, 0x00FF]
    ∧ (∃ program, decode [0x34, 0x12, 0xFF, 0x00] = .ok program
      ∧ encode program = [0x34, 0x12, 0xFF, 0x00])
    ∧ decode [0x01, 0x02, 0x03] = .error (.truncated 3) := by
  obtain ⟨hprograms, heven, hodd, -⟩ := decode_inverse
  have himage : encode #[0x1234, 0x00FF] = [0x34, 0x12, 0xFF, 0x00] := by decide
  refine ⟨himage, ?_, heven _ rfl, hodd _ rfl⟩
  rw [← himage]
  exact (hprograms _).1

end StackMachine.Image
