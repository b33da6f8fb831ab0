/-
The unit of everything the machine handles: encoded programs and the value
stack both hold 16-bit words, and their arithmetic wraps.

The two capacities live here because every layer above needs them. A program
is at most `2^16` words long so that every address inside it is itself a word;
only the address just past a full program is not, and that one case is why
`Word.ofNat?` exists.

These are `Word`, `PROGRAM_SIZE` and `STACK_SIZE` of the package `arch`.
-/
set_option autoImplicit false

namespace StackMachine

/-- A cell of the encoded program or of the value stack. -/
abbrev Word := UInt16

/-- An encoded program: operation tags, each followed by its operand words. -/
abbrev Program := Array Word

/-- Longest encodable program, in words. -/
def programCapacity : Nat := 65536

/-- Number of cells of the value stack. -/
def stackCapacity : Nat := 256

/-- Line numbers and step limits stay below `2^64`. -/
def numberLimit : Nat := 18446744073709551616

/-- Signed offsets lie in `[-2^63, 2^63)`, and instruction numbers below `2^63`. -/
def offsetLimit : Nat := 9223372036854775808

namespace Word

/-- The word with value `n`, if `n` fits in one. -/
def ofNat? (n : Nat) : Option Word :=
  if n < 65536 then some (UInt16.ofNat n) else none

/-- The number that a word is made from is its value. -/
theorem ofNat?_eq_some_iff {n : Nat} {w : Word} : ofNat? n = some w ↔ w.toNat = n := by
  rw [ofNat?]
  constructor
  · intro h
    split at h
    · rename_i hlt
      rw [← Option.some.inj h]
      exact UInt16.toNat_ofNat_of_lt' hlt
    · simp at h
  · intro h
    rw [← h, if_pos w.toNat_lt, UInt16.ofNat_toNat]

theorem ofNat?_eq_none_iff {n : Nat} : ofNat? n = none ↔ programCapacity ≤ n := by
  rw [ofNat?, programCapacity]
  split
  · simp; omega
  · simp; omega

/-- The two's complement reading of a word, in `[-32768, 32768)`. -/
def signed (w : Word) : Int :=
  if w.toNat < 32768 then w.toNat else (w.toNat : Int) - 65536

end Word

end StackMachine
