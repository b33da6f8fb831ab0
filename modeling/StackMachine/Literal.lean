/-
Numeric literals.

A literal is an integer (one optional sign, then digits in base ten, or in base
sixteen, two or eight after `0x`, `0b` or `0o`), or a character between
apostrophes. Any number of digits is accepted: the value is accumulated in 64
bits with wrap-around, and an operand keeps the low 16 bits of that. The two
reductions agree with reducing the mathematical value once, because `2^16`
divides `2^64`; a count, on the other hand, sees the 64-bit value.

`value?` is `parse_number` of the package `lasm`; `integer?` is its `parse_int` and
`character?` its `parse_char`.
-/
import StackMachine.Word

set_option autoImplicit false

namespace StackMachine.Literal

/-! ## Digits -/

/-- The value of a digit in either case, letters counting from ten. -/
def digitValue (c : Char) : Option Nat :=
  if c.isDigit then some (c.toNat - '0'.toNat)
  else if 'a' ≤ c ∧ c ≤ 'f' then some (c.toNat - 'a'.toNat + 10)
  else if 'A' ≤ c ∧ c ≤ 'F' then some (c.toNat - 'A'.toNat + 10)
  else none

/-- The value of a digit in a base up to sixteen. -/
def digit? (base : Nat) (c : Char) : Option Nat :=
  (digitValue c).filter (· < base)

/-- The 64-bit value of a non-empty row of digits, modulo `2^64`. -/
def wrapping? (base : Nat) (digits : List Char) : Option Int64 :=
  if digits.isEmpty then none
  else digits.foldlM (fun acc c => (digit? base c).map fun d =>
    acc * Int64.ofNat base + Int64.ofNat d) 0

/-- The exact value of a non-empty row of digits. -/
def natural? (base : Nat) (digits : List Char) : Option Nat :=
  if digits.isEmpty then none
  else digits.foldlM (fun acc c => (digit? base c).map fun d => acc * base + d) 0

/-! ## Integers -/

/-- Takes a sign off the front; `true` means minus. -/
def splitSign : List Char → Bool × List Char
  | '-' :: rest => (true, rest)
  | '+' :: rest => (false, rest)
  | rest => (false, rest)

/-- Takes a base mark off the front. -/
def splitBase : List Char → Nat × List Char
  | '0' :: 'x' :: rest => (16, rest)
  | '0' :: 'X' :: rest => (16, rest)
  | '0' :: 'b' :: rest => (2, rest)
  | '0' :: 'B' :: rest => (2, rest)
  | '0' :: 'o' :: rest => (8, rest)
  | '0' :: 'O' :: rest => (8, rest)
  | rest => (10, rest)

/-- The value of an integer literal, modulo `2^64`. -/
def integer? (cs : List Char) : Option Int64 :=
  let (negative, body) := splitSign cs
  let (base, digits) := splitBase body
  (wrapping? base digits).map fun v => if negative then -v else v

/-! ## Characters -/

/-- The character that an escape letter stands for. -/
def escape? : Char → Option Char
  | 'n' => some '\n'
  | 't' => some '\t'
  | 'r' => some '\r'
  | '0' => some '\x00'
  | '\\' => some '\\'
  | '\'' => some '\''
  | _ => none

/-- The character of a character literal. An apostrophe needs no escape, a
backslash does. -/
def character? : List Char → Option Char
  | [first, c, last] => if first = '\'' ∧ c ≠ '\\' ∧ last = '\'' then some c else none
  | [first, mark, letter, last] =>
    if first = '\'' ∧ mark = '\\' ∧ last = '\'' then escape? letter else none
  | _ => none

/-! ## Literals -/

/-- The 64-bit value of a literal in any of its forms. -/
def value? (s : String) : Option Int64 :=
  (integer? s.toList).or ((character? s.toList).map fun c => Int64.ofNat c.toNat)

/-- The operand word of a literal value: its low 16 bits. -/
def toWord (v : Int64) : Word :=
  v.toUInt64.toUInt16

end StackMachine.Literal
