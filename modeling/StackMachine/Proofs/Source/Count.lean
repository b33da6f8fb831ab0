/-
Which counts a pseudo-operation takes.

A count is meant to be an integer of at most the capacity of the stack, and so many operations to
come out of it (`countLine`). The reader compares the 64-bit value of the literal with the
capacity, and a literal may be of any length: what it reads is the line for the integer modulo
`2^64` (`parse_count`). The two lines are the same for every integer that 64 bits hold, and for
most others, since the value that is left over is seldom so small. Where it is, a count far out of
range is taken for a small one.
-/
import StackMachine.Proofs.Source.Grammar
import StackMachine.Proofs.Source.Quoting

set_option autoImplicit false

namespace StackMachine.Source

open Literal (WritesInteger)

/-- The line for the count `v`, spelled `x`: as many operations as the count says, up or down by
its sign, or no line, where the stack has fewer cells. -/
def countLine (number : Nat) (x : String) (v : Int) : Except Error Line :=
  if v.natAbs ≤ stackCapacity then
    .ok ⟨number, "spr " ++ x,
      some (.code (List.replicate v.natAbs ⟨if v < 0 then .spd else .spi, none⟩))⟩
  else .error ⟨number, .invalidCount x⟩

/-- The integer that 64 bits keep of an integer. -/
def wrapped (v : Int) : Int :=
  v.bmod (2 ^ 64)

theorem wrapped_of_small {v : Int} (h : v.natAbs ≤ stackCapacity) : wrapped v = v := by
  have hcapacity : stackCapacity = 256 := rfl
  exact Int.bmod_eq_of_le (by omega) (by omega)

/-- A count out of range is wrapped into the range only by a whole turn. -/
theorem lt_wrapped_of_lt {v : Int} (hlarge : stackCapacity < v.natAbs)
    (hturn : v.natAbs < 2 ^ 64 - stackCapacity) : stackCapacity < (wrapped v).natAbs := by
  have hcapacity : stackCapacity = 256 := rfl
  rw [wrapped, Int.bmod_def]
  split
  · omega
  · omega

section Parse

variable {number : Nat} {x : String} {v : Int}

/-- A line with a count is read as the line for the wrapped integer. -/
theorem parse_count (h : WritesInteger x.toList v) :
    Line.parse number ("spr " ++ x) = countLine number x (wrapped v) := by
  have hline : "spr " ++ x = "spr" ++ " " ++ x := by
    rw [show "spr" ++ " " = "spr " by decide]
  have hlexemes : lexemes ("spr " ++ x) = ["spr", x] := by
    rw [hline]
    exact lexemes_pair (by decide) (.integer h)
  have hpseudo : Pseudo.ofKeyword? "spr" = some .spr := by decide
  have hvalue : Literal.value? x = some (Int64.ofInt v) :=
    Literal.value?_eq_some_iff.mpr ⟨v, .integer h, rfl⟩
  have hwrapped : (Int64.ofInt v).toInt = wrapped v := Int64.toInt_ofInt
  rw [countLine]
  split
  · rename_i hsmall
    refine Line.parse_eq_ok_iff.mpr ⟨_, ?_, rfl⟩
    rw [hlexemes, ofLexemes_count hpseudo hvalue (by rw [hwrapped]; exact hsmall), hwrapped]
  · rename_i hlarge
    refine Line.parse_eq_error_iff.mpr ⟨rfl, ?_⟩
    have hnumber := Token.ofLexeme_of_kind (Token.kind?_eq_number_iff.mpr hvalue)
    have hrefused : Code.ofPseudo .spr "spr" [⟨.number (Int64.ofInt v), x⟩]
        = .error (.invalidCount x) := by
      apply ofPseudo_of_no_count
      intro w hw
      obtain rfl := Token.Kind.number.inj hw
      rw [hwrapped]
      exact Nat.lt_of_not_le hlarge
    rw [hlexemes, ofLexemes_pseudo hpseudo, hnumber]
    show (Code.ofPseudo .spr "spr" [⟨.number (Int64.ofInt v), x⟩]).map _ = _
    rw [hrefused]
    rfl

end Parse

/-- **A count is exact unless it is out of range and falls back into it.** A line with a count is
read as the line for the integer modulo `2^64`, and this is the line for the integer itself except
where the integer is out of range and what is left of it is not. There is no such integer within
`2^64 - 256` of zero. -/
theorem count_exact_iff {number : Nat} {x : String} {v : Int} (h : WritesInteger x.toList v) :
    Line.parse number ("spr " ++ x) = countLine number x (wrapped v)
      ∧ (Line.parse number ("spr " ++ x) = countLine number x v
        ↔ ¬ (stackCapacity < v.natAbs ∧ (wrapped v).natAbs ≤ stackCapacity))
      ∧ (v.natAbs < 2 ^ 64 - stackCapacity →
        Line.parse number ("spr " ++ x) = countLine number x v) := by
  have hexact : Line.parse number ("spr " ++ x) = countLine number x v
      ↔ ¬ (stackCapacity < v.natAbs ∧ (wrapped v).natAbs ≤ stackCapacity) := by
    rw [parse_count h]
    by_cases hsmall : v.natAbs ≤ stackCapacity
    · rw [wrapped_of_small hsmall]
      simp [Nat.not_lt.mpr hsmall]
    · rw [countLine, countLine, if_neg hsmall]
      by_cases hback : (wrapped v).natAbs ≤ stackCapacity
      · simp [hback, Nat.lt_of_not_le hsmall]
      · simp [hback]
  refine ⟨parse_count h, hexact, ?_⟩
  intro hturn
  rw [hexact]
  rintro ⟨hlarge, hback⟩
  exact Nat.not_le.mpr (lt_wrapped_of_lt hlarge hturn) hback

/-- A count below zero lowers the stack pointer; one of `2^64 + 1` is taken for a one. -/
theorem count_exact_iff_turn :
    Line.parse 2 "spr -0b11"
        = .ok ⟨2, "spr -0b11", some (.code [⟨.spd, none⟩, ⟨.spd, none⟩, ⟨.spd, none⟩])⟩
      ∧ Line.parse 2 "spr 18446744073709551617"
        ≠ countLine 2 "18446744073709551617" (2 ^ 64 + 1) := by
  have hthree : WritesInteger "-0b11".toList (-3) :=
    Literal.exactInteger?_eq_some_iff.mp (by decide +kernel)
  have hturn : WritesInteger "18446744073709551617".toList (2 ^ 64 + 1) :=
    Literal.exactInteger?_eq_some_iff.mp (by decide +kernel)
  constructor
  · have hread : Line.parse 2 ("spr " ++ "-0b11") = countLine 2 "-0b11" (-3) :=
      (count_exact_iff hthree).2.2 (by decide)
    exact hread
  · intro hread
    exact (count_exact_iff hturn).2.1.mp hread (by decide)

/-- Not every count that is out of range is refused. -/
theorem exists_turned_count :
    ∃ (x : String) (v : Int), WritesInteger x.toList v ∧ ¬ v.natAbs ≤ stackCapacity
      ∧ ∀ number, Line.parse number ("spr " ++ x)
        = .ok ⟨number, "spr " ++ x, some (.code [⟨.spi, none⟩])⟩ := by
  have hturn : WritesInteger "18446744073709551617".toList (2 ^ 64 + 1) :=
    Literal.exactInteger?_eq_some_iff.mp (by decide +kernel)
  refine ⟨"18446744073709551617", 2 ^ 64 + 1, hturn, by decide, ?_⟩
  intro number
  have hone : wrapped (2 ^ 64 + 1) = 1 := by decide
  rw [parse_count hturn, hone]
  rfl

end StackMachine.Source
