/-
A source line as lexemes.

Blanks separate lexemes and a semicolon starts a comment, except inside a
character literal: `push ' '` has two lexemes and `push ';'` no comment. The
reader keeps track of literals by one flag that an apostrophe turns over; while
it is set, a backslash protects the character after it.

The line is read twice. The first pass, over the whole line, finds the comment.
The second cuts what stands before it, and starts with a cleared flag at every
lexeme: it may, because a lexeme ends only where the flag is clear.

`lexemes` is the iterator `LineLexer` of the package `lasm`, without the classes of the lexemes, and
`splitOutside` is its `scan`.
-/
import StackMachine.Text.Blank

set_option autoImplicit false

namespace StackMachine.Source

/-- Where a reader stands with respect to character literals. -/
inductive Quote where
  /-- Outside. -/
  | outside
  /-- Between two apostrophes. -/
  | inside
  /-- Between two apostrophes and right after a backslash. -/
  | escaped
  deriving DecidableEq, Repr

/-- Where the reader stands after one more character. -/
def Quote.next : Quote → Char → Quote
  | outside, c => if c = '\'' then inside else outside
  | inside, c => if c = '\\' then escaped else if c = '\'' then outside else inside
  | escaped, _ => inside

/-- Splits a text before the first `stop` character that stands outside all
character literals. `taken` holds what is already read, last character first. -/
def splitFrom (stop : Char → Bool) (quote : Quote) (taken : List Char) :
    List Char → List Char × List Char
  | [] => (taken.reverse, [])
  | c :: cs =>
    if quote = .outside ∧ stop c then (taken.reverse, c :: cs)
    else splitFrom stop (quote.next c) (c :: taken) cs

/-- Splits a text before the first `stop` character outside all character
literals, reading from its start. -/
def splitOutside (stop : Char → Bool) (cs : List Char) : List Char × List Char :=
  splitFrom stop .outside [] cs

/-- What is left is never longer than what was there. -/
theorem length_splitFrom_le (stop : Char → Bool) (quote : Quote) (taken cs : List Char) :
    (splitFrom stop quote taken cs).2.length ≤ cs.length := by
  induction cs generalizing quote taken with
  | nil => simp [splitFrom]
  | cons c cs ih =>
    rw [splitFrom]
    split
    · exact Nat.le_refl _
    · exact Nat.le_succ_of_le (ih _ _)

/-- A text that does not start with a `stop` character loses at least that
character, so cutting lexemes off a line comes to an end. -/
theorem length_splitOutside_lt {stop : Char → Bool} {c : Char} (cs : List Char)
    (h : stop c = false) : (splitOutside stop (c :: cs)).2.length < (c :: cs).length := by
  have hstep : splitOutside stop (c :: cs) = splitFrom stop (Quote.next .outside c) [c] cs := by
    simp [splitOutside, splitFrom, h]
  rw [hstep]
  exact Nat.lt_succ_of_le (length_splitFrom_le _ _ _ _)

/-- The first character that is left after dropping is not dropped. -/
theorem head_dropWhile {p : Char → Bool} {cs : List Char} {c : Char} {rest : List Char}
    (h : cs.dropWhile p = c :: rest) : p c = false := by
  have hne : cs.dropWhile p ≠ [] := by rw [h]; simp
  have hhead := List.head_dropWhile_not p hne
  simpa [h] using hhead

/-- The line without its comment. -/
def uncomment (line : List Char) : List Char :=
  (splitOutside (· == ';') line).1

/-- Cuts a text into lexemes at the blanks outside character literals. -/
def cutLexemes (cs : List Char) : List (List Char) :=
  match h : cs.dropWhile Text.isBlank with
  | [] => []
  | c :: rest =>
    have hshorter : (splitOutside Text.isBlank (c :: rest)).2.length < cs.length := by
      have hlt := length_splitOutside_lt rest (head_dropWhile h)
      have hle : (c :: rest).length ≤ cs.length := by
        rw [← h]; exact (List.dropWhile_suffix _).length_le
      omega
    (splitOutside Text.isBlank (c :: rest)).1
      :: cutLexemes (splitOutside Text.isBlank (c :: rest)).2
termination_by cs.length

/-- The lexemes of a source line, in order. -/
def lexemes (line : String) : List String :=
  (cutLexemes (uncomment line.toList)).map String.ofList

end StackMachine.Source
