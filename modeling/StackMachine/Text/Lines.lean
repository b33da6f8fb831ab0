/-
A text as a list of lines.

A line ends at a newline, and a carriage return right before that newline
belongs to the line end. What follows the last newline is a line only if it is
not empty, and since no newline ends it, it keeps a carriage return of its own.
-/
set_option autoImplicit false

namespace StackMachine.Text

/-- Puts a character in front of a text that is already cut after each of its
newlines. A newline is a piece of its own here; what stands before it on its
line is added later. -/
def attach (c : Char) : List (List Char) → List (List Char)
  | [] => [[c]]
  | piece :: pieces => if c = '\n' then [c] :: piece :: pieces else (c :: piece) :: pieces

/-- The text cut after each newline: no piece is empty, and the pieces joined
are the text. -/
def pieces (cs : List Char) : List (List Char) :=
  cs.foldr attach []

/-- Cutting loses nothing. -/
theorem flatten_attach (c : Char) (cut : List (List Char)) :
    (attach c cut).flatten = c :: cut.flatten := by
  cases cut with
  | nil => rfl
  | cons piece others =>
    rw [attach]
    split
    · rw [List.flatten_cons, List.singleton_append]
    · rw [List.flatten_cons, List.flatten_cons, List.cons_append]

/-- The pieces joined are the text. -/
theorem flatten_pieces (cs : List Char) : (pieces cs).flatten = cs := by
  induction cs with
  | nil => rfl
  | cons c cs ih =>
    have hstep : pieces (c :: cs) = attach c (pieces cs) := rfl
    rw [hstep, flatten_attach, ih]

/-- A piece without its line end. -/
def dropLineEnd (piece : List Char) : List Char :=
  match piece.reverse with
  | '\n' :: '\r' :: rest => rest.reverse
  | '\n' :: rest => rest.reverse
  | _ => piece

/-- The lines of a text, without their line ends. -/
def lines (s : String) : List String :=
  (pieces s.toList).map fun piece => String.ofList (dropLineEnd piece)

end StackMachine.Text
