/-
Places in a file of text. A place counts the characters, the lines and the
characters of its line before it; people are told lines and columns counted from
one.
-/
set_option autoImplicit false

namespace StackMachine.Yaml

/-- A place in a file. -/
structure Place where
  /-- The number of characters before it. -/
  index : Nat := 0
  line : Nat := 0
  column : Nat := 0
  deriving DecidableEq, Repr

namespace Place

/-- The place some characters further on the same line. -/
def advance (place : Place) (n : Nat) : Place :=
  { place with index := place.index + n, column := place.column + n }

/-- The place after the next character of the line. -/
def next (place : Place) : Place :=
  place.advance 1

/-- The start of the next line, behind a line break of some characters. -/
def nextLine (place : Place) (width : Nat) : Place :=
  { index := place.index + width, line := place.line + 1, column := 0 }

/-- Whether this is the first line's start. -/
def isStart (place : Place) : Bool :=
  place.line == 0 && place.column == 0

/-- Whether two places are told alike. -/
def looksLike (a b : Place) : Bool :=
  a.line == b.line && a.column == b.column

/-- The place as a message names it. The start of a file goes without saying. -/
def inWords (place : Place) : String :=
  if place.isStart then ""
  else " at line " ++ toString (place.line + 1) ++ " column " ++ toString (place.column + 1)

end Place

end StackMachine.Yaml
