/-
What stands between two words of a scalar that may go on over several lines.

Blanks within a line count as they are. A line end counts as a space, unless
empty lines follow it: then those are kept as line ends and the first is not.
Blanks around line ends do not count. Two of the line ends, the ones that
separate lines and paragraphs, are always kept.
-/
import StackMachine.Yaml.Cursor

set_option autoImplicit false

namespace StackMachine.Yaml

/-- What stands between two words. -/
inductive Gap where
  /-- Blanks only, the last one first; possibly none. -/
  | blanks (reversed : List Char)
  /-- Line ends: the first, unless a backslash took it away, and the others, the
  last one first. -/
  | breaks (first : Option Char) (reversed : List Char)
  deriving DecidableEq, Repr

namespace Gap

/-- Nothing in between. -/
def empty : Gap :=
  blanks []

/-- Whether nothing is in between. -/
def isEmpty : Gap → Bool
  | blanks [] => true
  | _ => false

/-- Whether a line has ended. -/
def isBroken : Gap → Bool
  | blanks _ => false
  | breaks _ _ => true

/-- The gap with a blank more. -/
def addBlank (gap : Gap) (c : Char) : Gap :=
  match gap with
  | blanks reversed => blanks (c :: reversed)
  | breaks first reversed => breaks first reversed

/-- The gap with a line end more. -/
def addBreak (gap : Gap) (c : Char) : Gap :=
  match gap with
  | blanks _ => breaks (some (plainBreak c)) []
  | breaks first reversed => breaks first (plainBreak c :: reversed)

/-- What the gap counts as, the last character first. -/
def reversedText : Gap → List Char
  | blanks reversed => reversed
  | breaks (some '\n') [] => [' ']
  | breaks (some '\n') reversed => reversed
  | breaks first reversed => reversed ++ first.toList

end Gap

end StackMachine.Yaml
