/-
What can be wrong with source text.

A problem is a cause without a place; a source error is a problem at a line.
The wording of every problem stands in one function, and the diagnostic shows
the error together with the source line it is about.

`Problem` is `ErrorKind` of the package `lasm` and `Error` its `Error`, which `print_diag`
prints as `diagnostic` says.
-/
import StackMachine.Text.Lines
import StackMachine.Text.Layout
import StackMachine.Text.Style

set_option autoImplicit false

namespace StackMachine.Source

/-- What an operand was expected to be. -/
inductive OperandForm where
  | immediate
  | address
  deriving DecidableEq, Repr

/-- The word for an operand form in messages. -/
def OperandForm.name : OperandForm → String
  | immediate => "immediate"
  | address => "address"

/-- What is wrong with a line. Texts are quoted from the source. -/
inductive Problem where
  /-- A lexeme of no known class. -/
  | unknownToken (text : String)
  /-- A line that does not start with an operation. -/
  | unknownOperation (text : String)
  /-- An operation without the operand it needs. -/
  | missingArgument (text : String)
  /-- A lexeme too many. -/
  | unexpectedArgument (text : String)
  /-- An operand that is neither a literal nor a reference. -/
  | badOperand (text : String) (form : OperandForm)
  /-- A repetition count that is no number or is out of range. -/
  | invalidCount (text : String)
  /-- A label that is not a name. -/
  | invalidLabel (name : String)
  /-- A label that an earlier line defines. -/
  | redefinedLabel (name : String)
  /-- A reference to a label that no line defines. -/
  | undefinedLabel (name : String)
  /-- A reference to a line without instructions. -/
  | unknownLineNumber (number : Nat)
  /-- An offset that leaves the program, or an address that is no word. -/
  | addressOutOfBounds (offset : Int)
  deriving DecidableEq, Repr

/-- A number with its sign, also when it is not negative. -/
def withSign (n : Int) : String :=
  if n < 0 then toString n else "+" ++ toString n

/-- The wording of a problem. -/
def Problem.message : Problem → String
  | unknownToken text => "Unknown token: `" ++ text ++ "`"
  | unknownOperation text => "Unknown operation: `" ++ text ++ "`"
  | missingArgument text => "More argument required for `" ++ text ++ "`"
  | unexpectedArgument text => "Unexpected argument: `" ++ text ++ "`"
  | badOperand text form => "Cannot parse `" ++ text ++ "` as " ++ form.name
  | invalidCount text => "Invalid count: `" ++ text ++ "`"
  | invalidLabel name => "Invalid label name: `" ++ name ++ "`"
  | redefinedLabel name => "Re-defined label: `" ++ name ++ "`"
  | undefinedLabel name => "Undefined label: `" ++ name ++ "`"
  | unknownLineNumber number => "Unknown line number: " ++ toString number
  | addressOutOfBounds offset => "Address out of bounds: " ++ withSign offset

/-- A problem and the line it is on; the first line has number 1. -/
structure Error where
  line : Nat
  problem : Problem
  deriving DecidableEq, Repr

/-- Places a problem at a line. -/
def Problem.at (problem : Problem) (line : Nat) : Error :=
  ⟨line, problem⟩

namespace Error

/-- The error in one line. -/
def message (e : Error) : String :=
  "line " ++ toString e.line ++ ": " ++ e.problem.message

/-- The error with its place and the source line it is about, for the terminal.
A line that the source does not have is shown empty. -/
def diagnostic (e : Error) (file source : String) : String :=
  let bar := "      " ++ Text.paint [.blue] "|" ++ "\n"
  let number := toString e.line
  let shown := ((Text.lines source)[e.line - 1]?).getD ""
  Text.paint [.red, .bold] "error" ++ ": " ++ e.problem.message ++ "\n"
    ++ "     " ++ Text.paint [.blue] "-->" ++ " "
    ++ Text.paint [.underline] (file ++ ":" ++ number) ++ "\n"
    ++ bar
    ++ " " ++ Text.paint [.blue] (Text.padLeft 4 ' ' number ++ " |") ++ " " ++ shown ++ "\n"
    ++ bar

end Error

end StackMachine.Source
