/-
How much a command logs. The log goes to standard error and has no influence on
what a command does.
-/
import StackMachine.Literal

set_option autoImplicit false

namespace StackMachine.Command

/-- Log levels, from the quietest. -/
inductive Level where
  | error
  | warn
  | info
  | debug
  | trace
  deriving DecidableEq, Repr

/-- A number that may start with a plus sign. -/
def number? (text : String) : Option Nat :=
  match text.toList with
  | '+' :: digits => Literal.natural? 10 digits
  | digits => Literal.natural? 10 digits

/-- Reads a level: its number from 1 on, or its name in any mix of cases. -/
def Level.ofText? (text : String) : Option Level :=
  match number? text with
  | some 1 => some error
  | some 2 => some warn
  | some 3 => some info
  | some 4 => some debug
  | some 5 => some trace
  | some _ => none
  | none =>
    match String.ofList (text.toList.map Char.toLower) with
    | "error" => some error
    | "warn" => some warn
    | "info" => some info
    | "debug" => some debug
    | "trace" => some trace
    | _ => none

end StackMachine.Command
