/-
Texts between double quotes, as error messages show them. Quotes, backslashes,
the usual control characters and whatever else would not be seen are written
with a backslash, so that the text stays on one line and its end is clear.
-/
import StackMachine.Text.Hidden

set_option autoImplicit false

namespace StackMachine.Text

/-- A character by its number, in lower-case hexadecimal between braces. -/
def numbered (c : Char) : List Char :=
  ['\\', 'u', '\x7b'] ++ Nat.toDigits 16 c.toNat ++ ['\x7d']

/-- A character of a quoted text. -/
def quoteChar : Char → List Char
  | '"' => ['\\', '"']
  | '\\' => ['\\', '\\']
  | '\n' => ['\\', 'n']
  | '\r' => ['\\', 'r']
  | '\t' => ['\\', 't']
  | '\x00' => ['\\', '0']
  | c => if isHidden c then numbered c else [c]

/-- The text between double quotes. -/
def quoted (s : String) : String :=
  String.ofList (['"'] ++ s.toList.flatMap quoteChar ++ ['"'])

end StackMachine.Text
