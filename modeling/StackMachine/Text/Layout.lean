/-
Fixed-width columns and hexadecimal numbers, as the listing, the trace and the
machine report print them. Widths are counted in characters, and a text wider
than its column is printed whole.
-/
set_option autoImplicit false

namespace StackMachine.Text

/-- `n` copies of a character. -/
def fill (n : Nat) (c : Char) : String :=
  String.ofList (List.replicate n c)

/-- The text with blanks after it, to at least `width` characters. -/
def padRight (width : Nat) (s : String) : String :=
  s ++ fill (width - s.length) ' '

/-- The text with `c` before it, to at least `width` characters. -/
def padLeft (width : Nat) (c : Char) (s : String) : String :=
  fill (width - s.length) c ++ s

/-- Upper-case hexadecimal digits, at least four of them. -/
def hex4 (n : Nat) : String :=
  padLeft 4 '0' (String.ofList ((Nat.toDigits 16 n).map Char.toUpper))

/-- The items in brackets, separated by a comma and a blank. -/
def bracketed (items : List String) : String :=
  "[" ++ String.intercalate ", " items ++ "]"

end StackMachine.Text
