/-
The characters that separate lexemes.

The set is the Unicode property `White_Space`, which is larger than the four
characters of `Char.isWhitespace`: vertical tab, form feed, next line, the
no-break spaces and the general punctuation spaces all count.
-/
set_option autoImplicit false

namespace StackMachine.Text

/-- Whether a character has the Unicode property `White_Space`. -/
def isBlank (c : Char) : Bool :=
  let n := c.toNat
  (9 ≤ n && n ≤ 13) || n == 0x20 || n == 0x85 || n == 0xA0 || n == 0x1680
    || (0x2000 ≤ n && n ≤ 0x200A) || n == 0x2028 || n == 0x2029 || n == 0x202F
    || n == 0x205F || n == 0x3000

/-- The text without the blanks at its two ends. -/
def trim (s : String) : String :=
  String.ofList ((s.toList.dropWhile isBlank).reverse.dropWhile isBlank).reverse

end StackMachine.Text
