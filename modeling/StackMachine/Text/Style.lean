/-
Terminal styles.

A style is switched on by one control sequence and off by another; several
styles on one text are switched on and then off in the same order. The colours
share the sequence that restores the default colour.
-/
set_option autoImplicit false

namespace StackMachine.Text

/-- What a piece of terminal text can look like. -/
inductive Style where
  | red
  | green
  | yellow
  | blue
  | magenta
  | bold
  | dim
  | underline
  deriving DecidableEq, Repr

namespace Style

/-- A control sequence that selects one graphic rendition. -/
def control (code : String) : String :=
  "\x1b[" ++ code ++ "m"

/-- Switches the style on. -/
def start : Style → String
  | red => control "31"
  | green => control "32"
  | yellow => control "33"
  | blue => control "34"
  | magenta => control "35"
  | bold => control "1"
  | dim => control "2"
  | underline => control "4"

/-- Switches the style off. -/
def stop : Style → String
  | red | green | yellow | blue | magenta => control "39"
  | bold | dim => control "22"
  | underline => control "24"

end Style

/-- The text in the given styles. -/
def paint (styles : List Style) (s : String) : String :=
  String.join (styles.map Style.start) ++ s ++ String.join (styles.map Style.stop)

end StackMachine.Text
