/-
What a scalar of an options file means.

A scalar without quotes is null, a boolean, a number or, failing all these, a
string. Booleans and null have three spellings each, by case. An integer may
have a sign and a base mark, but decimal digits with a leading zero are a string.
An integer that does not fit in 128 bits is a number of double precision if it
is decimal; a number too great for that is a string. A scalar between quotes or
in a block is always a string. A tag decides the type instead.
-/
import StackMachine.Double
import StackMachine.Literal
import StackMachine.Text.Quoted
import StackMachine.Yaml.Event

set_option autoImplicit false

namespace StackMachine.Config

/-- The meaning of a scalar. -/
inductive Scalar where
  | null
  | boolean (value : Bool)
  /-- A minus sign is kept apart, since a negative zero counts as negative. -/
  | integer (negative : Bool) (magnitude : Nat)
  | fraction (value : Double)
  | string (text : String)
  deriving DecidableEq, Repr

/-- Integers of 128 bits without sign are below this. -/
def wideLimit : Nat := 340282366920938463463374607431768211456

/-! ## Null and booleans -/

/-- Whether a text is a spelling of null. -/
def isNull (text : String) : Bool :=
  ["null", "Null", "NULL", "~"].contains text

/-- The boolean that a text spells. -/
def boolean? (text : String) : Option Bool :=
  if ["true", "True", "TRUE"].contains text then some true
  else if ["false", "False", "FALSE"].contains text then some false
  else none

/-! ## Integers -/

/-- Whether decimal digits start with a zero that is not alone. -/
def hasLeadingZero : List Char → Bool
  | '0' :: rest => !rest.isEmpty && rest.all Char.isDigit
  | _ => false

/-- Takes one plus sign off the front. -/
def dropPlus : List Char → List Char
  | '+' :: rest => rest
  | cs => cs

/-- Takes one sign off the front. -/
def dropSign : List Char → List Char
  | '-' :: rest => rest
  | '+' :: rest => rest
  | cs => cs

/-- An integer without sign, in any of the bases. -/
def magnitude? : List Char → Option Nat
  | '0' :: 'x' :: digits => Literal.natural? 16 digits
  | '0' :: 'o' :: digits => Literal.natural? 8 digits
  | '0' :: 'b' :: digits => Literal.natural? 2 digits
  | digits => if hasLeadingZero digits then none else Literal.natural? 10 digits

/-- An integer without minus sign. -/
def unsigned? (cs : List Char) : Option Nat :=
  magnitude? (dropPlus cs)

/-- An integer with an optional sign, if it fits in 128 bits. -/
def integer? : List Char → Option (Bool × Nat)
  | '-' :: rest =>
    ((magnitude? rest).filter (2 * · ≤ wideLimit)).map fun n => (true, n)
  | cs => ((unsigned? cs).filter (· < wideLimit)).map fun n => (false, n)

/-! ## Fractions -/

/-- The exponent of a decimal, which may be left out. -/
def exponent? : List Char → Option Int
  | [] => some 0
  | mark :: rest =>
    if mark == 'e' || mark == 'E' then
      match rest with
      | '-' :: digits => (Literal.natural? 10 digits).map fun n => -(n : Int)
      | digits => (Literal.natural? 10 (dropPlus digits)).map fun n => (n : Int)
    else none

/-- The digits and the exponent of a decimal without sign. At least one digit
stands before or behind the point. -/
def decimal? (cs : List Char) : Option (Nat × Int) :=
  let (whole, rest) := cs.span Char.isDigit
  let (part, rest) := match rest with
    | '.' :: rest => rest.span Char.isDigit
    | rest => ([], rest)
  match Literal.natural? 10 (whole ++ part), exponent? rest with
  | some digits, some exponent => some (digits, exponent - part.length)
  | _, _ => none

/-- A decimal with an optional minus sign, unless it is too great. -/
def finite? : List Char → Option Double
  | '-' :: rest => (decimal? rest).bind fun (digits, exponent) =>
    Double.ofDecimal? true digits exponent
  | cs => (decimal? cs).bind fun (digits, exponent) => Double.ofDecimal? false digits exponent

/-- A number that need not be an integer. -/
def fraction? (text : String) : Option Double :=
  let cs := text.toList
  if [".inf", ".Inf", ".INF", "+.inf", "+.Inf", "+.INF"].contains text then
    some (.infinite false)
  else if ["-.inf", "-.Inf", "-.INF"].contains text then some (.infinite true)
  else if [".nan", ".NaN", ".NAN"].contains text then some .notANumber
  else match cs with
    | '+' :: '-' :: _ => none
    | cs => finite? (dropPlus cs)

namespace Scalar

/-- The meaning of an integer with an optional sign. -/
def ofInteger? (text : String) : Option Scalar :=
  (integer? text.toList).map fun (negative, n) => integer negative n

/-- The meaning of a plain scalar without a tag. -/
def ofPlain (text : String) : Scalar :=
  if text == "" || isNull text then null
  else match boolean? text with
    | some value => boolean value
    | none =>
      match ofInteger? text with
      | some scalar => scalar
      | none =>
        if hasLeadingZero (dropSign text.toList) then string text
        else match fraction? text with
          | some value => fraction value
          | none => string text

/-! ## Tags -/

/-- The tag of a type of the format itself. -/
def coreTag (name : String) : String :=
  "tag:yaml.org,2002:" ++ name

/-- The meaning of a scalar with its tag, or what the tag says that the text is not.
A tag of the file's own does not change what a plain scalar means. -/
def ofNode (text : String) (style : Yaml.Style) (tag : Option String) :
    Except String Scalar :=
  let untagged := if style == .plain then ofPlain text else string text
  match tag with
  | none => .ok untagged
  | some tag =>
    if tag == coreTag "bool" then
      ((boolean? text).map boolean).elim (.error "a boolean") .ok
    else if tag == coreTag "int" then (ofInteger? text).elim (.error "an integer") .ok
    else if tag == coreTag "float" then
      ((fraction? text).map fraction).elim (.error "a float") .ok
    else if tag == coreTag "null" then
      if isNull text then .ok null else .error "null"
    else if tag.toList.head? == some '!' then .ok untagged
    else .ok (string text)

/-- The wording for a scalar found where something else was expected. -/
def describe : Scalar → String
  | null => "unit value"
  | boolean value => "boolean `" ++ (if value then "true" else "false") ++ "`"
  | integer negative n =>
    let number := "integer `" ++ (if negative && n != 0 then "-" else "") ++ toString n ++ "`"
    if negative && n > offsetLimit then number ++ " as i128"
    else if !negative && n ≥ numberLimit then number ++ " as u128"
    else number
  | fraction value => "floating point `" ++ value.text ++ "`"
  | string text => "string " ++ Text.quoted text

end Scalar

end StackMachine.Config
