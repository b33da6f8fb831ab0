/-
Scalars between quotes.

Both kinds may go on over several lines, whatever their indentation, but a
document mark may not stand in them. Between apostrophes, a doubled apostrophe
stands for one and nothing else is special. Between double quotes a backslash
starts an escape; at the end of a line it takes the line end away.
-/
import StackMachine.Literal
import StackMachine.Yaml.Fault
import StackMachine.Yaml.Gap

set_option autoImplicit false

namespace StackMachine.Yaml

/-! ## Escapes -/

/-- The character that a letter after a backslash stands for. -/
def escaped? : Char → Option Char
  | '0' => some '\x00'
  | 'a' => some '\x07'
  | 'b' => some '\x08'
  | 't' => some '\t'
  | '\t' => some '\t'
  | 'n' => some '\n'
  | 'v' => some '\x0b'
  | 'f' => some '\x0c'
  | 'r' => some '\r'
  | 'e' => some '\x1b'
  | ' ' => some ' '
  | '"' => some '"'
  | '/' => some '/'
  | '\\' => some '\\'
  | 'N' => some '\u0085'
  | '_' => some '\u00a0'
  | 'L' => some '\u2028'
  | 'P' => some '\u2029'
  | _ => none

/-- The number of hexadecimal digits that follow a letter after a backslash. -/
def escapeWidth? : Char → Option Nat
  | 'x' => some 2
  | 'u' => some 4
  | 'U' => some 8
  | _ => none

/-- The character with a number in hexadecimal digits. -/
def numbered (width : Nat) (cs : List Char) : Except Problem Char :=
  let digits := cs.take width
  if digits.length < width then .error .hexadecimalDigit
  else match Literal.natural? 16 digits with
    | none => .error .hexadecimalDigit
    | some n =>
      if (0xD800 ≤ n && n ≤ 0xDFFF) || 0x10FFFF < n then .error .escapedNumber
      else .ok (Char.ofNat n)

/-- The character that an escape stands for, and how many characters behind the
letter belong to it. The backslash is at `place`. -/
def escape (start place : Place) (letter : Char) (rest : List Char) :
    Except Fault (Char × Nat) :=
  match escaped? letter, escapeWidth? letter with
  | some c, _ => .ok (c, 0)
  | none, some width =>
    match numbered width rest with
    | .ok c => .ok (c, width)
    | .error problem =>
      .error (.text problem (place.advance 2) (some (.quotedEscape, start)))
  | none, none => .error (.text .unknownEscape place (some (.quotedEscape, start)))

/-! ## Reading -/

/-- Reads on in a scalar between apostrophes that began at `start`. The text so
far, the last character first, is followed by `gap`. -/
def singleFrom (start : Place) (text : List Char) (gap : Gap) (place : Place) :
    List Char → Except Fault (List Char × Cursor)
  | [] => .error (.text .endOfFile place (some (.quotedScalar, start)))
  | '\r' :: '\n' :: rest => singleFrom start text (gap.addBreak '\n') (place.nextLine 2) rest
  | '\'' :: '\'' :: rest =>
    singleFrom start ('\'' :: (gap.reversedText ++ text)) .empty (place.advance 2) rest
  | c :: rest =>
    if isBlank c then singleFrom start text (gap.addBlank c) place.next rest
    else if isBreak c then singleFrom start text (gap.addBreak c) (place.nextLine 1) rest
    else if atDocumentMark place (c :: rest) then
      .error (.text .documentMark place (some (.quotedScalar, start)))
    else if c == '\'' then .ok ((gap.reversedText ++ text).reverse, ⟨rest, place.next⟩)
    else singleFrom start (c :: (gap.reversedText ++ text)) .empty place.next rest

/-- Reads on in a scalar between double quotes that began at `start`. The text so
far, the last character first, is followed by `gap`, and the next `skipped`
characters belong to its last character. Behind a line end that a backslash
takes away, blanks do not count. -/
def doubleFrom (start : Place) (text : List Char) (gap : Gap) (skipped : Nat) (place : Place) :
    List Char → Except Fault (List Char × Cursor)
  | [] => .error (.text .endOfFile place (some (.quotedScalar, start)))
  | '\r' :: '\n' :: rest => doubleFrom start text (gap.addBreak '\n') 0 (place.nextLine 2) rest
  | '\\' :: '\r' :: '\n' :: rest =>
    doubleFrom start (gap.reversedText ++ text) (.breaks none []) 0
      (place.next.nextLine 2) rest
  | '\\' :: letter :: rest =>
    if isBreak letter then
      doubleFrom start (gap.reversedText ++ text) (.breaks none []) 0
        (place.next.nextLine 1) rest
    else
      match escape start place letter rest with
      | .error e => .error e
      | .ok (c, width) =>
        doubleFrom start (c :: (gap.reversedText ++ text)) .empty width (place.advance 2) rest
  | c :: rest =>
    match skipped with
    | n + 1 => doubleFrom start text gap n place.next rest
    | 0 =>
      if isBlank c then doubleFrom start text (gap.addBlank c) 0 place.next rest
      else if isBreak c then doubleFrom start text (gap.addBreak c) 0 (place.nextLine 1) rest
      else if atDocumentMark place (c :: rest) then
        .error (.text .documentMark place (some (.quotedScalar, start)))
      else if c == '"' then .ok ((gap.reversedText ++ text).reverse, ⟨rest, place.next⟩)
      else if c == '\\' then
        .error (.text .unknownEscape place (some (.quotedEscape, start)))
      else doubleFrom start (c :: (gap.reversedText ++ text)) .empty 0 place.next rest

/-- Reads a scalar between quotes. -/
def quotedScalar (cursor : Cursor) : Except Fault (List Char × Cursor) :=
  let inside := cursor.advance 1
  if cursor.isAt '"' then doubleFrom cursor.place [] .empty 0 inside.place inside.rest
  else singleFrom cursor.place [] .empty inside.place inside.rest

end StackMachine.Yaml
