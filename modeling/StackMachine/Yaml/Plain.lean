/-
Plain scalars: those without quotes.

A plain scalar ends before a colon that ends a word, before a comment, before a
document mark and, in brackets, before a mark of the collection. Outside of
brackets it goes on over lines that are indented more than the block that it is
in.
-/
import StackMachine.Yaml.Fault
import StackMachine.Yaml.Gap

set_option autoImplicit false

namespace StackMachine.Yaml

/-- What surrounds a plain scalar. -/
structure Surroundings where
  inFlow : Bool
  /-- The least column of its further lines. -/
  indent : Nat

/-- A plain scalar that has been read. -/
structure PlainScalar where
  text : List Char
  /-- Where it ends. -/
  stop : Place
  /-- What comes next, behind the blanks and line ends that follow. -/
  after : Cursor
  /-- Whether a line has ended since. -/
  broken : Bool

/-- Whether a colon here is followed by a mark of the collection. In brackets this
is taken for a mistake. -/
def atColonMark : List Char → Bool
  | ':' :: c :: _ => isFlowMark c || c == '?'
  | _ => false

/-- Whether a plain scalar ends before these characters, which are not blank. -/
def endsPlain (inFlow : Bool) : List Char → Bool
  | [] => true
  | c :: rest => (c == ':' && atWordEnd rest) || (inFlow && isFlowMark c)

/-- Reads on in a plain scalar that began at `start`. The text so far, the last
character first, ends at `stop`, and `gap` has been passed since. -/
def plainFrom (around : Surroundings) (start : Place) (text : List Char) (stop : Place)
    (gap : Gap) (place : Place) : List Char → Except Fault PlainScalar
  | '\r' :: '\n' :: rest =>
    plainFrom around start text stop (gap.addBreak '\n') (place.nextLine 2) rest
  | c :: rest =>
    if isBreak c then
      plainFrom around start text stop (gap.addBreak c) (place.nextLine 1) rest
    else if isBlank c then
      if c == '\t' && gap.isBroken && place.column < around.indent then
        .error (.text .tabBeforePlain place (some (.plainScalar, start)))
      else plainFrom around start text stop (gap.addBlank c) place.next rest
    else if (!gap.isEmpty && (c == '#' || (!around.inFlow && place.column < around.indent)))
        || atDocumentMark place (c :: rest) then
      .ok ⟨text.reverse, stop, ⟨c :: rest, place⟩, gap.isBroken⟩
    else if around.inFlow && atColonMark (c :: rest) then
      .error (.text .colonInFlow place (some (.plainScalar, start)))
    else if endsPlain around.inFlow (c :: rest) then
      .ok ⟨text.reverse, stop, ⟨c :: rest, place⟩, gap.isBroken⟩
    else
      plainFrom around start (c :: (gap.reversedText ++ text)) place.next .empty place.next rest
  | [] => .ok ⟨text.reverse, stop, ⟨[], place⟩, gap.isBroken⟩

/-- Reads a plain scalar. -/
def plainScalar (around : Surroundings) (cursor : Cursor) : Except Fault PlainScalar :=
  plainFrom around cursor.place [] cursor.place .empty cursor.place cursor.rest

end StackMachine.Yaml
