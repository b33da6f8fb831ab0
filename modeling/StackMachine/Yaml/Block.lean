/-
Block scalars: the lines below a `|` or a `>`.

The header may say how the line ends at the end are treated and how far the lines
are indented; otherwise the first line that is not blank shows the indentation.
After `|` line ends are kept. After `>` a line end between two lines that both
start with a word counts as a space, or not at all if empty lines follow.
-/
import StackMachine.Yaml.Fault
import StackMachine.Yaml.Cursor

set_option autoImplicit false

namespace StackMachine.Yaml

/-! ## Headers -/

/-- What becomes of the line ends at the end of a block scalar. -/
inductive Ending where
  /-- All are dropped. -/
  | strip
  /-- The first is kept. -/
  | clip
  /-- All are kept. -/
  | keep
  deriving DecidableEq, Repr

/-- What the header of a block scalar says. -/
structure BlockHeader where
  ending : Ending := .clip
  /-- The indentation relative to that of the surrounding block. -/
  indentation : Option Nat := none

/-- Reads the sign of a header. -/
def ending? (cursor : Cursor) : Option (Ending × Cursor) :=
  if cursor.isAt '+' then some (.keep, cursor.advance 1)
  else if cursor.isAt '-' then some (.strip, cursor.advance 1)
  else none

/-- Reads the digit of a header, which is not zero. -/
def indentation (start : Place) (cursor : Cursor) : Except Fault (Option Nat × Cursor) :=
  match cursor.rest with
  | c :: _ =>
    if c == '0' then .error (.text .zeroIndentation cursor.place (some (.blockScalar, start)))
    else if c.isDigit then .ok (some (c.toNat - '0'.toNat), cursor.advance 1)
    else .ok (none, cursor)
  | [] => .ok (none, cursor)

/-- Reads a header with its line. A sign and a digit may stand in either order. -/
def blockHeader (start : Place) (cursor : Cursor) : Except Fault (BlockHeader × Cursor) := do
  let (header, cursor) ← match ending? cursor with
    | some (ending, cursor) => do
      let (digit, cursor) ← indentation start cursor
      pure (({ ending := ending, indentation := digit } : BlockHeader), cursor)
    | none => do
      let (digit, cursor) ← indentation start cursor
      match digit, ending? cursor with
      | some _, some (ending, cursor) =>
        pure (({ ending := ending, indentation := digit } : BlockHeader), cursor)
      | _, _ => pure (({ indentation := digit } : BlockHeader), cursor)
  let cursor := cursor.skipComment
  if atLineEnd cursor.rest then return (header, cursor.skipBreak)
  else throw (.text .commentOrBreakMissing cursor.place (some (.blockScalar, start)))

/-! ## Lines -/

/-- A block scalar that is being read. -/
structure BlockText where
  /-- The text so far, the last character first. -/
  text : List Char := []
  /-- The end of the last line, if it has one. -/
  lineEnd : List Char := []
  /-- The empty lines since, the last one first. -/
  emptyLines : List Char := []
  /-- Whether the last line starts with a blank. -/
  afterBlank : Bool := false

namespace BlockText

/-- Starts a line with a character that is not a line end. -/
def startLine (folded : Bool) (block : BlockText) (c : Char) : BlockText :=
  let joined :=
    if folded && block.lineEnd == ['\n'] && !block.afterBlank && !isBlank c then
      if block.emptyLines.isEmpty then [' '] else []
    else block.lineEnd
  { text := c :: (block.emptyLines ++ joined ++ block.text), afterBlank := isBlank c }

/-- The text when the scalar is over. -/
def finish (ending : Ending) (block : BlockText) : List Char :=
  match ending with
  | .strip => block.text.reverse
  | .clip => (block.lineEnd ++ block.text).reverse
  | .keep => (block.emptyLines ++ block.lineEnd ++ block.text).reverse

end BlockText

/-- The indentation of the lines of a block scalar. -/
inductive Indentation where
  /-- Not known yet: the widest blank line so far, and the least that is allowed. -/
  | undecided (widest least : Nat)
  | known (column : Nat)

namespace Indentation

/-- Whether spaces up to a column still belong to the indentation. -/
def reaches (indent : Indentation) (column : Nat) : Bool :=
  match indent with
  | undecided _ _ => true
  | known limit => column < limit

/-- The indentation after a blank line. -/
def seeBlank (indent : Indentation) (column : Nat) : Indentation :=
  match indent with
  | undecided widest least => undecided (max widest column) least
  | known limit => known limit

/-- The indentation as the first line that is not blank decides it. -/
def settle (indent : Indentation) (column : Nat) : Nat :=
  match indent with
  | undecided widest least => max (max widest column) (max least 1)
  | known limit => limit

end Indentation

/-- Reads on in a block scalar that began at `start`, inside a line or before its
indentation. The scalar is over at a character that stands at another column
than the indentation. -/
def blockFrom (folded : Bool) (ending : Ending) (start : Place) (block : BlockText)
    (indent : Indentation) (inLine : Bool) (place : Place) :
    List Char → Except Fault (List Char × Cursor)
  | [] => .ok (block.finish ending, ⟨[], place⟩)
  | '\r' :: '\n' :: rest =>
    if inLine then
      blockFrom folded ending start { block with lineEnd := ['\n'] } indent false
        (place.nextLine 2) rest
    else
      blockFrom folded ending start { block with emptyLines := '\n' :: block.emptyLines }
        (indent.seeBlank place.column) false (place.nextLine 2) rest
  | c :: rest =>
    if inLine then
      if isBreak c then
        blockFrom folded ending start { block with lineEnd := [plainBreak c] } indent false
          (place.nextLine 1) rest
      else
        blockFrom folded ending start { block with text := c :: block.text } indent true
          place.next rest
    else if c == ' ' && indent.reaches place.column then
      blockFrom folded ending start block indent false place.next rest
    else if c == '\t' && indent.reaches place.column then
      .error (.text .tabInIndentation place (some (.blockScalar, start)))
    else if isBreak c then
      blockFrom folded ending start
        { block with emptyLines := plainBreak c :: block.emptyLines }
        (indent.seeBlank place.column) false (place.nextLine 1) rest
    else
      let column := indent.settle place.column
      if place.column == column then
        blockFrom folded ending start (block.startLine folded c) (.known column) true
          place.next rest
      else .ok (block.finish ending, ⟨c :: rest, place⟩)

/-- Reads a block scalar. Its lines are indented more than the surrounding block,
which is at a column if it is not the whole document. -/
def blockScalar (block : Option Nat) (cursor : Cursor) : Except Fault (List Char × Cursor) := do
  let folded := cursor.isAt '>'
  let (header, lines) ← blockHeader cursor.place (cursor.advance 1)
  let indent := match header.indentation with
    | some n => .known (block.getD 0 + n)
    | none => .undecided 0 (block.elim 0 (· + 1))
  blockFrom folded header.ending cursor.place {} indent false lines.place lines.rest

end StackMachine.Yaml
