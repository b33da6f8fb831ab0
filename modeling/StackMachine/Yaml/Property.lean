/-
What can be said of a node or of a document beside its content: anchors and
aliases, tags, and the directives before a document.

A tag is written with a handle that stands for the beginning of its text, or in
full between angle brackets. In the text of a tag an octet may be written as a
percent sign and two hexadecimal digits. A text ends before an octet of zero.
-/
import StackMachine.Literal
import StackMachine.Yaml.Characters
import StackMachine.Yaml.Cursor

set_option autoImplicit false

namespace StackMachine.Yaml

/-! ## Anchors -/

/-- Whether a name may end here. -/
def atNameEnd (cs : List Char) : Bool :=
  atWordEnd cs || cs.head?.any fun c => ['?', ':', ',', ']', '\x7d', '%', '@', '\x60'].contains c

/-- Reads the name of an anchor or an alias, behind its mark. -/
def nodeName (activity : Activity) (cursor : Cursor) : Except Fault (List Char × Cursor) :=
  let (name, after) := (cursor.advance 1).takeWhile isNameCharacter
  if !name.isEmpty && atNameEnd after.rest then .ok (name, after)
  else .error (.text .anchorName after.place (some (activity, cursor.place)))

/-! ## Tags -/

/-- A tag as it is written: the handle is empty if the rest is the whole tag. -/
structure Tag where
  handle : List Char
  rest : List Char
  deriving DecidableEq, Repr

/-- The characters of a tag's text. Between angle brackets there are a few more. -/
def isTagCharacter (bracketed : Bool) (c : Char) : Bool :=
  isNameCharacter c
    || [';', '/', '?', ':', '@', '&', '=', '+', '$', '.', '%', '!', '~', '*', '\'', '(',
        ')'].contains c
    || (bracketed && [',', '[', ']'].contains c)

/-- The octet that is written at the front as a percent sign and two digits. -/
def octet? : List Char → Option Nat
  | '%' :: a :: b :: _ => Literal.natural? 16 [a, b]
  | _ => none

/-- Reads on in the text of a tag. The text so far stands with the last character
first, the next `skipped` characters belong to the last octet, and `trailing`
more octets belong to its character. -/
def tagTextFrom (bracketed : Bool) (during : Activity × Place) (text : List Char)
    (skipped trailing : Nat) (place : Place) :
    List Char → Except Fault (List Char × Cursor)
  | [] =>
    if trailing == 0 then .ok (text.reverse, ⟨[], place⟩)
    else .error (.text .tagEscape place (some during))
  | c :: rest =>
    match skipped with
    | n + 1 => tagTextFrom bracketed during text n trailing place.next rest
    | 0 =>
      if trailing == 0 && !isTagCharacter bracketed c then
        .ok (text.reverse, ⟨c :: rest, place⟩)
      else if trailing == 0 && c != '%' then
        tagTextFrom bracketed during (c :: text) 0 0 place.next rest
      else
        match octet? (c :: rest) with
        | none => .error (.text .tagEscape place (some during))
        | some octet =>
          if trailing == 0 then
            match octetWidth? octet with
            | none => .error (.text .tagLeadingOctet place (some during))
            | some width =>
              tagTextFrom bracketed during (Char.ofNat octet :: text) 2 (width - 1) place.next
                rest
          else if octet / 64 == 2 then
            tagTextFrom bracketed during (Char.ofNat octet :: text) 2 (trailing - 1) place.next
              rest
          else .error (.text .tagTrailingOctet place (some during))

/-- Reads the text of a tag, behind what has already been read of it; all of it
may not be empty. -/
def tagText (bracketed : Bool) (during : Activity × Place) (before : List Char)
    (cursor : Cursor) : Except Fault (List Char × Cursor) := do
  let (text, after) ← tagTextFrom bracketed during [] 0 0 cursor.place cursor.rest
  if before.isEmpty && text.isEmpty then throw (.text .tagText after.place (some during))
  return ((before.drop 1 ++ text).takeWhile (· != '\x00'), after)

/-- Reads what may be the handle of a tag: an exclamation mark, a name, and perhaps
another exclamation mark. -/
def tagHandle (during : Activity × Place) (cursor : Cursor) :
    Except Fault (List Char × Cursor) :=
  if cursor.isAt '!' then
    let (name, after) := (cursor.advance 1).takeWhile isNameCharacter
    if after.isAt '!' then .ok ('!' :: name ++ ['!'], after.advance 1)
    else .ok ('!' :: name, after)
  else .error (.text .exclamationMissing cursor.place (some during))

/-- Whether this is a handle of two exclamation marks, with a name between them or
not. -/
def isLongHandle (handle : List Char) : Bool :=
  1 < handle.length && handle.getLast? == some '!'

/-- Reads a tag between angle brackets. -/
def bracketedTag (cursor : Cursor) : Except Fault (Tag × Cursor) := do
  let (text, after) ← tagText true (.tagText, cursor.place) [] (cursor.advance 2)
  if after.isAt '>' then return (⟨[], text⟩, after.advance 1)
  else throw (.text .tagClosing after.place (some (.tag, cursor.place)))

/-- Reads a tag with a handle. A lone exclamation mark is a tag of its own. -/
def shortTag (cursor : Cursor) : Except Fault (Tag × Cursor) := do
  let during := (Activity.tagText, cursor.place)
  let (handle, after) ← tagHandle (.tag, cursor.place) cursor
  if isLongHandle handle then
    let (text, after) ← tagText false during [] after
    return (⟨handle, text⟩, after)
  else
    let (text, after) ← tagText false during handle after
    if text.isEmpty then return (⟨[], ['!']⟩, after)
    else return (⟨['!'], text⟩, after)

/-- Reads a tag. A word has to end behind it; in brackets a comma may follow. -/
def tag (inFlow : Bool) (cursor : Cursor) : Except Fault (Tag × Cursor) := do
  let (tag, after) ←
    if cursor.rest.take 2 == ['!', '<'] then bracketedTag cursor else shortTag cursor
  if atWordEnd after.rest || (inFlow && after.isAt ',') then return (tag, after)
  else throw (.text .blankOrBreakMissing after.place (some (.tag, cursor.place)))

/-! ## Directives -/

/-- What stands before a document. -/
inductive Directive where
  /-- The version of the format. -/
  | version (major minor : Nat)
  /-- A handle and what it stands for. -/
  | shorthand (handle text : List Char)
  deriving DecidableEq, Repr

/-- Reads a part of a version: up to nine digits. -/
def versionNumber (start : Place) (cursor : Cursor) : Except Fault (Nat × Cursor) :=
  let during := some (Activity.versionDirective, start)
  let (digits, after) := cursor.takeWhile Char.isDigit
  if 9 < digits.length then
    .error (.text .longVersion (cursor.advance 9).place during)
  else match Literal.natural? 10 digits with
    | some n => .ok (n, after)
    | none => .error (.text .versionNumber after.place during)

/-- Reads the rest of a version directive. -/
def versionDirective (start : Place) (cursor : Cursor) : Except Fault (Directive × Cursor) := do
  let (major, cursor) ← versionNumber start (cursor.skipWhile isBlank)
  if !cursor.isAt '.' then
    throw (.text .versionPoint cursor.place (some (.versionDirective, start)))
  let (minor, cursor) ← versionNumber start (cursor.advance 1)
  return (.version major minor, cursor)

/-- Reads the rest of a tag directive. -/
def shorthandDirective (start : Place) (cursor : Cursor) :
    Except Fault (Directive × Cursor) := do
  let (handle, cursor) ← tagHandle (.tagDirectiveHandle, start) (cursor.skipWhile isBlank)
  if handle != ['!'] && !isLongHandle handle then
    throw (.text .exclamationMissing cursor.place (some (.tagDirectiveHandleEnd, start)))
  if !cursor.rest.head?.any isBlank then
    throw (.text .blankMissing cursor.place (some (.tagDirective, start)))
  let (text, cursor) ← tagText true (.tagDirectiveText, start) [] (cursor.skipWhile isBlank)
  if !atWordEnd cursor.rest then
    throw (.text .blankOrBreakMissing cursor.place (some (.tagDirective, start)))
  return (.shorthand handle text, cursor)

/-- Reads a directive with its line; the second place is where the directive itself
ends. -/
def directive (cursor : Cursor) : Except Fault (Directive × Place × Cursor) := do
  let start := cursor.place
  let (name, cursor) := (cursor.advance 1).takeWhile isNameCharacter
  let fail (problem : Problem) (place : Place) : Fault :=
    .text problem place (some (.directive, start))
  if name.isEmpty then throw (fail .directiveName cursor.place)
  if !atWordEnd cursor.rest then throw (fail .directiveNameCharacter cursor.place)
  let (directive, cursor) ←
    if name == ['Y', 'A', 'M', 'L'] then versionDirective start cursor
    else if name == ['T', 'A', 'G'] then shorthandDirective start cursor
    else throw (fail .unknownDirective cursor.place)
  let stop := cursor.place
  let cursor := cursor.skipComment
  if !atLineEnd cursor.rest then throw (fail .commentOrBreakMissing cursor.place)
  return (directive, stop, cursor.skipBreak)

end StackMachine.Yaml
