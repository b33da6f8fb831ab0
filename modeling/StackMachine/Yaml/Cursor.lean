/-
Reading along a text: what is left of it, and the place reached.
-/
import StackMachine.Yaml.Place

set_option autoImplicit false

namespace StackMachine.Yaml

/-! ## Kinds of characters -/

/-- The characters that separate words on a line. -/
def isBlank (c : Char) : Bool :=
  c == ' ' || c == '\t'

/-- The characters that end a line. -/
def isBreak (c : Char) : Bool :=
  c == '\n' || c == '\r' || c == '\u0085' || c == '\u2028' || c == '\u2029'

/-- What a line end counts as in a scalar. -/
def plainBreak (c : Char) : Char :=
  if c == '\u2028' || c == '\u2029' then c else '\n'

/-- The characters of names. -/
def isNameCharacter (c : Char) : Bool :=
  c.isAlphanum || c == '_' || c == '-'

/-- The characters that open, close and separate collections in brackets. -/
def isFlowMark (c : Char) : Bool :=
  [',', '[', ']', '\x7b', '\x7d'].contains c

/-- Whether a line is over here. -/
def atLineEnd : List Char → Bool
  | [] => true
  | c :: _ => isBreak c

/-- Whether a word is over here. -/
def atWordEnd : List Char → Bool
  | [] => true
  | c :: _ => isBlank c || isBreak c

/-- Whether three equal characters stand here as a word. -/
def atTripleOf (c : Char) : List Char → Bool
  | a :: b :: d :: rest => a == c && b == c && d == c && atWordEnd rest
  | _ => false

/-- Whether a mark that starts or ends a document stands here. It does so only at
the start of a line. -/
def atDocumentMark (place : Place) (cs : List Char) : Bool :=
  place.column == 0 && (atTripleOf '-' cs || atTripleOf '.' cs)

/-! ## Cursors -/

/-- A text that is being read. -/
structure Cursor where
  rest : List Char
  place : Place := {}
  deriving DecidableEq, Repr

namespace Cursor

/-- Passes some characters of the line. -/
def advance (cursor : Cursor) (n : Nat) : Cursor :=
  ⟨cursor.rest.drop n, cursor.place.advance n⟩

/-- Takes the characters of the line that have some property. -/
def takeWhile (cursor : Cursor) (p : Char → Bool) : List Char × Cursor :=
  let word := cursor.rest.takeWhile p
  (word, cursor.advance word.length)

/-- Passes the characters of the line that have some property. -/
def skipWhile (cursor : Cursor) (p : Char → Bool) : Cursor :=
  (cursor.takeWhile p).2

/-- Passes a line end if one stands here. -/
def skipBreak (cursor : Cursor) : Cursor :=
  match cursor.rest with
  | '\r' :: '\n' :: rest => ⟨rest, cursor.place.nextLine 2⟩
  | c :: rest => if isBreak c then ⟨rest, cursor.place.nextLine 1⟩ else cursor
  | [] => cursor

/-- Passes blanks and a comment. -/
def skipComment (cursor : Cursor) : Cursor :=
  let cursor := cursor.skipWhile isBlank
  if cursor.rest.head? == some '#' then cursor.skipWhile (fun c => !isBreak c) else cursor

/-- Whether a character stands here. -/
def isAt (cursor : Cursor) (c : Char) : Bool :=
  cursor.rest.head? == some c

end Cursor

/-- Passes blanks, comments and line ends up to a token. In a block a new line may
start a key, and the flag says whether a key may start here; where one may, a
tab is no blank. The mark of the byte order is passed at the start of a line,
where it takes up a column. -/
def toTokenFrom (inFlow keyAllowed inComment : Bool) (place : Place) :
    List Char → Cursor × Bool
  | '\r' :: '\n' :: rest =>
    toTokenFrom inFlow (keyAllowed || !inFlow) false (place.nextLine 2) rest
  | c :: rest =>
    if isBreak c then
      toTokenFrom inFlow (keyAllowed || !inFlow) false (place.nextLine 1) rest
    else if inComment || c == ' ' || (c == '\t' && (inFlow || !keyAllowed))
        || (c == '\uFEFF' && place.column == 0) then
      toTokenFrom inFlow keyAllowed inComment place.next rest
    else if c == '#' then toTokenFrom inFlow keyAllowed true place.next rest
    else (⟨c :: rest, place⟩, keyAllowed)
  | [] => (⟨[], place⟩, keyAllowed)

end StackMachine.Yaml
