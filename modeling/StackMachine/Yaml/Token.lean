/-
The tokens of a file: words, marks, and the places where blocks begin and end.

Whether a word is a key shows only when its colon is met. So a place where a key
may start is kept in mind as a candidate, and the token of the key, with the
start of a mapping if the key is the first of one, is inserted there later. A
candidate lapses at the end of its line and after 1024 characters; one at the
column of the block around it has to turn out to be a key.
-/
import StackMachine.Yaml.Block
import StackMachine.Yaml.Plain
import StackMachine.Yaml.Property
import StackMachine.Yaml.Quoted

set_option autoImplicit false

namespace StackMachine.Yaml

/-- How a scalar is written. -/
inductive Style where
  | plain
  | quoted
  | literal
  | folded
  deriving DecidableEq, Repr

/-- A token of a file. -/
inductive Token where
  | fileEnd
  | directive (directive : Directive)
  | documentStart
  | documentEnd
  | blockSequence
  | blockMapping
  | blockEnd
  | flowSequence
  | flowSequenceEnd
  | flowMapping
  | flowMappingEnd
  /-- The dash of a sequence. -/
  | dash
  /-- The comma of a collection in brackets. -/
  | comma
  | key
  | value
  | reference (name : List Char)
  | anchor (name : List Char)
  | tag (tag : Tag)
  | scalar (text : List Char) (style : Style)
  deriving DecidableEq, Repr

/-- A token with the places where it starts and ends. -/
structure Lexeme where
  token : Token
  start : Place
  stop : Place
  deriving DecidableEq, Repr

/-- A place where a key may have started. -/
structure KeyCandidate where
  /-- The number of the token that would be the first of the key. -/
  number : Nat
  place : Place
  /-- Whether it has to be a key. -/
  required : Bool
  deriving DecidableEq, Repr

/-- A file that is being cut into tokens. -/
structure Scanner where
  cursor : Cursor
  /-- The number of characters of the whole file. -/
  size : Nat
  /-- The tokens that were found and not yet passed on. -/
  queue : List Lexeme := []
  /-- The number of tokens that were passed on. -/
  taken : Nat := 0
  /-- The candidate in the innermost collection. -/
  candidate : Option KeyCandidate := none
  /-- The candidates around each open bracket, the innermost first. -/
  outer : List (Option KeyCandidate) := []
  /-- The columns of the open blocks, the innermost first. -/
  blocks : List Nat := []
  /-- Whether a key may start here. -/
  keyAllowed : Bool := true

namespace Scanner

/-- The start of a file. -/
def ofCharacters (text : List Char) : Scanner :=
  { cursor := ⟨text, {}⟩, size := text.length }

/-- Whether a bracket is open. -/
def inFlow (scanner : Scanner) : Bool :=
  !scanner.outer.isEmpty

/-- The number of the next token to be found. -/
def nextNumber (scanner : Scanner) : Nat :=
  scanner.taken + scanner.queue.length

/-- Inserts a token before the one of a given number. -/
def insertAt (scanner : Scanner) (number : Nat) (token : Token) (place : Place) : Scanner :=
  { scanner with queue :=
      scanner.queue.insertIdx (number - scanner.taken) ⟨token, place, place⟩ }

/-- Moves the cursor. -/
def goTo (scanner : Scanner) (cursor : Cursor) : Scanner :=
  { scanner with cursor := cursor }

/-- Adds a token that reaches from `start` to `stop`. -/
def push (scanner : Scanner) (token : Token) (start stop : Place) : Scanner :=
  { scanner with queue := scanner.queue ++ [⟨token, start, stop⟩] }

/-- Adds a token of the next `n` characters. -/
def pushMark (scanner : Scanner) (token : Token) (n : Nat) : Scanner :=
  let after := scanner.cursor.advance n
  (scanner.push token scanner.cursor.place after.place).goTo after

/-! ## Blocks -/

/-- Opens a block at a column inside the current one, unless a bracket is open. Its
token goes before the one of a given number. -/
def openBlock (scanner : Scanner) (column number : Nat) (token : Token) (place : Place) :
    Scanner :=
  if !scanner.inFlow && scanner.blocks.head?.all (· < column) then
    { scanner.insertAt number token place with blocks := column :: scanner.blocks }
  else scanner

/-- Closes the blocks for which a test on their columns holds, from the innermost
on, unless a bracket is open. -/
def closeBlocks (scanner : Scanner) (p : Nat → Bool) : Scanner :=
  if scanner.inFlow then scanner
  else
    let place := scanner.cursor.place
    let closed := (scanner.blocks.takeWhile p).map fun _ => ⟨.blockEnd, place, place⟩
    { scanner with queue := scanner.queue ++ closed, blocks := scanner.blocks.dropWhile p }

/-! ## Keys -/

/-- Whether a candidate can no longer be a key. -/
def isStale (scanner : Scanner) (key : KeyCandidate) : Bool :=
  key.place.line < scanner.cursor.place.line
    || key.place.index + 1024 < scanner.cursor.place.index

/-- The fault of a key without its colon. -/
def colonMissing (scanner : Scanner) (key : KeyCandidate) : Fault :=
  .text .colonMissing scanner.cursor.place (some (.simpleKey, key.place))

/-- Drops a candidate that can no longer be a key. -/
def refresh (scanner : Scanner) : Option KeyCandidate → Except Fault (Option KeyCandidate)
  | some key =>
    if scanner.isStale key then
      if key.required then .error (scanner.colonMissing key) else .ok none
    else .ok (some key)
  | none => .ok none

/-- Whether some candidate can no longer be a key. -/
def hasStale (scanner : Scanner) : Bool :=
  scanner.candidate.any scanner.isStale || scanner.outer.any (·.any scanner.isStale)

/-- Drops the candidates that can no longer be keys. -/
def dropStale (scanner : Scanner) : Except Fault Scanner :=
  if scanner.hasStale then do
    let outer ← scanner.outer.mapM scanner.refresh
    let candidate ← scanner.refresh scanner.candidate
    return { scanner with candidate := candidate, outer := outer }
  else .ok scanner

/-- Drops the innermost candidate. -/
def dropCandidate (scanner : Scanner) : Except Fault Scanner :=
  match scanner.candidate with
  | some key =>
    if key.required then .error (scanner.colonMissing key)
    else .ok { scanner with candidate := none }
  | none => .ok scanner

/-- Makes the next token a candidate, if a key may start here. -/
def addCandidate (scanner : Scanner) : Except Fault Scanner :=
  if scanner.keyAllowed then do
    let scanner ← scanner.dropCandidate
    let required := !scanner.inFlow && scanner.blocks.head? == some scanner.cursor.place.column
    return { scanner with
      candidate := some ⟨scanner.nextNumber, scanner.cursor.place, required⟩ }
  else .ok scanner

/-! ## Tokens -/

/-- The end of the file. It counts as the start of a line. -/
def scanEnd (scanner : Scanner) : Except Fault Scanner := do
  let place := scanner.cursor.place
  let place : Place :=
    if place.column == 0 then place else { place with line := place.line + 1, column := 0 }
  let scanner := (scanner.goTo ⟨[], place⟩).closeBlocks fun _ => true
  let scanner ← scanner.dropCandidate
  return { scanner with keyAllowed := false }.push .fileEnd place place

/-- A directive. -/
def scanDirective (scanner : Scanner) : Except Fault Scanner := do
  let scanner ← (scanner.closeBlocks fun _ => true).dropCandidate
  let (found, stop, after) ← directive scanner.cursor
  return ({ scanner with keyAllowed := false }.push (.directive found) scanner.cursor.place
    stop).goTo after

/-- A mark that starts or ends a document. -/
def scanDocumentMark (scanner : Scanner) (token : Token) : Except Fault Scanner := do
  let scanner ← (scanner.closeBlocks fun _ => true).dropCandidate
  return { scanner with keyAllowed := false }.pushMark token 3

/-- An opening bracket. -/
def scanOpening (scanner : Scanner) (token : Token) : Except Fault Scanner := do
  let scanner ← scanner.addCandidate
  return { scanner with
    outer := scanner.candidate :: scanner.outer
    candidate := none
    keyAllowed := true }.pushMark token 1

/-- A closing bracket. -/
def scanClosing (scanner : Scanner) (token : Token) : Except Fault Scanner := do
  let scanner ← scanner.dropCandidate
  let scanner := match scanner.outer with
    | candidate :: outer => { scanner with candidate := candidate, outer := outer }
    | [] => scanner
  return { scanner with keyAllowed := false }.pushMark token 1

/-- A comma in brackets. -/
def scanComma (scanner : Scanner) : Except Fault Scanner := do
  let scanner ← scanner.dropCandidate
  return { scanner with keyAllowed := true }.pushMark .comma 1

/-- Outside of brackets, opens a block here for a mark that needs one. -/
def needBlock (scanner : Scanner) (token : Token) (problem : Problem) :
    Except Fault Scanner :=
  let place := scanner.cursor.place
  if scanner.inFlow then .ok scanner
  else if scanner.keyAllowed then
    .ok (scanner.openBlock place.column scanner.nextNumber token place)
  else .error (.text problem place none)

/-- A dash of a sequence. -/
def scanDash (scanner : Scanner) : Except Fault Scanner := do
  let scanner ← scanner.needBlock .blockSequence .entryHere
  let scanner ← scanner.dropCandidate
  return { scanner with keyAllowed := true }.pushMark .dash 1

/-- A question mark before a key. -/
def scanKey (scanner : Scanner) : Except Fault Scanner := do
  let scanner ← scanner.needBlock .blockMapping .keyHere
  let scanner ← scanner.dropCandidate
  return { scanner with keyAllowed := !scanner.inFlow }.pushMark .key 1

/-- A colon before a value. It makes the candidate a key. -/
def scanValue (scanner : Scanner) : Except Fault Scanner :=
  match scanner.candidate with
  | some key =>
    let scanner := scanner.insertAt key.number .key key.place
    let scanner := scanner.openBlock key.place.column key.number .blockMapping key.place
    .ok ({ scanner with candidate := none, keyAllowed := false }.pushMark .value 1)
  | none => do
    let scanner ← scanner.needBlock .blockMapping .valueHere
    return { scanner with keyAllowed := !scanner.inFlow }.pushMark .value 1

/-- A token that a key can start with. -/
def scanWord (scanner : Scanner) (read : Cursor → Except Fault (Token × Cursor)) :
    Except Fault Scanner := do
  let scanner ← scanner.addCandidate
  let (token, after) ← read scanner.cursor
  return ({ scanner with keyAllowed := false }.push token scanner.cursor.place after.place).goTo
    after

/-- A block scalar. -/
def scanBlockScalar (scanner : Scanner) (style : Style) : Except Fault Scanner := do
  let scanner ← scanner.dropCandidate
  let (text, after) ← blockScalar scanner.blocks.head? scanner.cursor
  return ({ scanner with keyAllowed := true }.push (.scalar text style) scanner.cursor.place
    after.place).goTo after

/-- A plain scalar. If it ends with its line a key may follow. -/
def scanPlain (scanner : Scanner) : Except Fault Scanner := do
  let scanner ← scanner.addCandidate
  let around : Surroundings := ⟨scanner.inFlow, scanner.blocks.head?.elim 0 (· + 1)⟩
  let scalar ← plainScalar around scanner.cursor
  return ({ scanner with keyAllowed := scalar.broken }.push (.scalar scalar.text .plain)
    scanner.cursor.place scalar.stop).goTo scalar.after

/-- The characters that mean something else at the start of a word. -/
def isIndicator (c : Char) : Bool :=
  ['-', '?', ':', ',', '[', ']', '\x7b', '\x7d', '#', '&', '*', '!', '|', '>', '\'', '"', '%',
    '@', '\x60'].contains c

/-- Whether a plain scalar may start here. -/
def startsPlain (inFlow : Bool) : List Char → Bool
  | [] => false
  | c :: rest =>
    !(isBlank c || isBreak c || isIndicator c)
      || (c == '-' && !rest.head?.any isBlank)
      || (!inFlow && (c == '?' || c == ':') && !atWordEnd rest)

/-- Finds the token at the cursor, which stands at one. -/
def scanHere (scanner : Scanner) : Except Fault Scanner :=
  let cursor := scanner.cursor
  let atStart := cursor.place.column == 0
  match cursor.rest with
  | [] => scanner.scanEnd
  | c :: rest =>
    if atStart && c == '%' then scanner.scanDirective
    else if atStart && atTripleOf '-' cursor.rest then scanner.scanDocumentMark .documentStart
    else if atStart && atTripleOf '.' cursor.rest then scanner.scanDocumentMark .documentEnd
    else if c == '[' then scanner.scanOpening .flowSequence
    else if c == '\x7b' then scanner.scanOpening .flowMapping
    else if c == ']' then scanner.scanClosing .flowSequenceEnd
    else if c == '\x7d' then scanner.scanClosing .flowMappingEnd
    else if c == ',' then scanner.scanComma
    else if c == '-' && atWordEnd rest then scanner.scanDash
    else if c == '?' && (scanner.inFlow || atWordEnd rest) then scanner.scanKey
    else if c == ':' && (scanner.inFlow || atWordEnd rest) then scanner.scanValue
    else if c == '*' then scanner.scanWord fun cursor =>
      (nodeName .reference cursor).map fun (name, after) => (.reference name, after)
    else if c == '&' then scanner.scanWord fun cursor =>
      (nodeName .anchor cursor).map fun (name, after) => (.anchor name, after)
    else if c == '!' then scanner.scanWord fun cursor =>
      (tag scanner.inFlow cursor).map fun (tag, after) => (.tag tag, after)
    else if c == '|' && !scanner.inFlow then scanner.scanBlockScalar .literal
    else if c == '>' && !scanner.inFlow then scanner.scanBlockScalar .folded
    else if c == '\'' || c == '"' then scanner.scanWord fun cursor =>
      (quotedScalar cursor).map fun (text, after) => (.scalar text .quoted, after)
    else if startsPlain scanner.inFlow cursor.rest then scanner.scanPlain
    else .error (.text .noToken cursor.place (some (.nextToken, cursor.place)))

/-- Finds the next token. -/
def scan (scanner : Scanner) : Except Fault Scanner := do
  let (cursor, keyAllowed) :=
    toTokenFrom scanner.inFlow scanner.keyAllowed false scanner.cursor.place scanner.cursor.rest
  let scanner ← { scanner with cursor := cursor, keyAllowed := keyAllowed }.dropStale
  (scanner.closeBlocks (cursor.place.column < ·)).scanHere

/-- Whether the first token of the queue may still have to wait for a key before
it. -/
def isOpen (scanner : Scanner) : Bool :=
  let isFirst (key : KeyCandidate) : Bool := key.number == scanner.taken
  scanner.candidate.any isFirst || scanner.outer.any (·.any isFirst)

/-- Finds tokens until the first of the queue is certain. Each turn passes a
character or reaches the end of the file. -/
def fill : Nat → Scanner → Except Fault Scanner
  | 0, scanner => .ok scanner
  | fuel + 1, scanner =>
    if scanner.queue.isEmpty then do fill fuel (← scanner.scan)
    else do
      let scanner ← scanner.dropStale
      if scanner.isOpen then do fill fuel (← scanner.scan) else return scanner

/-- The next token, which is not passed on yet. -/
def peek (scanner : Scanner) : Except Fault (Lexeme × Scanner) := do
  let scanner ← scanner.fill (scanner.size + 2)
  match scanner.queue with
  | lexeme :: _ => return (lexeme, scanner)
  | [] => return (⟨.fileEnd, scanner.cursor.place, scanner.cursor.place⟩, scanner)

/-- Passes the first token on. -/
def pass (scanner : Scanner) : Scanner :=
  { scanner with queue := scanner.queue.drop 1, taken := scanner.taken + 1 }

end Scanner

end StackMachine.Yaml
