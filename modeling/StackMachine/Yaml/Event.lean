/-
A file as a row of events: nodes that begin, collections that end, and the
documents that they belong to.

A reader has a goal, what it expects next, and the goals that come back when the
collections around it go on. Each step looks at the next tokens and tells one
event. Where a node is left out, as behind a colon at the end of an entry, an
empty plain scalar stands for it.
-/
import StackMachine.Yaml.Token

set_option autoImplicit false

namespace StackMachine.Yaml

/-! ## Events -/

/-- The beginning of a node, which for a scalar is all of it. -/
inductive Node where
  | scalar (text : String) (style : Style) (tag : Option String)
  | sequence
  | mapping
  deriving DecidableEq, Repr

/-- An event of a file. -/
inductive Event where
  /-- A node begins at a place, perhaps with an anchor. -/
  | node (node : Node) (anchor : Option String) (place : Place)
  /-- An alias stands for a node. -/
  | reference (name : String) (place : Place)
  /-- The innermost open collection ends. -/
  | close
  | documentStart
  | documentEnd
  | fileEnd
  deriving DecidableEq, Repr

/-- The event of a node that is left out. -/
def Event.empty (place : Place) : Event :=
  .node (.scalar "" .plain none) none place

/-! ## Readers -/

/-- What a reader expects next. Collections remember where they began. -/
inductive Goal where
  /-- A document; only the first may go without a mark. -/
  | document (first : Bool)
  | documentContent
  | documentEnd
  | blockNode
  | blockSequence (since : Place)
  /-- An entry of a sequence at the column of the mapping that it is in. -/
  | flatSequence
  | blockMappingKey (since : Place)
  | blockMappingValue (since : Place)
  | flowSequence (since : Place) (first : Bool)
  /-- The parts of a mapping with one entry in a sequence in brackets. -/
  | pairKey (since : Place)
  | pairValue (since : Place)
  | pairEnd (since : Place)
  | flowMappingKey (since : Place) (first : Bool)
  | flowMappingValue (since : Place)
  /-- The value of a key without a colon. -/
  | flowMappingNoValue (since : Place)
  | nothing
  deriving DecidableEq, Repr

/-- A file that is being read. -/
structure Reader where
  scanner : Scanner
  goal : Goal := .document true
  /-- The goals that come back, the next one first. -/
  later : List Goal := []
  /-- What the handles of tags stand for in this document. -/
  shorthands : List (List Char × List Char) := []

/-- Work on a reader that can fail. -/
abbrev Read (α : Type) := StateT Reader (Except Fault) α

namespace Read

/-- The next token. -/
def peek : Read Lexeme := do
  let reader ← get
  let (lexeme, scanner) ← reader.scanner.peek
  set { reader with scanner := scanner }
  return lexeme

/-- Passes a token. -/
def pass : Read Unit :=
  modify fun reader => { reader with scanner := reader.scanner.pass }

/-- Passes a token and returns the one behind it. -/
def advance : Read Lexeme := do
  pass
  peek

/-- Sets the goal. -/
def expect (goal : Goal) : Read Unit :=
  modify fun reader => { reader with goal := goal }

/-- Keeps a goal for later. -/
def later (goal : Goal) : Read Unit :=
  modify fun reader => { reader with later := goal :: reader.later }

/-- Goes on with the goal that was kept last. -/
def resume : Read Unit :=
  modify fun reader =>
    match reader.later with
    | goal :: later => { reader with goal := goal, later := later }
    | [] => { reader with goal := .nothing }

/-- Tells a node that is left out and goes on. -/
def leaveOut (place : Place) (goal : Goal) : Read Event := do
  expect goal
  return .empty place

/-- Tells the end of a collection and goes on. -/
def close : Read Event := do
  resume
  return .close

/-! ## Nodes -/

/-- Reads the anchor and the tag before a node, in either order. -/
def properties (first : Lexeme) : Read (Option String × Option (Tag × Place)) := do
  match first.token with
  | .anchor name =>
    let second ← advance
    match second.token with
    | .tag tag =>
      pass
      return (some (String.ofList name), some (tag, second.start))
    | _ => return (some (String.ofList name), none)
  | .tag tag =>
    let second ← advance
    match second.token with
    | .anchor name =>
      pass
      return (some (String.ofList name), some (tag, first.start))
    | _ => return (none, some (tag, first.start))
  | _ => return (none, none)

/-- The full text of a tag. -/
def resolve (start : Place) : Option (Tag × Place) → Read (Option (List Char))
  | none => return none
  | some (tag, place) => do
    if tag.handle.isEmpty then return some tag.rest
    match (← get).shorthands.lookup tag.handle with
    | some text => return some (text ++ tag.rest)
    | none => throw (.text .tagHandle place (some (.node, start)))

/-- Reads the beginning of a node. In a block, a block may begin; where `flat` says
so, also a sequence at the column of the mapping around it. A node may have
properties only, and is then an empty plain scalar. -/
def node (inBlock flat : Bool) : Read Event := do
  let first ← peek
  match first.token with
  | .reference name =>
    pass
    resume
    return .reference (String.ofList name) first.start
  | _ =>
    let (anchor, written) ← properties first
    let lexeme ← peek
    let tag ← resolve first.start written
    match lexeme.token, inBlock, flat with
    | .dash, _, true =>
      expect .flatSequence
      return .node .sequence anchor first.start
    | .scalar text style, _, _ =>
      pass
      resume
      return .node (.scalar (String.ofList text) style (tag.map String.ofList)) anchor first.start
    | .flowSequence, _, _ =>
      pass
      expect (.flowSequence lexeme.start true)
      return .node .sequence anchor first.start
    | .flowMapping, _, _ =>
      pass
      expect (.flowMappingKey lexeme.start true)
      return .node .mapping anchor first.start
    | .blockSequence, true, _ =>
      pass
      expect (.blockSequence lexeme.start)
      return .node .sequence anchor first.start
    | .blockMapping, true, _ =>
      pass
      expect (.blockMappingKey lexeme.start)
      return .node .mapping anchor first.start
    | _, _, _ =>
      if anchor.isNone && tag.isNone then
        throw (.text .node lexeme.start
          (some (if inBlock then .blockNode else .flowNode, first.start)))
      else
        resume
        return .node (.scalar "" .plain (tag.map String.ofList)) anchor first.start

/-! ## Documents -/

/-- Takes over the directives before a document. Each may be given once, and the
version has to be 1.1 or 1.2. -/
def directives (version : Bool) (shorthands : List (List Char × List Char)) :
    Nat → Read (List (List Char × List Char))
  | 0 => return shorthands
  | fuel + 1 => do
    let lexeme ← peek
    match lexeme.token with
    | .directive (.version major minor) =>
      if version then throw (.text .secondVersion lexeme.start none)
      if major != 1 || (minor != 1 && minor != 2) then
        throw (.text .otherVersion lexeme.start none)
      pass
      directives true shorthands fuel
    | .directive (.shorthand handle text) =>
      if (shorthands.lookup handle).isSome then throw (.text .secondShorthand lexeme.start none)
      pass
      directives version (shorthands ++ [(handle, text)]) fuel
    | _ => return shorthands

/-- What handles stand for unless a directive says otherwise. -/
def standardShorthands : List (List Char × List Char) :=
  [(['!'], ['!']), (['!', '!'], "tag:yaml.org,2002:".toList)]

/-- Passes marks that end a document. -/
def passDocumentEnds : Nat → Read Unit
  | 0 => return ()
  | fuel + 1 => do
    if (← peek).token == .documentEnd then
      pass
      passDocumentEnds fuel

/-- Whether a token can only stand between documents. -/
def isBoundary : Token → Bool
  | .directive _ | .documentStart | .documentEnd | .fileEnd => true
  | _ => false

/-- Starts a document, or finds the end of the file. Only the first document may go
without a mark and follow no mark that ends one. -/
def document (first : Bool) : Read Event := do
  let size := (← get).scanner.size
  if !first then passDocumentEnds (size + 1)
  let lexeme ← peek
  match lexeme.token with
  | .fileEnd =>
    pass
    expect .nothing
    return .fileEnd
  | token =>
    if first && (token == .documentEnd || !isBoundary token) then
      later .documentEnd
      modify fun reader => { reader with goal := .blockNode, shorthands := standardShorthands }
    else
      let shorthands ← directives false [] (size + 1)
      let mark ← peek
      if mark.token != .documentStart then throw (.text .documentStart mark.start none)
      pass
      later .documentEnd
      modify fun reader =>
        { reader with
          goal := .documentContent
          shorthands := shorthands ++ standardShorthands }
    return .documentStart

/-- The content of a document behind its mark, which may be left out. -/
def documentContent : Read Event := do
  let lexeme ← peek
  if isBoundary lexeme.token then
    resume
    return .empty lexeme.start
  else node true false

/-- The end of a document. -/
def documentEnd : Read Event := do
  if (← peek).token == .documentEnd then pass
  expect (.document false)
  return .documentEnd

/-! ## Blocks -/

/-- Whether a token says that an entry of a mapping is left out before it. -/
def endsBlockEntry : Token → Bool
  | .key | .value | .blockEnd => true
  | _ => false

/-- An entry of a sequence in a block of its own. -/
def blockSequence (since : Place) : Read Event := do
  let lexeme ← peek
  match lexeme.token with
  | .dash =>
    let inner ← advance
    if inner.token == .dash || inner.token == .blockEnd then
      leaveOut lexeme.stop (.blockSequence since)
    else
      later (.blockSequence since)
      node true false
  | .blockEnd =>
    pass
    close
  | _ => throw (.text .dash lexeme.start (some (.blockSequence, since)))

/-- An entry of a sequence at the column of the mapping that it is in. -/
def flatSequence : Read Event := do
  let lexeme ← peek
  match lexeme.token with
  | .dash =>
    let inner ← advance
    if inner.token == .dash || endsBlockEntry inner.token then
      leaveOut lexeme.stop .flatSequence
    else
      later .flatSequence
      node true false
  | _ => close

/-- A key of a mapping in a block. -/
def blockMappingKey (since : Place) : Read Event := do
  let lexeme ← peek
  match lexeme.token with
  | .key =>
    let inner ← advance
    if endsBlockEntry inner.token then leaveOut lexeme.stop (.blockMappingValue since)
    else
      later (.blockMappingValue since)
      node true true
  | .blockEnd =>
    pass
    close
  | _ => throw (.text .key lexeme.start (some (.blockMapping, since)))

/-- A value of a mapping in a block. -/
def blockMappingValue (since : Place) : Read Event := do
  let lexeme ← peek
  match lexeme.token with
  | .value =>
    let inner ← advance
    if endsBlockEntry inner.token then leaveOut lexeme.stop (.blockMappingKey since)
    else
      later (.blockMappingKey since)
      node true true
  | _ => leaveOut lexeme.start (.blockMappingKey since)

/-! ## Brackets -/

/-- The token at which an entry of a collection in brackets starts: behind a comma,
unless it is the first. -/
def flowEntry (first : Bool) (closing : Token) (fault : Place → Fault) : Read Lexeme := do
  let lexeme ← peek
  if first || lexeme.token == closing then return lexeme
  else if lexeme.token == .comma then advance
  else throw (fault lexeme.start)

/-- An entry of a sequence in brackets. A key makes it a mapping of one entry. -/
def flowSequence (since : Place) (first : Bool) : Read Event := do
  let lexeme ← flowEntry first .flowSequenceEnd fun place =>
    .text .commaOrBracket place (some (.flowSequence, since))
  match lexeme.token with
  | .flowSequenceEnd =>
    pass
    close
  | .key =>
    pass
    expect (.pairKey since)
    return .node .mapping none lexeme.start
  | _ =>
    later (.flowSequence since false)
    node false false

/-- The key of a mapping of one entry. A token that ends the entry is passed. -/
def pairKey (since : Place) : Read Event := do
  let lexeme ← peek
  match lexeme.token with
  | .value | .comma | .flowSequenceEnd =>
    pass
    leaveOut lexeme.stop (.pairValue since)
  | _ =>
    later (.pairValue since)
    node false false

/-- The value of a mapping of one entry. -/
def pairValue (since : Place) : Read Event := do
  let lexeme ← peek
  match lexeme.token with
  | .value =>
    let inner ← advance
    if inner.token == .comma || inner.token == .flowSequenceEnd then
      leaveOut inner.start (.pairEnd since)
    else
      later (.pairEnd since)
      node false false
  | _ => leaveOut lexeme.start (.pairEnd since)

/-- The end of a mapping of one entry. -/
def pairEnd (since : Place) : Read Event := do
  expect (.flowSequence since false)
  return .close

/-- A key of a mapping in brackets. -/
def flowMappingKey (since : Place) (first : Bool) : Read Event := do
  let lexeme ← flowEntry first .flowMappingEnd fun place =>
    .text .commaOrBrace place (some (.flowMapping, since))
  match lexeme.token with
  | .flowMappingEnd =>
    pass
    close
  | .key =>
    let inner ← advance
    if [Token.value, .comma, .flowMappingEnd].contains inner.token then
      leaveOut inner.start (.flowMappingValue since)
    else
      later (.flowMappingValue since)
      node false false
  | _ =>
    later (.flowMappingNoValue since)
    node false false

/-- A value of a mapping in brackets. -/
def flowMappingValue (since : Place) : Read Event := do
  let lexeme ← peek
  match lexeme.token with
  | .value =>
    let inner ← advance
    if inner.token == .comma || inner.token == .flowMappingEnd then
      leaveOut inner.start (.flowMappingKey since false)
    else
      later (.flowMappingKey since false)
      node false false
  | _ => leaveOut lexeme.start (.flowMappingKey since false)

/-- The value of a key without a colon. -/
def flowMappingNoValue (since : Place) : Read Event := do
  leaveOut (← peek).start (.flowMappingKey since false)

/-! ## Steps -/

/-- The next event. -/
def event : Read Event := do
  match (← get).goal with
  | .document first => document first
  | .documentContent => documentContent
  | .documentEnd => documentEnd
  | .blockNode => node true false
  | .blockSequence since => blockSequence since
  | .flatSequence => flatSequence
  | .blockMappingKey since => blockMappingKey since
  | .blockMappingValue since => blockMappingValue since
  | .flowSequence since first => flowSequence since first
  | .pairKey since => pairKey since
  | .pairValue since => pairValue since
  | .pairEnd since => pairEnd since
  | .flowMappingKey since first => flowMappingKey since first
  | .flowMappingValue since => flowMappingValue since
  | .flowMappingNoValue since => flowMappingNoValue since
  | .nothing => return .fileEnd

end Read

end StackMachine.Yaml
