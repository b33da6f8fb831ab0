/-
What can be wrong with a file, apart from what it says: bytes that are no text,
and text that is not of the format. A fault in the text has a place and often
also names what was being read, with the place where that began.
-/
import StackMachine.Yaml.Place

set_option autoImplicit false

namespace StackMachine.Yaml

/-- What is wrong with the bytes of a file. -/
inductive ByteProblem where
  | leadingOctet
  | trailingOctet
  | incomplete
  /-- A character is written with more octets than it needs. -/
  | overlong
  | noCharacter
  | control
  deriving DecidableEq, Repr

/-- The wording of a problem with the bytes. -/
def ByteProblem.message : ByteProblem → String
  | leadingOctet => "invalid leading UTF-8 octet"
  | trailingOctet => "invalid trailing UTF-8 octet"
  | incomplete => "incomplete UTF-8 octet sequence"
  | overlong => "invalid length of a UTF-8 sequence"
  | noCharacter => "invalid Unicode character"
  | control => "control characters are not allowed"

/-- What is wrong with the text of a file. -/
inductive Problem where
  -- Words and marks.
  | noToken
  | colonMissing
  | keyHere
  | valueHere
  | entryHere
  -- Directives, tags and anchors.
  | directiveName
  | directiveNameCharacter
  | unknownDirective
  | versionNumber
  | versionPoint
  | longVersion
  | blankMissing
  | blankOrBreakMissing
  | commentOrBreakMissing
  | exclamationMissing
  | tagText
  | tagEscape
  | tagLeadingOctet
  | tagTrailingOctet
  | tagClosing
  | anchorName
  -- Scalars.
  | zeroIndentation
  | tabInIndentation
  | tabBeforePlain
  | colonInFlow
  | documentMark
  | endOfFile
  | unknownEscape
  | hexadecimalDigit
  | escapedNumber
  -- Nodes and documents.
  | node
  | tagHandle
  | dash
  | key
  | commaOrBracket
  | commaOrBrace
  | documentStart
  | secondVersion
  | otherVersion
  | secondShorthand
  deriving DecidableEq, Repr

/-- The wording of a problem with the text. -/
def Problem.message : Problem → String
  | noToken => "found character that cannot start any token"
  | colonMissing => "could not find expected ':'"
  | keyHere => "mapping keys are not allowed in this context"
  | valueHere => "mapping values are not allowed in this context"
  | entryHere => "block sequence entries are not allowed in this context"
  | directiveName => "could not find expected directive name"
  | directiveNameCharacter => "found unexpected non-alphabetical character"
  | unknownDirective => "found unknown directive name"
  | versionNumber => "did not find expected version number"
  | versionPoint => "did not find expected digit or '.' character"
  | longVersion => "found extremely long version number"
  | blankMissing => "did not find expected whitespace"
  | blankOrBreakMissing => "did not find expected whitespace or line break"
  | commentOrBreakMissing => "did not find expected comment or line break"
  | exclamationMissing => "did not find expected '!'"
  | tagText => "did not find expected tag URI"
  | tagEscape => "did not find URI escaped octet"
  | tagLeadingOctet => "found an incorrect leading UTF-8 octet"
  | tagTrailingOctet => "found an incorrect trailing UTF-8 octet"
  | tagClosing => "did not find the expected '>'"
  | anchorName => "did not find expected alphabetic or numeric character"
  | zeroIndentation => "found an indentation indicator equal to 0"
  | tabInIndentation => "found a tab character where an indentation space is expected"
  | tabBeforePlain => "found a tab character that violates indentation"
  | colonInFlow => "found unexpected ':'"
  | documentMark => "found unexpected document indicator"
  | endOfFile => "found unexpected end of stream"
  | unknownEscape => "found unknown escape character"
  | hexadecimalDigit => "did not find expected hexadecimal number"
  | escapedNumber => "found invalid Unicode character escape code"
  | node => "did not find expected node content"
  | tagHandle => "found undefined tag handle"
  | dash => "did not find expected '-' indicator"
  | key => "did not find expected key"
  | commaOrBracket => "did not find expected ',' or ']'"
  | commaOrBrace => "did not find expected ',' or '\x7d'"
  | documentStart => "did not find expected <document start>"
  | secondVersion => "found duplicate %YAML directive"
  | otherVersion => "found incompatible YAML document"
  | secondShorthand => "found duplicate %TAG directive"

/-- What was being read when a problem was met. -/
inductive Activity where
  | nextToken
  | simpleKey
  | directive
  | versionDirective
  | tagDirective
  | tagDirectiveHandle
  | tagDirectiveHandleEnd
  | tagDirectiveText
  | tag
  | tagText
  | anchor
  | reference
  | blockScalar
  | quotedScalar
  | quotedEscape
  | plainScalar
  | node
  | blockNode
  | flowNode
  | blockSequence
  | blockMapping
  | flowSequence
  | flowMapping
  deriving DecidableEq, Repr

/-- The wording of an activity. -/
def Activity.message : Activity → String
  | nextToken => "while scanning for the next token"
  | simpleKey => "while scanning a simple key"
  | directive => "while scanning a directive"
  | versionDirective => "while scanning a %YAML directive"
  | tagDirective => "while scanning a %TAG directive"
  | tagDirectiveHandle => "while scanning a tag directive"
  | tagDirectiveHandleEnd => "while parsing a tag directive"
  | tagDirectiveText => "while parsing a %TAG directive"
  | tag => "while scanning a tag"
  | tagText => "while parsing a tag"
  | anchor => "while scanning an anchor"
  | reference => "while scanning an alias"
  | blockScalar => "while scanning a block scalar"
  | quotedScalar => "while scanning a quoted scalar"
  | quotedEscape => "while parsing a quoted scalar"
  | plainScalar => "while scanning a plain scalar"
  | node => "while parsing a node"
  | blockNode => "while parsing a block node"
  | flowNode => "while parsing a flow node"
  | blockSequence => "while parsing a block collection"
  | blockMapping => "while parsing a block mapping"
  | flowSequence => "while parsing a flow sequence"
  | flowMapping => "while parsing a flow mapping"

/-- Why a file cannot be read. -/
inductive Fault where
  /-- The bytes from some position on are no text of the format. -/
  | bytes (problem : ByteProblem) (position : Nat)
  /-- The text at a place is not what it should be. -/
  | text (problem : Problem) (place : Place) (during : Option (Activity × Place))
  /-- An alias names no anchor that stands before it. -/
  | unknownAnchor (place : Place)
  deriving DecidableEq, Repr

namespace Fault

/-- What was being read, as a message adds it. Where that began is told if it is
another place than the problem's. -/
def contextInWords (place : Place) : Option (Activity × Place) → String
  | none => ""
  | some (activity, since) =>
    ", " ++ activity.message ++ (if since.looksLike place then "" else since.inWords)

/-- The wording of a fault. -/
def message : Fault → String
  | bytes problem position =>
    problem.message ++ (if position == 0 then "" else " at position " ++ toString position)
  | text problem place during =>
    problem.message ++ place.inWords ++ contextInWords place during
  | unknownAnchor place => "unknown anchor" ++ place.inWords

end Fault

end StackMachine.Yaml
