/-
Lexemes by class.

A lexeme is a number, the spelling of an operation, or one of the forms that
mean something to the assembler only: a label definition, a reference or a
pseudo-operation. No lexeme belongs to two classes. Anything else is unknown.

`Token` and `Token.Kind` are `Token` and `TokenKind` of the package `lasm`; `ofLexeme` is
`classify`, and `isForm` is `is_assembler_form`.
-/
import StackMachine.Operation
import StackMachine.Literal
import StackMachine.Source.Lexeme
import StackMachine.Source.Problem

set_option autoImplicit false

namespace StackMachine.Source

/-- The class of a lexeme. -/
inductive Token.Kind where
  /-- A literal with its 64-bit value. -/
  | number (value : Int64)
  /-- The keyword or the symbol of an operation. -/
  | operation (op : Op)
  /-- `name:`, `@reference` or a pseudo-operation. -/
  | form
  deriving DecidableEq

/-- A classified lexeme. -/
structure Token where
  kind : Token.Kind
  /-- The lexeme as the source spells it. -/
  text : String
  deriving DecidableEq

/-- Whether a lexeme has the shape of a label definition. -/
def isDefinition (s : String) : Bool :=
  s.toList.getLast? == some ':'

/-- Whether a lexeme has the shape of a reference. -/
def isReference (s : String) : Bool :=
  s.toList.head? == some '@'

/-- Whether a lexeme is for the assembler only. -/
def isForm (s : String) : Bool :=
  isDefinition s || isReference s || (Pseudo.ofKeyword? s).isSome

namespace Token

/-- The class of a lexeme, if it has one. -/
def kind? (s : String) : Option Kind :=
  match Literal.value? s with
  | some value => some (.number value)
  | none =>
    match (Op.ofKeyword? s).or (Op.ofSymbol? s) with
    | some op => some (.operation op)
    | none => if isForm s then some .form else none

/-- Classifies a lexeme. -/
def ofLexeme (s : String) : Except Problem Token :=
  match kind? s with
  | some kind => .ok ⟨kind, s⟩
  | none => .error (.unknownToken s)

/-- The classified lexemes of a line; an unknown one does not hide the rest. -/
def scan (line : String) : List (Except Problem Token) :=
  (lexemes line).map ofLexeme

end Token

end StackMachine.Source
