/-
Source lines as statements.

A line is blank, defines a label, or holds one instruction. An instruction of
the source may stand for several of the machine: an operation that takes its
destination off the stack may have it written beside it, and a pseudo-operation
expands into a run of operations. `Line.codes` is what the line emits after all
that, one entry for each machine instruction.

Unknown lexemes are reported before anything else about the line, the leftmost
first; after that the shape of the line decides.

`Line`, `Statement`, `Code`, `Operand` and `Reference` are `Line`, `Stmt`, `Code`, `Imm` and `Ref`
of the package `lasm`, each with its `parse`; `ofPseudo` is `expand`, and `isName` is
`is_label_name`.
-/
import StackMachine.Source.Token

set_option autoImplicit false

namespace StackMachine.Source

/-! ## Operands -/

/-- A place in the program, named in one of three ways. -/
inductive Reference where
  /-- `@name`: the first instruction after the definition of a label. -/
  | label (name : String)
  /-- `@+n`, `@-n`: an instruction counted from the referring one. -/
  | relative (offset : Int)
  /-- `@n`: the first instruction of a source line. -/
  | line (number : Nat)
  deriving DecidableEq, Repr

/-- The operand of an instruction, before addresses are known. -/
inductive Operand where
  | literal (word : Word)
  | reference (target : Reference)
  deriving DecidableEq, Repr

/-- A letter or an underscore. -/
def isNameStart (c : Char) : Bool :=
  c.isAlpha || c == '_'

/-- A letter, a digit or an underscore. -/
def isNameRest (c : Char) : Bool :=
  c.isAlphanum || c == '_'

/-- Whether a text can name a label. Keywords can. -/
def isName (s : String) : Bool :=
  match s.toList with
  | [] => false
  | c :: cs => isNameStart c && cs.all isNameRest

namespace Reference

/-- An offset has to fit in 64 bits, sign included. -/
def offset? (negative : Bool) (digits : List Char) : Option Int :=
  (Literal.natural? 10 digits).bind fun n =>
    if negative then (if n ≤ offsetLimit then some (-(n : Int)) else none)
    else if n < offsetLimit then some (n : Int) else none

/-- A line number has to fit in 64 bits. -/
def lineNumber? (digits : List Char) : Option Nat :=
  (Literal.natural? 10 digits).filter (· < numberLimit)

/-- Reads what stands after the `@`. -/
def ofText? (s : String) : Option Reference :=
  match s.toList with
  | '+' :: digits => (offset? false digits).map relative
  | '-' :: digits => (offset? true digits).map relative
  | cs =>
    if !cs.isEmpty && cs.all Char.isDigit then (lineNumber? cs).map line
    else if isName s then some (label s)
    else none

end Reference

/-- Reads an operand. -/
def Operand.ofToken (token : Token) : Except Problem Operand :=
  match token.kind with
  | .number value => .ok (.literal (Literal.toWord value))
  | .operation _ => .error (.badOperand token.text .immediate)
  | .form =>
    match token.text.toList with
    | '@' :: body =>
      match Reference.ofText? (String.ofList body) with
      | some target => .ok (.reference target)
      | none => .error (.badOperand token.text .address)
    | _ => .error (.badOperand token.text .immediate)

/-! ## Instructions -/

/-- A machine instruction, before addresses are known. -/
structure Code where
  op : Op
  operand : Option Operand
  deriving DecidableEq, Repr

namespace Code

/-- Encoded size of a run of instructions in words. -/
def totalSize : List Code → Nat
  | [] => 0
  | code :: codes => code.op.size + totalSize codes

/-- The instructions of an operation, which the source spells `name`, with its
arguments. -/
def ofOperation (op : Op) (name : String) : List Token → Except Problem (List Code)
  | [] => if op.arity = 0 then .ok [⟨op, none⟩] else .error (.missingArgument name)
  | [arg] =>
    if op.arity = 1 then do
      let operand ← Operand.ofToken arg
      return [⟨op, some operand⟩]
    else if op.takesTarget then do
      let operand ← Operand.ofToken arg
      return [⟨.push, some operand⟩, ⟨op, none⟩]
    else .error (.unexpectedArgument arg.text)
  | _ :: extra :: _ => .error (.unexpectedArgument extra.text)

/-- The instructions of a pseudo-operation, which the source spells `name`, with
its arguments. The count may not move the stack pointer by more than the whole
stack. -/
def ofPseudo (pseudo : Pseudo) (name : String) : List Token → Except Problem (List Code)
  | [] => .error (.missingArgument name)
  | [arg] =>
    match arg.kind with
    | .number count =>
      if count.toInt.natAbs ≤ stackCapacity then
        .ok ((pseudo.expand count.toInt).map fun op => ⟨op, none⟩)
      else .error (.invalidCount arg.text)
    | _ => .error (.invalidCount arg.text)
  | _ :: extra :: _ => .error (.unexpectedArgument extra.text)

end Code

/-! ## Statements -/

/-- What a line that is not blank says. -/
inductive Statement where
  | label (name : String)
  | code (codes : List Code)
  deriving DecidableEq, Repr

namespace Statement

/-- Reads a label definition, spelled `text`. -/
def ofDefinition (text : String) : List Token → Except Problem Statement
  | [] =>
    let name := String.ofList text.toList.dropLast
    if isName name then .ok (label name) else .error (.invalidLabel name)
  | extra :: _ => .error (.unexpectedArgument extra.text)

/-- Reads the statement of a line. -/
def ofTokens : List Token → Except Problem (Option Statement)
  | [] => .ok none
  | head :: args =>
    match head.kind with
    | .operation op => do
      let codes ← Code.ofOperation op head.text args
      return some (code codes)
    | .number _ => .error (.unknownOperation head.text)
    | .form =>
      if isDefinition head.text then do
        let statement ← ofDefinition head.text args
        return some statement
      else match Pseudo.ofKeyword? head.text with
        | some pseudo => do
          let codes ← Code.ofPseudo pseudo head.text args
          return some (code codes)
        | none => .error (.unknownOperation head.text)

end Statement

/-! ## Lines -/

/-- A source line and what it says. -/
structure Line where
  /-- The first line has number 1. -/
  number : Nat
  /-- The line as the source has it. -/
  raw : String
  /-- Nothing, on a blank line. -/
  statement : Option Statement
  deriving DecidableEq, Repr

namespace Line

/-- Classifies the lexemes of a line. One that is unknown where the operation
should stand is an unknown operation. -/
def tokens : List String → Except Problem (List Token)
  | [] => .ok []
  | head :: rest => do
    let first ← (Token.ofLexeme head).mapError fun _ => Problem.unknownOperation head
    let others ← rest.mapM Token.ofLexeme
    return first :: others

/-- Reads one line. -/
def parse (number : Nat) (raw : String) : Except Error Line :=
  match tokens (lexemes raw) >>= Statement.ofTokens with
  | .ok statement => .ok ⟨number, raw, statement⟩
  | .error problem => .error (problem.at number)

/-- The machine instructions of the line. -/
def codes (line : Line) : List Code :=
  match line.statement with
  | some (.code codes) => codes
  | _ => []

/-- Encoded size of the line in words. -/
def size (line : Line) : Nat :=
  Code.totalSize line.codes

end Line

end StackMachine.Source
