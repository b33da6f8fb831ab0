/-
Program words before and after addresses are known.

The second pass emits one slot for each word of the program: the word itself
or, where the operand is a reference, a slot that waits for an address. Slots
are then resolved against the tables, in order, and the first reference that
has no address fails the whole program.

`Slot`, `emit` and `resolve` are those of the package `lasm`; `Tables.resolve` is the `resolve` of
its `Ref`.
-/
import StackMachine.Assembly.Tables

set_option autoImplicit false

namespace StackMachine.Assembly

open Source

/-- A word of the program that may still wait for an address. -/
inductive Slot where
  | word (word : Word)
  /-- The operand of instruction number `index`, which stands on source line
  `line`. -/
  | pending (line : Nat) (index : Nat) (target : Reference)
  deriving DecidableEq, Repr

/-! ## Emission -/

/-- The instructions of all lines, each with its line number. -/
def numberedCodes (lines : List Line) : List (Nat × Code) :=
  lines.flatMap fun line => line.codes.map fun code => (line.number, code)

/-- The slots of instruction number `index`. -/
def Slot.ofCode (line : Nat) (index : Nat) (code : Code) : List Slot :=
  match code.operand with
  | none => [.word code.op.tag]
  | some (.literal w) => [.word code.op.tag, .word w]
  | some (.reference target) => [.word code.op.tag, .pending line index target]

/-- The slots of all lines. -/
def emit (lines : List Line) : List Slot :=
  (numberedCodes lines).zipIdx.flatMap fun ((line, code), index) => Slot.ofCode line index code

/-! ## Resolution -/

/-- The address that a reference made by instruction number `index` denotes. -/
def Tables.address (tables : Tables) (index : Nat) : Reference → Except Problem Nat
  | .label name =>
    match tables.label? name with
    | some address => .ok address
    | none => .error (.undefinedLabel name)
  | .relative offset =>
    match tables.instr? index offset with
    | some address => .ok address
    | none => .error (.addressOutOfBounds offset)
  | .line number =>
    match tables.line? number with
    | some address => .ok address
    | none => .error (.unknownLineNumber number)

/-- The operand word of a reference made by instruction number `index`. An
address just past a full program is no word. -/
def Tables.resolve (tables : Tables) (index : Nat) (target : Reference) : Except Problem Word := do
  let address ← tables.address index target
  match Word.ofNat? address with
  | some word => return word
  | none => throw (.addressOutOfBounds address)

/-- The word of a slot. -/
def Slot.resolve (tables : Tables) : Slot → Except Error Word
  | word w => .ok w
  | pending line index target => (tables.resolve index target).mapError fun p => p.at line

/-- The words of all slots. -/
def resolve (tables : Tables) (slots : List Slot) : Except Error (List Word) :=
  slots.mapM (Slot.resolve tables)

end StackMachine.Assembly
