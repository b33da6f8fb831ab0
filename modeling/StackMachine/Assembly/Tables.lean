/-
Address tables, the result of the first pass.

The pass walks the lines once and adds up sizes. It looks at operations only,
never at operands: where things stand does not depend on what refers to them,
so a reference may point forward as well as back.

A program must fit the address space, and that is checked after each line.

`Tables` is `Tables` of the package `lasm`, with its `collect`, `label`, `line` and `instr`.
-/
import StackMachine.Source.Line
import Std.Data.HashMap

set_option autoImplicit false

namespace StackMachine.Assembly

open Source

/-- Where the labels, the lines and the instructions of a source stand. -/
structure Tables where
  /-- Each label with the address of the instruction after it, as defined. -/
  labels : Array (String × Nat) := #[]
  /-- The address of the first instruction of each line that has one. -/
  lines : Std.HashMap Nat Nat := {}
  /-- The address of each instruction, as emitted. -/
  instrs : Array Nat := #[]
  /-- Program size in words. -/
  size : Nat := 0

namespace Tables

/-! ## Looking up -/

/-- The address that a label is bound to. -/
def label? (tables : Tables) (name : String) : Option Nat :=
  (tables.labels.find? fun entry => entry.1 == name).map Prod.snd

/-- The address of the first instruction of a source line. -/
def line? (tables : Tables) (number : Nat) : Option Nat :=
  tables.lines[number]?

/-- The address of the instruction `offset` instructions away from instruction
number `index`. Instruction numbers are below `offsetLimit`. -/
def instr? (tables : Tables) (index : Nat) (offset : Int) : Option Nat :=
  if index < offsetLimit ∧ 0 ≤ index + offset then tables.instrs[(index + offset).toNat]? else none

/-- Whether there is no instruction at all. -/
def isEmpty (tables : Tables) : Bool :=
  tables.size == 0

/-! ## Collecting -/

/-- One more instruction at the end. -/
def addCode (tables : Tables) (code : Code) : Tables :=
  { tables with
    instrs := tables.instrs.push tables.size
    size := tables.size + code.op.size }

/-- The instructions of one more line at the end. -/
def addCodes (tables : Tables) (number : Nat) (codes : List Code) : Tables :=
  let marked :=
    if codes.isEmpty then tables
    else { tables with lines := tables.lines.insert number tables.size }
  codes.foldl addCode marked

/-- One more line at the end. -/
def addLine (tables : Tables) (line : Line) : Except Error Tables :=
  match line.statement with
  | none => .ok tables
  | some (.label name) =>
    if (tables.label? name).isSome then .error ((Problem.redefinedLabel name).at line.number)
    else .ok { tables with labels := tables.labels.push (name, tables.size) }
  | some (.code codes) =>
    let grown := tables.addCodes line.number codes
    if grown.size ≤ programCapacity then .ok grown
    else .error ((Problem.addressOutOfBounds programCapacity).at line.number)

/-- The tables of a list of lines. -/
def collect (lines : List Line) : Except Error Tables :=
  lines.foldlM addLine {}

end Tables

end StackMachine.Assembly
