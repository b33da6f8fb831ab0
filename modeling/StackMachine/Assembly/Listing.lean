/-
The listing: the assembled program next to its source.

A line that emits nothing because it is blank or a label has one row with its
text. A line that emits instructions has a row for each, and its number and
text stand on the first of them. What is shown of an instruction is decoded
from the words, not copied from the line; the line only says where to start and
how many rows to show.

`listing` is what `print_dump` of the package `lasm` prints, and `rows` is its `rows`, where
`firstFrom` stands for `partition_point`.
-/
import StackMachine.Assembly.Basic
import StackMachine.Instruction
import StackMachine.Text.Blank

set_option autoImplicit false

namespace StackMachine.Assembly

open Source

/-- A row of the listing. -/
inductive Row where
  /-- A line without instructions, in the given style. -/
  | text (number : Nat) (style : Text.Style) (source : String)
  /-- An instruction and its words. The first row of a line carries the line's
  number and text. -/
  | code (inst : Instruction) (words : List Word) (line : Option (Nat × String))
  deriving DecidableEq, Repr

namespace Row

/-- The row as printed. -/
def render : Row → String
  | text number style source =>
    Text.fill 13 ' ' ++ "| " ++ Text.padLeft 4 ' ' (toString number) ++ " | "
      ++ Text.paint [style] source
  | code inst words line =>
    let hex := String.intercalate " " (words.map fun w => Text.hex4 w.toNat)
    let place := "[" ++ Text.hex4 inst.address ++ "] " ++ Text.padRight 9 hex ++ "| "
    match line with
    | some (number, source) =>
      place ++ Text.padLeft 4 ' ' (toString number) ++ " | " ++ inst.text ++ "  "
        ++ Text.paint [.dim] source
    | none => place ++ Text.fill 4 ' ' ++ " | " ++ inst.text

end Row

/-- How many of the instructions `low` to `high` start before an address, added
to `low`: the first position at or after the address. The instructions are in
address order, so halving the interval finds it. -/
def firstFrom (insts : Array Instruction) (address : Nat) (low high : Nat) : Nat :=
  if low < high then
    let middle := (low + high) / 2
    if (insts[middle]?).any fun inst => inst.address < address then
      firstFrom insts address (middle + 1) high
    else firstFrom insts address low middle
  else low
termination_by high - low

/-- The rows of a line whose instructions start at `address`. -/
def codeRows (words : Program) (insts : Array Instruction) (line : Line) (address : Nat) :
    List Row :=
  let first := firstFrom insts address 0 insts.size
  (insts.extract first (first + line.codes.length)).toList.zipIdx.map fun (inst, k) =>
    .code inst (words.extract inst.address inst.next).toList
      (if k = 0 then some (line.number, Text.trim line.raw) else none)

/-- The rows of a line. -/
def lineRows (assembly : Assembly) (insts : Array Instruction) (line : Line) : List Row :=
  match line.statement with
  | none => [.text line.number .dim (Text.trim line.raw)]
  | some (.label _) => [.text line.number .green (Text.trim line.raw)]
  | some (.code _) =>
    match assembly.tables.line? line.number with
    | none => []
    | some address => codeRows assembly.words insts line address

/-- The rows of the listing. -/
def rows (assembly : Assembly) : List Row :=
  let insts := (disassemble assembly.words).instructions
  assembly.lines.flatMap (assembly.lineRows insts)

/-- The listing as printed, under a rule that names the source file. -/
def listing (assembly : Assembly) (path : String) : String :=
  let head := Text.fill 13 '-' ++ "+------[" ++ path ++ "]"
    ++ Text.fill (36 - path.utf8ByteSize) '-'
  let foot := Text.fill 13 '-' ++ "+------+" ++ Text.fill 43 '-'
  String.join (([head] ++ assembly.rows.map Row.render ++ [foot]).map (· ++ "\n"))

end StackMachine.Assembly
