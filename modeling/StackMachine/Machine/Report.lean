/-
The machine state as a table for the terminal: the three registers, then the
cells from the top down. Cells up to the higher of `sp` and `fp` are shown, so
that a frame above the live cells stays visible; those that are not live are
dimmed.

`report` is what `print_state` of the package `lemu` prints.
-/
import StackMachine.Machine.Basic

set_option autoImplicit false

namespace StackMachine.Machine

/-- The mark of the cell right below a pointer. -/
def pointerMark (m : Machine) (index : Nat) : String :=
  match index + 1 == m.sp, index + 1 == m.fp with
  | true, true => "<- sp fp"
  | true, false => "<- sp"
  | false, true => "<- fp"
  | false, false => ""

/-- The row of a cell. -/
def cellRow (m : Machine) (value : Word) (index : Nat) : String :=
  let style : Text.Style := if index < m.sp then .yellow else .dim
  " | " ++ Text.hex4 index ++ " : " ++ Text.paint [style] (Text.hex4 value.toNat) ++ " "
    ++ Text.padLeft 6 ' ' (toString (Word.signed value)) ++ " "
    ++ Text.padRight 14 (m.pointerMark index) ++ "|\n"

/-- The whole table. -/
def report (m : Machine) : String :=
  let rule := " +------------+------------+------------+\n"
  let shown := m.stack.toList.take (max m.sp m.fp)
  rule
    ++ " |   ip: " ++ Text.hex4 m.ip ++ " |   sp: " ++ Text.hex4 m.sp
    ++ " |   fp: " ++ Text.hex4 m.fp ++ " |\n"
    ++ rule
    ++ String.join (shown.zipIdx.reverse.map fun (value, index) => m.cellRow value index)
    ++ " +--------------------------------------+\n"

end StackMachine.Machine
