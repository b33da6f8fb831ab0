/-
Assembling a source text: read the lines, collect the tables, emit the slots,
resolve them. Each stage is over before the next one starts, so an error of an
earlier stage wins over one of a later stage wherever the two stand.

`Assembly`, `assemble` and `compile` are those of the package `lasm`.
-/
import StackMachine.Assembly.Slot
import StackMachine.Text.Lines

set_option autoImplicit false

namespace StackMachine

open Source

/-- An assembled program, with the lines and the tables it was made from. -/
structure Assembly where
  lines : List Line
  tables : Assembly.Tables
  words : Program

namespace Assembly

/-- Reads the lines of a source text. -/
def readLines (source : String) : Except Error (List Line) :=
  ((Text.lines source).zipIdx 1).mapM fun (raw, number) => Line.parse number raw

/-- Assembles lines that are already read. -/
def ofLines (lines : List Line) : Except Error Assembly := do
  let tables ← Tables.collect lines
  let words ← resolve tables (emit lines)
  return ⟨lines, tables, words.toArray⟩

end Assembly

/-- Assembles a source text. -/
def assemble (source : String) : Except Error Assembly := do
  Assembly.ofLines (← Assembly.readLines source)

/-- The program of a source text. -/
def compile (source : String) : Except Error Program :=
  (assemble source).map Assembly.words

end StackMachine
