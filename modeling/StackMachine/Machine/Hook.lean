/-
Observers of a run.

A hook keeps what it needs to remember and may print a piece of text at an
event. Hooks in a list are told each event in list order. They see the machine
and never change it, and they do not see each other.

`Record` and the cases of `Hook` are `Record`, `Serial`, `Dump` and `Trace` of the package `lemu`.
`Console` is a list of hooks with what they have printed; `standard` is `console`, and `runProgram`
is `run_with`.
-/
import StackMachine.Machine.Run
import StackMachine.Machine.Report

set_option autoImplicit false

namespace StackMachine

/-! ## Recording -/

/-- Everything that was observed. -/
structure Record where
  /-- How many runs started. -/
  starts : Nat := 0
  /-- Number and address of every reported step. -/
  steps : Array (Nat × Nat) := #[]
  /-- The values written. -/
  writes : Array Word := #[]
  /-- The live cells whenever the program asked to show them. -/
  debugs : Array (List Word) := #[]
  deriving DecidableEq, Repr

/-- Takes one event down. -/
def Record.observe (record : Record) : Event → Record
  | .start _ => { record with starts := record.starts + 1 }
  | .exec time inst _ => { record with steps := record.steps.push (time, inst.address) }
  | .write value => { record with writes := record.writes.push value }
  | .debug machine => { record with debugs := record.debugs.push machine.live }

/-! ## Printing -/

/-- A hook with its memory. -/
inductive Hook where
  /-- Prints every value written, with emphasis if `styled`. -/
  | serial (styled : Bool)
  /-- Prints the machine when the program asks for it, and counts how often. -/
  | dump (count : Nat)
  /-- Prints every reported step. -/
  | trace
  /-- Prints nothing and keeps everything. -/
  | record (record : Record)

namespace Hook

/-- The line for a value written. -/
def writeLine (styled : Bool) (value : Word) : String :=
  let number := toString value.toNat
  if styled then " > " ++ Text.paint [.red, .bold] number ++ "\n" else number ++ "\n"

/-- The line for a step about to be made. The instruction's column counts the
control characters of its colours. -/
def traceLine (time : Nat) (inst : Instruction) (m : Machine) : String :=
  "[" ++ Text.padLeft 4 '0' (toString time) ++ "] [" ++ Text.hex4 inst.address ++ "] "
    ++ Text.padRight 32 inst.text
    ++ " sp=" ++ Text.padRight 3 (toString m.sp) ++ " fp=" ++ Text.padRight 3 (toString m.fp)
    ++ " " ++ Text.bracketed (m.live.map fun w => toString w.toNat) ++ "\n"

/-- Tells a hook an event: the hook afterwards and what it printed. -/
def observe (hook : Hook) (event : Event) : Hook × Option String :=
  match hook, event with
  | serial styled, .write value => (hook, some (writeLine styled value))
  | dump count, .debug machine =>
    (dump (count + 1),
      some (Text.paint [.magenta, .bold] "DEBUG" ++ " #" ++ toString (count + 1) ++ "\n"
        ++ machine.report))
  | trace, .start machine =>
    (hook, some (" * Trace: " ++ toString machine.program.size ++ " words\n"))
  | trace, .exec time inst machine => (hook, some (traceLine time inst machine))
  | record kept, _ => (record (kept.observe event), none)
  | _, _ => (hook, none)

end Hook

/-! ## Several hooks -/

/-- Hooks and the pieces of text they have printed so far, in order. -/
structure Console where
  hooks : List Hook
  printed : Array String := #[]

namespace Console

/-- Tells every hook an event. -/
def observe (console : Console) (event : Event) : Console :=
  let told := console.hooks.map fun hook => hook.observe event
  { hooks := told.map Prod.fst
    printed := console.printed ++ told.filterMap Prod.snd }

/-- All that was printed. -/
def text (console : Console) : String :=
  String.join console.printed.toList

/-- The hooks of an ordinary run: written values and the shown machine go to the
terminal, and so does every step in debug mode. -/
def standard (styled : Bool) (options : Options) : Console where
  hooks := [.serial styled, .dump 0] ++ (if options.debug then [.trace] else [])

end Console

/-- Runs a program from the start before a console. -/
def runProgram (program : Program) (options : Options) (console : Console) : Outcome Console :=
  Machine.run Console.observe options options.fuel (Machine.load program) console

end StackMachine
