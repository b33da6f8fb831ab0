/-
The assembler as a command: reads a source file, writes the image beside it,
and shows the listing if asked to.

This is the program `lasm`; `Settings` is its `Args`.
-/
import StackMachine.Assembly.Listing
import StackMachine.Command.Arguments
import StackMachine.Command.Host
import StackMachine.Command.Level
import StackMachine.Image

set_option autoImplicit false

namespace StackMachine.Command.Assembler

/-- What the arguments say. -/
structure Settings where
  input : Option String := none
  output : Option String := none
  dump : Bool := false
  level : Option Level := none
  deriving DecidableEq, Repr

/-- The arguments of the assembler. Each may be given once. -/
def grammar : Grammar Settings where
  switches :=
    [⟨'o', "output", true⟩, ⟨'d', "dump", false⟩, ⟨'l', "log-level", true⟩]
  accept := fun settings argument =>
    match argument with
    | .positional text =>
      if settings.input.isSome then none else some { settings with input := some text }
    | .valued "output" value =>
      if settings.output.isSome then none else some { settings with output := some value }
    | .flag "dump" => if settings.dump then none else some { settings with dump := true }
    | .valued "log-level" value =>
      if settings.level.isSome then none
      else (Level.ofText? value).map fun level => { settings with level := some level }
    | _ => none

variable {m : Type → Type} [Monad m]

/-- Writes the image of an assembled program and reports on it. -/
def store (host : Host m) (input output : String) (dump : Bool) (assembly : Assembly) :
    m UInt32 := do
  host.printLine "3. Write Binary"
  host.printLine ("  > " ++ output)
  let image := ByteArray.mk (Image.encode assembly.words).toArray
  match ← host.writeBytes output image with
  | .error e =>
    host.printLine (Text.paint [.red, .bold] "Failed to write File" ++ ": " ++ output ++ ": "
      ++ e.message)
    return failure
  | .ok () =>
    host.printLine ("  " ++ Text.paint [.green] (toString assembly.words.size) ++ " words")
    if assembly.tables.isEmpty then
      host.printLine ("  " ++ Text.paint [.yellow, .bold] "warning"
        ++ ": no instructions, the image is empty")
    if dump then
      host.print (assembly.listing input)
    return success

/-- Does what the settings say. -/
def work (host : Host m) (settings : Settings) : m UInt32 := do
  let input := settings.input.getD "main.lasm"
  let output := settings.output.getD (input ++ ".bin")
  host.printLine "Stack Machine Assembler"
  host.printLine "1. Read File"
  host.printLine ("  < " ++ input)
  match ← host.readText input with
  | .error e =>
    host.printLine (Text.paint [.red, .bold] "Failed to open File" ++ ": " ++ input ++ ": "
      ++ e.message)
    return failure
  | .ok source =>
    host.printLine "2. Assemble & Resolve Labels"
    match assemble source with
    | .error e =>
      host.print (e.diagnostic input source)
      return failure
    | .ok assembly => store host input output settings.dump assembly

/-- Runs the assembler and returns its exit code. -/
def run (host : Host m) (arguments : List String) : m UInt32 := do
  match grammar.read {} arguments with
  | .ok settings => work host settings
  | .error .usage => return misuse
  | .error .help => return success
  | .error .version =>
    host.printLine "lasm 0.1.0"
    return success

end StackMachine.Command.Assembler
