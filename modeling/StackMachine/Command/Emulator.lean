/-
The emulator as a command: loads an image, or assembles a source file, and runs
it with what it writes going to the terminal.

Options come from a file first and from the arguments on top: a flag can only
be switched on, and a step limit replaces the one of the file.

This is the program `lemu`; `Settings` is its `Args`, `LoadError` its `LoadError`, and
`loadProgram` its `load`.
-/
import StackMachine.Assembly.Basic
import StackMachine.Command.Arguments
import StackMachine.Command.Host
import StackMachine.Command.Level
import StackMachine.Config.Basic
import StackMachine.Image
import StackMachine.Machine.Hook

set_option autoImplicit false

namespace StackMachine.Command.Emulator

/-! ## Arguments -/

/-- What the arguments say. -/
structure Settings where
  input : Option String := none
  config : Option String := none
  options : Options := {}
  level : Option Level := none
  deriving DecidableEq, Repr

/-- Reads a step limit, which has to fit in 64 bits. -/
def stepLimit? (text : String) : Option Nat :=
  (number? text).filter (· < numberLimit)

/-- The arguments of the emulator. Each may be given once. -/
def grammar : Grammar Settings where
  switches :=
    [⟨'t', "tmax", true⟩, ⟨'s', "shorten", false⟩, ⟨'d', "debug", false⟩,
      ⟨'c', "config", true⟩, ⟨'l', "log-level", true⟩]
  accept := fun settings argument =>
    match argument with
    | .positional text =>
      if settings.input.isSome then none else some { settings with input := some text }
    | .valued "tmax" value =>
      if settings.options.tmax.isSome then none
      else (stepLimit? value).map fun limit =>
        { settings with options := { settings.options with tmax := some limit } }
    | .flag "shorten" =>
      if settings.options.shorten then none
      else some { settings with options := { settings.options with shorten := true } }
    | .flag "debug" =>
      if settings.options.debug then none
      else some { settings with options := { settings.options with debug := true } }
    | .valued "config" value =>
      if settings.config.isSome then none else some { settings with config := some value }
    | .valued "log-level" value =>
      if settings.level.isSome then none
      else (Level.ofText? value).map fun level => { settings with level := some level }
    | _ => none

/-- Options of a file, with those of the arguments on top. -/
def combine (file arguments : Options) : Options where
  shorten := file.shorten || arguments.shorten
  debug := file.debug || arguments.debug
  tmax := arguments.tmax.or file.tmax

/-! ## Loading -/

/-- Why a run could not be prepared. -/
inductive LoadError where
  | file (path : String) (cause : FileError)
  /-- The options file could be opened, but not read. -/
  | configFile (path : String) (cause : FileError)
  | config (path : String) (cause : Config.Failure)
  | image (path : String) (cause : Image.Error)
  /-- The source does not assemble. -/
  | source (path text : String) (cause : Source.Error)

namespace LoadError

/-- The wording of a failure. -/
def message : LoadError → String
  | file path cause => "Failed to read `" ++ path ++ "`: " ++ cause.message
  | configFile path cause => "Failed to parse config `" ++ path ++ "`: " ++ cause.message
  | config path cause => "Failed to parse config `" ++ path ++ "`: " ++ cause.message
  | image path cause => "Broken image `" ++ path ++ "`: " ++ cause.message
  | source _ _ cause => cause.message

/-- What is printed about a failure: one line or, for a source error, its
diagnostic. -/
def report (e : LoadError) : String :=
  match e with
  | source path text cause => cause.diagnostic path text
  | e => Text.paint [.red, .bold] "error" ++ ": " ++ e.message ++ "\n"

end LoadError

/-- Whether a path names an image: its last component ends in `.bin`, after at
least one other character. -/
def isImage (path : String) : Bool :=
  let components := (path.splitOn "/").filter fun part => part != "" && part != "."
  match components.getLast? with
  | none => false
  | some name => (name.toList.drop 1).reverse.take 4 == ['n', 'i', 'b', '.']

variable {m : Type → Type} [Monad m]

/-- The options of a file. A directory can be opened, so it fails later than a file
that is not there. -/
def loadOptions (host : Host m) (path : String) : m (Except LoadError Options) := do
  match ← host.readBytes path with
  | .error .isDirectory => return .error (.configFile path .isDirectory)
  | .error e => return .error (.file path e)
  | .ok bytes => return (Config.read bytes).mapError (.config path)

/-- The program of an image or of a source file. -/
def loadProgram (host : Host m) (path : String) : m (Except LoadError Program) := do
  if isImage path then
    match ← host.readBytes path with
    | .error e => return .error (.file path e)
    | .ok bytes => return (Image.decode bytes.toList).mapError (.image path)
  else
    match ← host.readText path with
    | .error e => return .error (.file path e)
    | .ok text => return (compile text).mapError (.source path text)

/-! ## Running -/

/-- Loop turns between two times that what was printed is passed on. -/
def slice : Nat := 4096

/-- Runs on in slices, passing on what each prints, and says how the run ended.
The run has made `time` steps. -/
def runSlices (host : Host m) (options : Options) :
    Nat → Nat → Machine → Console → m Ending
  | 0, _, _, _ => return .unfinished
  | slices + 1, time, machine, console => do
    let outcome := Machine.runFrom Console.observe options slice time machine console
    host.print outcome.observer.text
    match outcome.ending with
    | .unfinished =>
      runSlices host options slices (time + slice) outcome.machine
        { outcome.observer with printed := #[] }
    | ending => return ending

/-- Runs a program from the start, printing as it goes. -/
def runPrinting (host : Host m) (options : Options) (program : Program) : m Ending :=
  let machine := Machine.load program
  let console := (Console.standard true options).observe (.start machine)
  runSlices host options (options.fuel / slice + 1) 0 machine console

/-- Runs a program and reports how the run ended. -/
def execute (host : Host m) (options : Options) (program : Program) : m UInt32 := do
  host.printLine "[INIT]"
  let ending ← runPrinting host options program
  host.printLine (Text.fill 49 '=')
  match ending with
  | .halted stack =>
    host.printLine (Text.paint [.green, .bold] "HALT" ++ " "
      ++ Text.bracketed (stack.map fun w => toString w.toNat))
    return success
  | .faulted fault =>
    host.printLine (Text.paint [.red, .bold] "error" ++ ": " ++ fault.message)
    return failure
  | .unfinished => return failure

/-- Loads what the settings name and runs it. -/
def work (host : Host m) (settings : Settings) : m UInt32 := do
  let input := settings.input.getD "main.lasm.bin"
  let rule := "+" ++ Text.fill 47 '-' ++ "+"
  host.printLine "Stack Machine Emulator"
  host.printLine rule
  host.printLine ("| " ++ Text.padRight 45 input ++ " |")
  host.printLine rule
  let file ← match settings.config with
    | some path => loadOptions host path
    | none => pure (.ok {})
  match file with
  | .error e =>
    host.print e.report
    return failure
  | .ok file =>
    match ← loadProgram host input with
    | .error e =>
      host.print e.report
      return failure
    | .ok program => execute host (combine file settings.options) program

/-- Runs the emulator and returns its exit code. -/
def run (host : Host m) (arguments : List String) : m UInt32 := do
  match grammar.read {} arguments with
  | .ok settings => work host settings
  | .error .usage => return misuse
  | .error .help => return success
  | .error .version =>
    host.printLine "Stack Machine Emulator v1.0.0"
    return success

end StackMachine.Command.Emulator
