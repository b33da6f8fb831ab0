/-
What a command needs from its surroundings: a place to print, and files. The
commands are written over any host, so that the same definitions run on the
real file system and on a directory held in memory.
-/
set_option autoImplicit false

namespace StackMachine.Command

/-- Why a file could not be read or written. -/
inductive FileError where
  | notFound
  /-- A file is used as a directory. -/
  | notDirectory
  /-- A directory is used as a file. -/
  | isDirectory
  | nameTooLong
  /-- The file is read as text and is not UTF-8. -/
  | invalidText
  /-- Any other failure, in the system's own words. -/
  | system (text : String)
  deriving DecidableEq, Repr

/-- The wording of a file failure. -/
def FileError.message : FileError → String
  | notFound => "No such file or directory (os error 2)"
  | notDirectory => "Not a directory (os error 20)"
  | isDirectory => "Is a directory (os error 21)"
  | nameTooLong => "File name too long (os error 36)"
  | invalidText => "stream did not contain valid UTF-8"
  | system text => text

/-- The surroundings of a command. -/
structure Host (m : Type → Type) where
  print : String → m Unit
  readBytes : String → m (Except FileError ByteArray)
  writeBytes : String → ByteArray → m (Except FileError Unit)

namespace Host

variable {m : Type → Type} [Monad m]

/-- Prints a line. -/
def printLine (host : Host m) (text : String) : m Unit :=
  host.print (text ++ "\n")

/-- Reads a file as text. -/
def readText (host : Host m) (path : String) : m (Except FileError String) := do
  match ← host.readBytes path with
  | .error e => return .error e
  | .ok bytes =>
    match String.fromUTF8? bytes with
    | some text => return .ok text
    | none => return .error .invalidText

end Host

/-- The exit code of a command that did its work. -/
def success : UInt32 := 0

/-- The exit code of a command that could not do its work. -/
def failure : UInt32 := 1

/-- The exit code of a command that does not accept its arguments. -/
def misuse : UInt32 := 2

end StackMachine.Command
