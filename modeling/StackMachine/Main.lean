/-
The two commands on the real file system. The first argument says which:
`lasm` assembles, `lemu` runs.
-/
import StackMachine.Command.Assembler
import StackMachine.Command.Emulator

set_option autoImplicit false

namespace StackMachine.Command

/-- A failure of the system in the words of a command. -/
def FileError.ofSystem : IO.Error → FileError
  | .noFileOrDirectory _ _ _ => .notFound
  | .inappropriateType _ 20 _ => .notDirectory
  | .inappropriateType _ 21 _ => .isDirectory
  | e => .system (toString e)

/-- Standard output and the file system. -/
def systemHost : Host IO where
  print := fun text => do
    let out ← IO.getStdout
    out.putStr text
    out.flush
  readBytes := fun path => do
    match ← (IO.FS.readBinFile path).toBaseIO with
    | .ok bytes => return .ok bytes
    | .error e => return .error (.ofSystem e)
  writeBytes := fun path bytes => do
    match ← (IO.FS.writeBinFile path bytes).toBaseIO with
    | .ok () => return .ok ()
    | .error e => return .error (.ofSystem e)

end StackMachine.Command

open StackMachine.Command in
/-- Runs the command that the first argument names. -/
def main (arguments : List String) : IO UInt32 := do
  match arguments with
  | "lasm" :: rest => Assembler.run systemHost rest
  | "lemu" :: rest => Emulator.run systemHost rest
  | _ =>
    (← IO.getStderr).putStrLn "usage: lasm [ARGUMENTS] | lemu [ARGUMENTS]"
    return misuse
