/-
A directory held in memory, with all that was printed: the surroundings of a
command as a value.
-/
import StackMachine.Command.Host

set_option autoImplicit false

namespace StackMachine.Command

/-- Files by name, and the pieces printed so far. -/
structure Directory where
  files : List (String × ByteArray) := []
  printed : Array String := #[]

namespace Directory

/-- The content of a file. -/
def get? (directory : Directory) (name : String) : Option ByteArray :=
  directory.files.lookup name

/-- Writes a file, over the one of that name if there is one. -/
def put (directory : Directory) (name : String) (bytes : ByteArray) : Directory :=
  { directory with files := (name, bytes) :: directory.files.filter fun file => file.1 != name }

/-- What a path leads to. The directory has no other directories in it, and of
those around it nothing is known but that they are there. -/
inductive Target where
  | file (name : String)
  | directory
  /-- The device that is empty and takes whatever is written. -/
  | nullDevice
  deriving DecidableEq, Repr

/-- The longest name of a file, in bytes. -/
def nameLimit : Nat := 255

/-- The longest path, in bytes. -/
def pathLimit : Nat := 4095

/-- Follows the parts of a path from the directory, or from one around it. Empty
parts and single dots lead nowhere else. A path that goes on behind a name needs
a directory there; if nothing but slashes follow, `creating` decides what is
wrong, since a file that is to be written need not be there. -/
def follow (directory : Directory) (creating inside : Bool) :
    List String → Except FileError Target
  | [] => .ok .directory
  | part :: rest =>
    if part == "" || part == "." then follow directory creating inside rest
    else if part == ".." then follow directory creating false rest
    else if nameLimit < part.utf8ByteSize then .error .nameTooLong
    else if !inside then .error .notFound
    else if rest.isEmpty then .ok (.file part)
    else if creating && rest.all (· == "") then .error .isDirectory
    else if (directory.get? part).isSome then .error .notDirectory
    else .error .notFound

/-- Whether a path names the null device. -/
def isNullDevice (path : String) : Bool :=
  let parts := path.splitOn "/"
  parts.head? == some "" && parts.getLast? == some "null"
    && parts.filter (fun part => part != "" && part != ".") == ["dev", "null"]

/-- What a path leads to. -/
def locate (directory : Directory) (creating : Bool) (path : String) :
    Except FileError Target :=
  if path == "" then .error .notFound
  else if pathLimit < path.utf8ByteSize then .error .nameTooLong
  else if isNullDevice path then .ok .nullDevice
  else follow directory creating (path.toList.head? != some '/') (path.splitOn "/")

/-- The content of the file that a path leads to. -/
def readPath (directory : Directory) (path : String) : Except FileError ByteArray :=
  match directory.locate false path with
  | .error e => .error e
  | .ok .directory => .error .isDirectory
  | .ok .nullDevice => .ok .empty
  | .ok (.file name) => (directory.get? name).elim (.error .notFound) .ok

/-- Writes the file that a path leads to. -/
def writePath (directory : Directory) (path : String) (bytes : ByteArray) :
    Except FileError Directory :=
  match directory.locate true path with
  | .error e => .error e
  | .ok .directory => .error .isDirectory
  | .ok .nullDevice => .ok directory
  | .ok (.file name) => .ok (directory.put name bytes)

/-- All that was printed. -/
def text (directory : Directory) : String :=
  String.join directory.printed.toList

/-- A directory as the surroundings of a command. -/
def host : Host (StateM Directory) where
  print := fun text => modify fun directory =>
    { directory with printed := directory.printed.push text }
  readBytes := fun path => do
    return (← get).readPath path
  writeBytes := fun path bytes => do
    match (← get).writePath path bytes with
    | .ok directory =>
      set directory
      return .ok ()
    | .error e => return .error e

end Directory

end StackMachine.Command
