/-
The image of a program as bytes: its words in order, low byte first. A file is
an image exactly when it has an even number of bytes.

`encode` and `decode` are `to_bytes` and `from_bytes` of the package `arch`, and `Error` is
`ImageError`.
-/
import StackMachine.Word

set_option autoImplicit false

namespace StackMachine.Image

/-- Why bytes are no image. -/
inductive Error where
  /-- The number of bytes is odd. -/
  | truncated (length : Nat)
  deriving DecidableEq, Repr

/-- The wording of an image failure. -/
def Error.message : Error → String
  | truncated length => "Image length " ++ toString length ++ " is not a multiple of the word size"

/-- The two bytes of a word, low byte first. -/
def bytesOfWord (w : Word) : List UInt8 :=
  [w.toUInt8, (w >>> 8).toUInt8]

/-- The word with the given low and high byte. -/
def wordOfBytes (low high : UInt8) : Word :=
  low.toUInt16 ||| (high.toUInt16 <<< 8)

/-- The image of a program. -/
def encode (program : Program) : List UInt8 :=
  program.toList.flatMap bytesOfWord

/-- Reads bytes two by two, adding to the words already read. A last single
byte is left out. -/
def pairUp (words : Program) : List UInt8 → Program
  | low :: high :: rest => pairUp (words.push (wordOfBytes low high)) rest
  | _ => words

/-- The program of an image. -/
def decode (bytes : List UInt8) : Except Error Program :=
  if bytes.length % 2 = 0 then .ok (pairUp #[] bytes) else .error (.truncated bytes.length)

end StackMachine.Image
