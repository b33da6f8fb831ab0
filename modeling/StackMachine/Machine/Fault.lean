/-
What stops a run before it halts. A fault names the address of the instruction
it is about, which is where that instruction was fetched from.

`Fault` is `Error` of the package `lemu`.
-/
import StackMachine.Instruction

set_option autoImplicit false

namespace StackMachine

/-- A run-time condition that the machine does not go on from. -/
inductive Fault where
  /-- Taking a value off an empty stack. -/
  | stackUnderflow (op : Op) (address : Nat)
  /-- Putting a value on a full stack. -/
  | stackOverflow (op : Op) (address : Nat)
  /-- Moving the stack pointer out of the stack. -/
  | stackPointerOutOfBounds (op : Op) (address : Nat)
  | divisionByZero (address : Nat)
  /-- Fetching a word that is no tag. -/
  | unknownOpcode (word : Word) (address : Nat)
  /-- An instruction without the operand it needs. -/
  | missingOperand (op : Op) (address : Nat)
  /-- Saving a return address that is no word. -/
  | returnAddressOutOfRange (op : Op) (address : Nat) (ret : Nat)
  /-- Fetching from beyond the end of the program. -/
  | programEnded (address : Nat)
  /-- Running for more steps than allowed. -/
  | stepLimitExceeded (limit : Nat)
  deriving DecidableEq, Repr

namespace Fault

/-- A decoding failure as a fault at the address that was fetched from. -/
def ofDecodeError (e : DecodeError) (address : Nat) : Fault :=
  match e with
  | .unknownOpcode word => unknownOpcode word address
  | .missingOperand op => missingOperand op address

/-- The wording of a fault. -/
def message : Fault → String
  | stackUnderflow op address =>
    "Stack underflow on `" ++ op.name ++ "` at address " ++ toString address
  | stackOverflow op address =>
    "Stack overflow on `" ++ op.name ++ "` at address " ++ toString address
  | stackPointerOutOfBounds op address =>
    "Stack pointer out of bounds on `" ++ op.name ++ "` at address " ++ toString address
  | divisionByZero address => "Division by zero at address " ++ toString address
  | unknownOpcode word address =>
    "Unknown opcode 0x" ++ Text.hex4 word.toNat ++ " at address " ++ toString address
  | missingOperand op address =>
    "Missing operand for `" ++ op.name ++ "` at address " ++ toString address
  | returnAddressOutOfRange op address ret =>
    "Return address " ++ toString ret ++ " does not fit in a word, `" ++ op.name
      ++ "` at address " ++ toString address
  | programEnded address =>
    "Program ended without halt: no instruction at address " ++ toString address
  | stepLimitExceeded limit => "Step limit exceeded: " ++ toString limit

end Fault

end StackMachine
