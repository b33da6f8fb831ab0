/-
The state of the machine, and its stack.

`sp` counts the live cells: the next value pushed goes to cell `sp`. `fp` moves
with every push and pop, but not when `sp` is moved by itself, so `sp` can be
placed again relative to it. A value that is popped stays in its cell until
something else is pushed there.

State and fault are returned together. A fault does not undo what the
instruction did before it, and the machine can be looked at or run on from
there.

`Machine` is `Machine` of the package `lemu`: `load` is its `new`, and `live`, `fetch`, `pop`,
`push` and `pushAll` are its methods of these names.
-/
import StackMachine.Machine.Fault

set_option autoImplicit false

namespace StackMachine

/-- A machine and the program it runs. -/
structure Machine where
  program : Program
  stack : Vector Word stackCapacity
  /-- Number of live cells. -/
  sp : Nat
  /-- Frame pointer. -/
  fp : Nat
  /-- Address of the next instruction. -/
  ip : Nat
  deriving DecidableEq

namespace Machine

/-- A machine about to run a program: the stack is empty and all cells zero. -/
def load (program : Program) : Machine where
  program := program
  stack := Vector.replicate stackCapacity 0
  sp := 0
  fp := 0
  ip := 0

/-- The live cells, from the bottom of the stack. -/
def live (m : Machine) : List Word :=
  m.stack.toList.take m.sp

/-- Decodes the instruction at `ip`. -/
def fetch (m : Machine) : Except Fault Instruction :=
  match decodeAt m.program m.ip with
  | .ok (some inst) => .ok inst
  | .ok none => .error (.programEnded m.ip)
  | .error e => .error (.ofDecodeError e m.ip)

/-- A piece of an instruction's work: it changes the machine and then has a
result or a fault. -/
abbrev Exec := EStateM Fault Machine

namespace Exec

/-- Takes the topmost value off the stack, for the given instruction. -/
def pop (inst : Instruction) : Exec Word := fun m =>
  if m.sp = 0 then .error (.stackUnderflow inst.op inst.address) m
  else .ok ((m.stack[m.sp - 1]?).getD 0) { m with sp := m.sp - 1, fp := m.fp - 1 }

/-- Puts a value on the stack, for the given instruction. -/
def push (inst : Instruction) (value : Word) : Exec Unit := fun m =>
  if m.sp < stackCapacity then
    .ok () { m with
      stack := m.stack.setIfInBounds m.sp value
      sp := m.sp + 1
      fp := m.fp + 1 }
  else .error (.stackOverflow inst.op inst.address) m

/-- Puts values on the stack one after the other. -/
def pushAll (inst : Instruction) : List Word → Exec Unit
  | [] => pure ()
  | value :: values => do
    push inst value
    pushAll inst values

/-- Goes on at an address. -/
def jump (address : Nat) : Exec Unit := fun m =>
  .ok () { m with ip := address }

/-- Goes on at an address if a condition holds. -/
def jumpIf (condition : Bool) (address : Nat) : Exec Unit :=
  if condition then jump address else pure ()

/-- Places the stack pointer `distance` cells below the frame pointer. -/
def place (inst : Instruction) (distance : Nat) : Exec Unit := fun m =>
  if distance ≤ m.fp ∧ m.fp - distance ≤ stackCapacity then
    .ok () { m with sp := m.fp - distance }
  else .error (.stackPointerOutOfBounds inst.op inst.address) m

/-- Adds the next cell to the live ones, with the value it has. -/
def raise (inst : Instruction) : Exec Unit := fun m =>
  if m.sp < stackCapacity then .ok () { m with sp := m.sp + 1 }
  else .error (.stackOverflow inst.op inst.address) m

/-- Takes the topmost cell off the live ones. -/
def lower (inst : Instruction) : Exec Unit := fun m =>
  if m.sp = 0 then .error (.stackUnderflow inst.op inst.address) m
  else .ok () { m with sp := m.sp - 1 }

/-- The address of the next instruction as a word. -/
def returnAddress (inst : Instruction) : Exec Word := fun m =>
  match Word.ofNat? m.ip with
  | some w => .ok w m
  | none => .error (.returnAddressOutOfRange inst.op inst.address m.ip) m

/-- Stops with a fault. -/
def fail {α : Type} (fault : Fault) : Exec α := fun m =>
  .error fault m

end Exec

end Machine

end StackMachine
