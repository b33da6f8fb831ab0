/-
One instruction.

The machine first moves on to the address behind the instruction, so that a
jump overwrites it and a call can save it. Operands come off the stack from the
top: in the comments, `a` is the topmost value, `b` the one below, `c` the third.

`step` is the `step` of `Machine` in the package `lemu`, and `Flow` its `Flow`.
-/
import StackMachine.Machine.Basic

set_option autoImplicit false

namespace StackMachine

/-- How an instruction ends when nothing goes wrong. -/
inductive Flow where
  /-- The next instruction follows. -/
  | next
  /-- A value was written; the next instruction follows. -/
  | write (value : Word)
  /-- The state is to be shown; the next instruction follows. -/
  | debug
  /-- The program is over. -/
  | halt
  deriving DecidableEq, Repr

namespace Machine

open Exec

/-- Replaces `b a` by `f b a`. -/
def binary (inst : Instruction) (f : Word → Word → Word) : Exec Flow := do
  let a ← pop inst
  let b ← pop inst
  push inst (f b a)
  return .next

/-- Replaces `a` by `f a`. -/
def unary (inst : Instruction) (f : Word → Word) : Exec Flow := do
  let a ← pop inst
  push inst (f a)
  return .next

/-- Takes `b a` off the stack and goes to `a` if `b` passes the test. -/
def jumpOne (inst : Instruction) (test : Word → Bool) : Exec Flow := do
  let a ← pop inst
  let b ← pop inst
  jumpIf (test b) a.toNat
  return .next

/-- Takes `c b a` off the stack and goes to `a` if `c` and `b` pass the test. -/
def jumpTwo (inst : Instruction) (test : Word → Word → Bool) : Exec Flow := do
  let a ← pop inst
  let b ← pop inst
  let c ← pop inst
  jumpIf (test c b) a.toNat
  return .next

/-- The work of an instruction after the machine has moved on behind it. -/
def operate (inst : Instruction) : Exec Flow :=
  match inst.op with
  | .nop | .db | .read => return .next
  | .push =>
    match inst.operand with
    | some w => do
      push inst w
      return .next
    | none => fail (.missingOperand inst.op inst.address)
  | .pop => do
    let _ ← pop inst
    return .next
  | .add => binary inst fun b a => b + a
  | .sub => binary inst fun b a => b - a
  | .mul => binary inst fun b a => b * a
  | .and => binary inst fun b a => b &&& a
  | .or => binary inst fun b a => b ||| a
  | .xor => binary inst fun b a => b ^^^ a
  | .div => do
    let a ← pop inst
    let b ← pop inst
    if a = 0 then fail (.divisionByZero inst.address)
    else
      push inst (b / a)
      return .next
  | .inc => unary inst fun a => a + 1
  | .dec => unary inst fun a => a - 1
  | .shl => unary inst fun a => a <<< 1
  | .shr => unary inst fun a => a >>> 1
  | .not => unary inst fun a => ~~~a
  | .swp => do
    let a ← pop inst
    let b ← pop inst
    pushAll inst [a, b]
    return .next
  | .dup => do
    let a ← pop inst
    pushAll inst [a, a]
    return .next
  | .dup2 => do
    let a ← pop inst
    let b ← pop inst
    pushAll inst [b, a, b, a]
    return .next
  | .ovr => do
    let a ← pop inst
    let b ← pop inst
    pushAll inst [b, a, b]
    return .next
  | .rot => do
    let a ← pop inst
    let b ← pop inst
    let c ← pop inst
    pushAll inst [b, a, c]
    return .next
  | .sp => do
    let a ← pop inst
    place inst a.toNat
    return .next
  | .spi => do
    raise inst
    return .next
  | .spd => do
    lower inst
    return .next
  | .jmp | .ret => do
    let a ← pop inst
    jump a.toNat
    return .next
  | .jmpz => jumpOne inst fun b => b == 0
  | .jmpnz => jumpOne inst fun b => b != 0
  | .jmpe => jumpTwo inst fun c b => c == b
  | .jmpne => jumpTwo inst fun c b => c != b
  | .jmpg => jumpTwo inst fun c b => c > b
  | .jmpge => jumpTwo inst fun c b => c ≥ b
  | .jmpl => jumpTwo inst fun c b => c < b
  | .jmple => jumpTwo inst fun c b => c ≤ b
  | .proc => do
    let a ← pop inst
    let ret ← returnAddress inst
    push inst ret
    jump a.toNat
    return .next
  | .write => do
    let a ← pop inst
    return .write a
  | .debug => return .debug
  | .halt => return .halt

/-- Executes one instruction, whether or not it stands in the program. -/
def step (m : Machine) (inst : Instruction) : EStateM.Result Fault Machine Flow :=
  operate inst { m with ip := inst.next }

end Machine

end StackMachine
