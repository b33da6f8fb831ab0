/-
What an instruction does, in a normal form.

Every instruction works in the same order: it takes its operands off the stack,
and from these alone it is decided what follows. Either that is a fault, or values
are pushed, then the machine goes on elsewhere, and last the stack pointer is
moved by itself. `Op.pops` says how many operands there are, `effect` what
follows, and `step_eq` that executing an instruction is just this. A statement
about all operations then needs one argument for taking operands, one for each
part of an effect, and looks at the operations one by one only where they differ
in what their effect is.
-/
import StackMachine.Proofs.Machine.Exec

set_option autoImplicit false

namespace StackMachine

/-- Number of values that an operation takes off the stack. -/
def Op.pops : Op → Nat
  | .nop | .db | .read | .push | .spi | .spd | .debug | .halt => 0
  | .pop | .inc | .dec | .shl | .shr | .not | .dup | .sp | .jmp | .ret | .proc | .write => 1
  | .add | .sub | .mul | .div | .and | .or | .xor | .swp | .dup2 | .ovr | .jmpz | .jmpnz => 2
  | .rot | .jmpe | .jmpne | .jmpg | .jmpge | .jmpl | .jmple => 3

namespace Machine

open Exec

/-- Takes `n` values off the stack; the topmost comes first. -/
def Exec.popMany (inst : Instruction) : Nat → Exec (List Word)
  | 0 => pure []
  | n + 1 => do
    let a ← pop inst
    let rest ← popMany inst n
    return a :: rest

/-! ## Effects -/

/-- A way to move the stack pointer and not the frame pointer. -/
inductive Shift where
  /-- To a distance below the frame pointer. -/
  | place (distance : Nat)
  /-- One up. -/
  | raise
  /-- One down. -/
  | lower
  deriving DecidableEq, Repr

namespace Shift

/-- The operation that moves the stack pointer this way; it is the only one. -/
def op : Shift → Op
  | place _ => .sp
  | raise => .spi
  | lower => .spd

/-- Moves the stack pointer, for the given instruction. -/
def run (inst : Instruction) : Shift → Exec Unit
  | place distance => Exec.place inst distance
  | raise => Exec.raise inst
  | lower => Exec.lower inst

end Shift

/-- What an instruction that does not fault does after taking its operands. -/
structure Effect where
  /-- Values to push, the first one first. -/
  pushes : List Word := []
  /-- Where to go on, if not behind the instruction. -/
  target : Option Nat := none
  /-- How to move the stack pointer by itself. -/
  shift : Option Shift := none
  flow : Flow := .next
  deriving DecidableEq, Repr

namespace Effect

/-- The effect of a conditional jump. -/
def branch (taken : Bool) (target : Word) : Effect :=
  { target := if taken then some target.toNat else none }

/-- Has an effect, on behalf of an instruction. -/
def run (inst : Instruction) (e : Effect) : Exec Flow := do
  pushAll inst e.pushes
  (e.target.elim (pure ()) jump : Exec Unit)
  (e.shift.elim (pure ()) (Shift.run inst) : Exec Unit)
  return e.flow

end Effect

/-- The effect of an instruction on the operands `args`, or the fault that they
lead to. Of the operands, `a` is the topmost, `b` the one below, `c` the third. -/
def effect (inst : Instruction) (args : List Word) : Except Fault Effect :=
  let a := args.getD 0 0
  let b := args.getD 1 0
  let c := args.getD 2 0
  match inst.op with
  | .nop | .db | .read | .pop => .ok {}
  | .push =>
    match inst.operand with
    | some w => .ok { pushes := [w] }
    | none => .error (.missingOperand inst.op inst.address)
  | .add => .ok { pushes := [b + a] }
  | .sub => .ok { pushes := [b - a] }
  | .mul => .ok { pushes := [b * a] }
  | .and => .ok { pushes := [b &&& a] }
  | .or => .ok { pushes := [b ||| a] }
  | .xor => .ok { pushes := [b ^^^ a] }
  | .div => if a = 0 then .error (.divisionByZero inst.address) else .ok { pushes := [b / a] }
  | .inc => .ok { pushes := [a + 1] }
  | .dec => .ok { pushes := [a - 1] }
  | .shl => .ok { pushes := [a <<< 1] }
  | .shr => .ok { pushes := [a >>> 1] }
  | .not => .ok { pushes := [~~~a] }
  | .swp => .ok { pushes := [a, b] }
  | .dup => .ok { pushes := [a, a] }
  | .dup2 => .ok { pushes := [b, a, b, a] }
  | .ovr => .ok { pushes := [b, a, b] }
  | .rot => .ok { pushes := [b, a, c] }
  | .sp => .ok { shift := some (.place a.toNat) }
  | .spi => .ok { shift := some .raise }
  | .spd => .ok { shift := some .lower }
  | .jmp | .ret => .ok { target := some a.toNat }
  | .jmpz => .ok (.branch (b == 0) a)
  | .jmpnz => .ok (.branch (b != 0) a)
  | .jmpe => .ok (.branch (c == b) a)
  | .jmpne => .ok (.branch (c != b) a)
  | .jmpg => .ok (.branch (c > b) a)
  | .jmpge => .ok (.branch (c ≥ b) a)
  | .jmpl => .ok (.branch (c < b) a)
  | .jmple => .ok (.branch (c ≤ b) a)
  | .proc =>
    match Word.ofNat? inst.next with
    | some ret => .ok { pushes := [ret], target := some a.toNat }
    | none => .error (.returnAddressOutOfRange inst.op inst.address inst.next)
  | .write => .ok { flow := .write a }
  | .debug => .ok { flow := .debug }
  | .halt => .ok { flow := .halt }

/-- Goes on with an instruction that has taken its operands. -/
def settle (inst : Instruction) (args : List Word) : Exec Flow :=
  match effect inst args with
  | .ok e => e.run inst
  | .error fault => fail fault

/-- What an effect has that is particular to an operation is there for that operation. -/
structure Effect.Belongs (inst : Instruction) (e : Effect) : Prop where
  /-- The stack pointer is moved by itself only by the operation that does so. -/
  shift : ∀ shift, e.shift = some shift → shift.op = inst.op
  /-- Only the operation that halts ends the program. -/
  halt : e.flow = .halt → inst.op = .halt

theorem belongs_of_effect {inst : Instruction} {args : List Word} {e : Effect}
    (h : effect inst args = .ok e) : e.Belongs inst := by
  obtain ⟨address, op, operand⟩ := inst
  cases op with
  | sp | spi | spd =>
    rw [effect, Except.ok.injEq] at h
    subst h
    exact ⟨by simp [Shift.op], by simp⟩
  | halt =>
    rw [effect, Except.ok.injEq] at h
    subst h
    exact ⟨by simp, by simp⟩
  | push =>
    rcases operand with _ | w
    · simp [effect] at h
    · obtain rfl : _ = e := by simpa [effect] using h
      exact ⟨by simp, by simp⟩
  | div =>
    by_cases ha : args[0]?.getD 0 = 0
    · simp [effect, ha] at h
    · obtain rfl : _ = e := by simpa [effect, ha] using h
      exact ⟨by simp, by simp⟩
  | proc =>
    rcases hret : Word.ofNat? (Instruction.next ⟨address, .proc, operand⟩) with _ | ret
    · simp [effect, hret] at h
    · obtain rfl : _ = e := by simpa [effect, hret] using h
      exact ⟨by simp, by simp⟩
  | _ =>
    -- the effect of any other operation has neither
    rw [effect, Except.ok.injEq] at h
    subst h
    exact ⟨by simp [Effect.branch], by simp [Effect.branch]⟩

/-! ## The normal form -/

theorem jumpIf_eq (taken : Bool) (target : Word) :
    jumpIf taken target.toNat
      = ((Effect.branch taken target).target.elim (pure ()) jump : Exec Unit) := by
  rcases taken with _ | _
  · rfl
  · rfl

/-- **Normal form**, but for a call: the operands, then what they lead to. -/
theorem operate_eq {inst : Instruction} (h : inst.op ≠ .proc) :
    operate inst = popMany inst inst.op.pops >>= settle inst := by
  obtain ⟨address, op, operand⟩ := inst
  cases op with
  | proc => exact absurd rfl h
  | push =>
    rcases operand with _ | w
    · simp [operate, Op.pops, popMany, settle, effect]
    · simp [operate, Op.pops, popMany, settle, effect, Effect.run, pushAll]
  | div =>
    simp only [operate, Op.pops, popMany, settle, effect, bind_assoc, pure_bind]
    -- whether there is a fault is known only when both operands are off the stack
    congr 1
    funext a
    congr 1
    funext b
    by_cases ha : a = 0
    · simp [ha]
    · simp [ha, Effect.run, pushAll]
  | _ =>
    simp [operate, binary, unary, jumpOne, jumpTwo, jumpIf_eq, Op.pops, popMany, settle, effect,
      Effect.run, Effect.branch, Shift.run, pushAll]

/-- **Normal form** of a call. It saves the address at which the machine goes
on, which is the one behind the call as long as nothing has been jumped to. -/
theorem operate_eq_of_ip {inst : Instruction} {m : Machine} (hop : inst.op = .proc)
    (hip : m.ip = inst.next) :
    operate inst m = (popMany inst inst.op.pops >>= settle inst) m := by
  obtain ⟨address, op, operand⟩ := inst
  subst hop
  simp only [operate, Op.pops, popMany, bind_assoc, pure_bind]
  apply bind_congr_of_ok
  intro a m' hpop
  -- taking the operand has not changed where the machine goes on
  have hip' : m'.ip = Instruction.next ⟨address, .proc, operand⟩ := by
    rw [(pop_eq_ok_iff.mp hpop).2.2]
    exact hip
  rcases hret : Word.ofNat? (Instruction.next ⟨address, .proc, operand⟩) with _ | ret
  · have hreturn : returnAddress ⟨address, .proc, operand⟩ m'
        = .error (.returnAddressOutOfRange .proc address
          (Instruction.next ⟨address, .proc, operand⟩)) m' := by
      simp only [returnAddress, hip', hret]
    rw [bind_of_error hreturn]
    simp [settle, effect, hret, fail]
  · have hreturn : returnAddress ⟨address, .proc, operand⟩ m' = .ok ret m' := by
      simp only [returnAddress, hip', hret]
    rw [bind_of_ok hreturn]
    simp [settle, effect, hret, Effect.run, pushAll]

/-- **Normal form.** Executing an instruction is to move on behind it, to take
its operands, and to do what they lead to. -/
theorem step_eq (m : Machine) (inst : Instruction) :
    m.step inst = (popMany inst inst.op.pops >>= settle inst) { m with ip := inst.next } := by
  by_cases hop : inst.op = .proc
  · exact operate_eq_of_ip hop rfl
  · rw [step, operate_eq hop]

end Machine

end StackMachine
