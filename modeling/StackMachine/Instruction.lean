/-
Decoded instructions.

`decodeAt` reads the one instruction whose tag stands at an address, and
`disassemble` walks a program from address zero, each instruction starting
where the one before it ends. Both say where an instruction ends by the size of
its operation only, so a word is read as a tag or as an operand according to
what stands before it, never according to its value.

`Instruction` is `Inst` of the package `arch`, and `decodeAt`, `next` and `text` are its
`decode`, `next` and `cformat`; `disassemble` is the iterator `Disassemble`, run to its end.
-/
import StackMachine.Operation
import StackMachine.Text.Layout
import StackMachine.Text.Style

set_option autoImplicit false

namespace StackMachine

/-- An instruction as it stands in an encoded program.

Its address is a natural number without a bound, and so are the instruction pointer and the frame
pointer of a machine, where `arch` and `lemu` have numbers of machine size. Instructions that are
decoded have addresses below `programCapacity`. So only one that is made by hand, at the last of
the addresses of machine size, can tell: here there is an address behind it. -/
structure Instruction where
  /-- Where its tag stands. -/
  address : Nat
  op : Op
  /-- The operand word, for operations that have one. -/
  operand : Option Word
  deriving DecidableEq, Repr

/-- Why no instruction can be read where there is a word. -/
inductive DecodeError where
  /-- The word is no tag. -/
  | unknownOpcode (word : Word)
  /-- The program ends between the tag and its operand. -/
  | missingOperand (op : Op)
  deriving DecidableEq, Repr

/-- The wording of a decoding failure. -/
def DecodeError.message : DecodeError → String
  | unknownOpcode word => "Unknown opcode: 0x" ++ Text.hex4 word.toNat
  | missingOperand op => "Missing operand for `" ++ op.name ++ "`"

namespace Instruction

/-- Address of the instruction that follows. -/
def next (inst : Instruction) : Nat :=
  inst.address + inst.op.size

/-- The instruction's own words. -/
def encode (inst : Instruction) : List Word :=
  inst.op.tag :: inst.operand.toList

/-- The instruction for the terminal: the mnemonic, then the operand in
hexadecimal and, in brackets, as a signed number. -/
def text (inst : Instruction) : String :=
  let head := Text.Style.red.start ++ Text.padRight 6 inst.op.mnemonic
  match inst.operand with
  | none => head ++ Text.Style.red.stop
  | some w =>
    head ++ Text.paint [.yellow] ("0x" ++ Text.hex4 w.toNat) ++ " "
      ++ Text.paint [.dim] ("(" ++ toString (Word.signed w) ++ ")")

end Instruction

/-! ## Decoding -/

/-- The instruction whose tag stands at `address`; `none` where the program has
no word. -/
def decodeAt (program : Program) (address : Nat) : Except DecodeError (Option Instruction) :=
  match program[address]? with
  | none => .ok none
  | some word =>
    match Op.ofTag? word with
    | none => .error (.unknownOpcode word)
    | some op =>
      if op.arity = 0 then .ok (some ⟨address, op, none⟩)
      else match program[address + 1]? with
        | none => .error (.missingOperand op)
        | some operand => .ok (some ⟨address, op, some operand⟩)

/-- What is decoded stands where it was looked for, inside the program. -/
theorem decodeAt_eq_some {program : Program} {address : Nat} {inst : Instruction}
    (h : decodeAt program address = .ok (some inst)) :
    inst.address = address ∧ address < program.size := by
  unfold decodeAt at h
  split at h
  · simp at h
  · rename_i word hword
    have hlt : address < program.size := (Array.getElem?_eq_some_iff.mp hword).1
    split at h
    · simp at h
    · split at h
      · obtain rfl : _ = inst := by simpa using h
        exact ⟨rfl, hlt⟩
      · split at h
        · simp at h
        · obtain rfl : _ = inst := by simpa using h
          exact ⟨rfl, hlt⟩

/-- A program read as instructions, up to its end or to the first failure. -/
structure Disassembly where
  instructions : Array Instruction
  failure : Option DecodeError
  deriving Repr

/-- Walks on from `address`, adding to what is already read. -/
def disassembleFrom (program : Program) (address : Nat) (read : Array Instruction) : Disassembly :=
  match h : decodeAt program address with
  | .ok none => ⟨read, none⟩
  | .ok (some inst) =>
    have hcloser : program.size - inst.next < program.size - address := by
      have hpos := inst.op.size_pos
      obtain ⟨haddr, hlt⟩ := decodeAt_eq_some h
      unfold Instruction.next
      omega
    disassembleFrom program inst.next (read.push inst)
  | .error failure => ⟨read, some failure⟩
termination_by program.size - address

/-- Walks a whole program. -/
def disassemble (program : Program) : Disassembly :=
  disassembleFrom program 0 #[]

end StackMachine
